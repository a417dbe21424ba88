import CraftClient.Client.History

namespace CraftClient.Client

open Replica Router Cluster Tracker Runs

variable {σ κ ρ : Type} {n : ℕ} {p : UInt32} {s s' : History σ κ ρ n} {i : σ} {k : κ} {d : ℤ} {m : Fin n}
  {S : HistSession n} {w : HistWrite n}

def pendingTerm : Login n → Option UInt64
  | .running c _ => some c.term
  | .done (.ok r) => if r.term = 0 then none else some r.term
  | .idle | .done (.error _) => none

/-- Logins follow one another and no member that is down holds a slot above those of the live members, nor
does the term wrap; a member takes only writes of the session of the last login. -/
def Orderly (s : History σ κ ρ n) : HistAct σ κ n → Prop
  | .login _ _ _ => (∀ k, ¬ (s.logins k).isRunning) ∧ s.net.term < s.net.term + 1 ∧
    ∀ m, ∃ m', s.net.up m' ∧ (s.net.members m).lastAppendLsn ≤ (s.net.members m').lastAppendLsn
  | .deliver i _ m => ∀ S, s.sessions i = some S → (s.net.members m).term = S.term → S.term = s.net.term
  | _ => True

section Logs

structure SameLog (r r' : MemReplica) : Prop where
  journal : r'.journal = r.journal
  pageSize : r'.pageSize = r.pageSize
  lastAppendLsn : r'.lastAppendLsn = r.lastAppendLsn
  passed : ∀ d, r.commitLsn < d → d ≤ r'.commitLsn → (r.journal.find d).isSome

lemma SameLog.refl (r : MemReplica) : SameLog r r :=
  ⟨rfl, rfl, rfl, fun _ hd hle => absurd hle (not_le.mpr hd)⟩

lemma sameLog_applyUpTo (r : MemReplica) (target : ℤ) : SameLog r (r.applyUpTo target) :=
  have h := MemReplica.applies_applyUpTo r target
  ⟨h.journal, h.pageSize, h.lastAppendLsn, fun _ => MemReplica.isSome_of_applyUpTo⟩

lemma sameLog_coldApplyLogin (r : MemReplica) (clientToken term : UInt64) :
    SameLog r (r.coldApplyLogin clientToken term) := { SameLog.refl r with }

lemma sameLog_update {members : Fin n → MemReplica} {r : MemReplica} (h : SameLog (members m) r) (q : Fin n) :
    SameLog (members q) (Function.update members m r q) := by
  rcases eq_or_ne q m with rfl | hq
  · rwa [Function.update_self]
  · rw [Function.update_of_ne hq]
    exact SameLog.refl _

lemma loginStep_sameLog (members : Fin n → MemReplica) (c : LoginCall n) (pc : LoginPc n)
    (hpc : ∀ rest rs, pc ≠ .truncate rest rs) (q : Fin n) :
    SameLog (members q) ((loginStep members c pc).1 q) := by
  cases pc with
  | peek rest rs => cases rest <;> exact SameLog.refl _
  | sync rest rs =>
    cases rest with
    | nil => exact SameLog.refl _
    | cons m rest => exact sameLog_update (sameLog_applyUpTo _ rs) q
  | install rest rs =>
    cases rest with
    | nil => exact SameLog.refl _
    | cons m rest => exact sameLog_update (sameLog_coldApplyLogin _ _ _) q
  | check rest rs => cases rest <;> exact SameLog.refl _
  | truncate rest rs => exact absurd rfl (hpc rest rs)

end Logs

def PcFits (members : Fin n → MemReplica) (c : LoginCall n) : LoginPc n → Prop
  | .peek rest rs => -1 ≤ rs ∧ (∀ m ∈ c.live, m ∈ rest ∨ (members m).lastAppendLsn ≤ rs) ∧
    ∀ m, ∃ m' ∈ c.live, (members m).lastAppendLsn ≤ (members m').lastAppendLsn
  | .sync _ rs | .install _ rs | .check _ rs => -1 ≤ rs ∧ ∀ m, (members m).lastAppendLsn ≤ rs
  | .truncate _ _ => False

def LoginFits (net : MemTransport ρ n) : Login n → Prop
  | .running c pc => c.term = net.term ∧ PcFits net.members c pc
  | .done (.ok r) => r.term ≠ 0 → -1 ≤ r.dlsn ∧
    (r.term = net.term → ∀ m, (net.members m).lastAppendLsn ≤ r.dlsn)
  | .idle | .done (.error _) => True

structure AgreeInv (p : UInt32) (s : History σ κ ρ n) : Prop where
  page : ∀ m, (s.net.members m).pageSize = p
  keys : ∀ m d sl, (s.net.members m).journal.find d = some sl →
    0 ≤ d ∧ d ≤ (s.net.members m).lastAppendLsn
  dense : ∀ m d, 0 ≤ d → d ≤ (s.net.members m).commitLsn → ((s.net.members m).journal.find d).isSome
  slots : ∀ m d sl, (s.net.members m).journal.find d = some sl →
    ∃ i S w, s.sessions i = some S ∧ S.term = sl.term ∧ S.writes d = some w ∧ sl = w.req.slot p
  agree : ∀ m m' d sl sl', (s.net.members m).journal.find d = some sl →
    (s.net.members m').journal.find d = some sl' → sl.term = sl'.term
  acked : ∀ i S d w m l, s.sessions i = some S → S.writes d = some w →
    (w.legs m).request = .served (.ok l) → (s.net.members m).journal.find d = some (w.req.slot p)
  distinct : ∀ i j S T, s.sessions i = some S → s.sessions j = some T → S.term = T.term → i = j
  termLe : ∀ i S, s.sessions i = some S → S.term ≤ s.net.term
  base : ∀ i S, s.sessions i = some S → -1 ≤ S.loginDlsn ∧ S.loginDlsn < S.nextDlsn
  writes : ∀ i S d w, s.sessions i = some S → S.writes d = some w →
    w.req.hdr.term = S.term ∧ w.req.dlsn = d ∧ S.loginDlsn < d ∧ d < S.nextDlsn
  fits : ∀ k, LoginFits s.net (s.logins k)
  fresh : ∀ k t, pendingTerm (s.logins k) = some t →
    t ≤ s.net.term ∧ ∀ i S, s.sessions i = some S → S.term ≠ t
  apart : ∀ j k t, pendingTerm (s.logins j) = some t → pendingTerm (s.logins k) = some t → j = k
  current : ∀ i S, s.sessions i = some S → S.term = s.net.term → ∀ m d sl,
    (s.net.members m).journal.find d = some sl → S.loginDlsn < d → sl.term = s.net.term

lemma AgreeInv.slot_eq (h : AgreeInv p s) {m' : Fin n} {sl sl' : MemJournalSlot}
    (hs : (s.net.members m).journal.find d = some sl) (hs' : (s.net.members m').journal.find d = some sl') :
    sl = sl' := by
  obtain ⟨i, S, w, hS, ht, hw, rfl⟩ := h.slots m d sl hs
  obtain ⟨j, T, v, hT, ht', hv, rfl⟩ := h.slots m' d sl' hs'
  obtain rfl := h.distinct i j S T hS hT (ht.trans ((h.agree m m' d _ _ hs hs').trans ht'.symm))
  cases hS.symm.trans hT
  cases hw.symm.trans hv
  rfl

section Members

lemma pcFits_congr {members members' : Fin n → MemReplica} {c : LoginCall n} {pc : LoginPc n}
    (h : PcFits members c pc) (hm : ∀ m, (members' m).lastAppendLsn = (members m).lastAppendLsn) :
    PcFits members' c pc := by
  cases pc with
  | truncate rest rs => exact h.elim
  | _ => simpa only [PcFits, hm] using h

lemma loginFits_congr {net net' : MemTransport ρ n} {l : Login n} (h : LoginFits net l)
    (ht : net'.term = net.term)
    (hm : ∀ m, (net'.members m).lastAppendLsn = (net.members m).lastAppendLsn) : LoginFits net' l := by
  cases l with
  | idle => trivial
  | running c pc => exact ⟨h.1.trans ht.symm, pcFits_congr h.2 hm⟩
  | done res =>
    cases res with
    | error e => trivial
    | ok r =>
      intro hr
      refine ⟨(h hr).1, fun heq m => ?_⟩
      rw [hm]
      exact (h hr).2 (heq.trans ht) m

lemma AgreeInv.members (h : AgreeInv p s) {members : Fin n → MemReplica}
    (hm : ∀ m, SameLog (s.net.members m) (members m)) :
    AgreeInv p { s with net := { s.net with members := members } } where
  page m := (hm m).pageSize.trans (h.page m)
  keys m d sl hs := by
    change (members m).journal.find d = some sl at hs
    change 0 ≤ d ∧ d ≤ (members m).lastAppendLsn
    rw [(hm m).journal] at hs
    rw [(hm m).lastAppendLsn]
    exact h.keys m d sl hs
  dense m d hd hle := by
    change ((members m).journal.find d).isSome
    rw [(hm m).journal]
    rcases le_or_gt d (s.net.members m).commitLsn with hc | hc
    · exact h.dense m d hd hc
    · exact (hm m).passed d hc hle
  slots m d sl hs := h.slots m d sl (by rwa [← (hm m).journal])
  agree m m' d sl sl' hs hs' :=
    h.agree m m' d sl sl' (by rwa [← (hm m).journal]) (by rwa [← (hm m').journal])
  acked i S d w m l hS hw hl := by
    change (members m).journal.find d = _
    rw [(hm m).journal]
    exact h.acked i S d w m l hS hw hl
  distinct := h.distinct
  termLe := h.termLe
  base := h.base
  writes := h.writes
  fits k := loginFits_congr (h.fits k) rfl fun m => (hm m).lastAppendLsn
  fresh := h.fresh
  apart := h.apart
  current i S hS ht m d sl hs := h.current i S hS ht m d sl (by rwa [← (hm m).journal])

lemma AgreeInv.setMember (h : AgreeInv p s) {r : MemReplica} (hr : SameLog (s.net.members m) r) :
    AgreeInv p (s.setMember m r) := h.members fun q => sameLog_update hr q

end Members

section Logins

variable [DecidableEq κ]

lemma AgreeInv.setLogin (h : AgreeInv p s) {l : Login n} (hfits : LoginFits s.net l)
    (hpend : ∀ t, pendingTerm l = some t → pendingTerm (s.logins k) = some t) :
    AgreeInv p (s.setLogin k l s.net) := by
  have hsub : ∀ j t, pendingTerm (Function.update s.logins k l j) = some t →
      pendingTerm (s.logins j) = some t := by
    intro j t hj
    rcases eq_or_ne j k with rfl | hjk
    · rw [Function.update_self] at hj
      exact hpend t hj
    · rwa [Function.update_of_ne hjk] at hj
  refine { h with fits := ?_, fresh := ?_, apart := ?_ }
  · intro j
    change LoginFits s.net (Function.update s.logins k l j)
    rcases eq_or_ne j k with rfl | hjk
    · rwa [Function.update_self]
    · rw [Function.update_of_ne hjk]
      exact h.fits j
  · intro j t hj
    exact h.fresh j t (hsub j t hj)
  · intro j j' t hj hj'
    exact h.apart j j' t (hsub j t hj) (hsub j' t hj')

lemma AgreeInv.startLogin (h : AgreeInv p s) (clientToken : UInt64) (hr : ∀ k, ¬ (s.logins k).isRunning)
    (hlt : s.net.term < s.net.term + 1)
    (hup : ∀ m, ∃ m', s.net.up m' ∧
      (s.net.members m).lastAppendLsn ≤ (s.net.members m').lastAppendLsn) :
    AgreeInv p (s.setLogin k (.running ⟨clientToken, s.net.term + 1, s.net.live⟩ (.peek s.net.live (-1)))
      { s.net with term := s.net.term + 1 }) := by
  have hnew : ∀ t, t ≤ s.net.term → t ≠ s.net.term + 1 := by
    rintro t ht rfl
    exact absurd hlt (UInt64.not_lt.mpr ht)
  have hold : ∀ j t, pendingTerm (Function.update s.logins k (.running ⟨clientToken, s.net.term + 1,
      s.net.live⟩ (.peek s.net.live (-1))) j) = some t →
      j = k ∧ t = s.net.term + 1 ∨ j ≠ k ∧ pendingTerm (s.logins j) = some t := by
    intro j t hj
    rcases eq_or_ne j k with rfl | hjk
    · rw [Function.update_self] at hj
      exact Or.inl ⟨rfl, (Option.some.inj hj).symm⟩
    · rw [Function.update_of_ne hjk] at hj
      exact Or.inr ⟨hjk, hj⟩
  refine { h with termLe := ?_, fits := ?_, fresh := ?_, apart := ?_, current := ?_ }
  · intro i S hS
    exact UInt64.le_trans (h.termLe i S hS) (UInt64.le_of_lt hlt)
  · intro j
    change LoginFits _ (Function.update s.logins k _ j)
    rcases eq_or_ne j k with rfl | hjk
    · rw [Function.update_self]
      refine ⟨rfl, le_rfl, fun m hm => Or.inl hm, fun m => ?_⟩
      obtain ⟨m', hm', hle⟩ := hup m
      exact ⟨m', MemTransport.mem_live.mpr hm', hle⟩
    · rw [Function.update_of_ne hjk]
      have hj := h.fits j
      have hrj := hr j
      have hfr := h.fresh j
      cases hl : s.logins j with
      | idle => trivial
      | running c pc =>
        rw [hl] at hrj
        exact absurd rfl hrj
      | done res =>
        cases res with
        | error e => trivial
        | ok r =>
          rw [hl] at hj hfr
          intro hr0
          refine ⟨(hj hr0).1, fun heq => absurd heq (hnew _ (hfr r.term ?_).1)⟩
          exact if_neg hr0
  · intro j t hj
    obtain ⟨rfl, rfl⟩ | ⟨-, hj⟩ := hold j t hj
    · exact ⟨UInt64.le_refl _, fun i S hS => hnew _ (h.termLe i S hS)⟩
    · exact ⟨UInt64.le_trans (h.fresh j t hj).1 (UInt64.le_of_lt hlt), (h.fresh j t hj).2⟩
  · intro j j' t hj hj'
    obtain ⟨hjk, ht⟩ | ⟨-, hjt⟩ := hold j t hj <;> obtain ⟨hjk', ht'⟩ | ⟨-, hjt'⟩ := hold j' t hj'
    · rw [hjk, hjk']
    · exact absurd ht (hnew _ (h.fresh j' t hjt').1)
    · exact absurd ht' (hnew _ (h.fresh j t hjt).1)
    · exact h.apart j j' t hjt hjt'
  · intro i S hS ht
    exact absurd ht (hnew _ (h.termLe i S hS))

lemma PcFits.step {members : Fin n → MemReplica} {c : LoginCall n} {pc pc' : LoginPc n}
    (h : PcFits members c pc) (hn : (loginStep members c pc).2 = .inl pc') : PcFits members c pc' := by
  cases pc with
  | peek rest rs =>
    obtain ⟨hrs, hseen, hmax⟩ := h
    cases rest with
    | nil =>
      cases hn
      refine ⟨hrs, fun m => ?_⟩
      obtain ⟨m', hm', hle⟩ := hmax m
      exact hle.trans ((hseen m' hm').resolve_left (by simp))
    | cons m rest =>
      cases hn
      refine ⟨hrs.trans (le_max_left _ _), fun q hq => ?_, hmax⟩
      obtain hq | hq := hseen q hq
      · rcases List.mem_cons.mp hq with rfl | hq
        · exact Or.inr (le_max_right _ _)
        · exact Or.inl hq
      · exact Or.inr (hq.trans (le_max_left _ _))
  | sync rest rs => cases rest <;> exact Sum.inl.inj hn ▸ h
  | install rest rs => cases rest <;> exact Sum.inl.inj hn ▸ h
  | check rest rs =>
    cases rest with
    | nil => cases hn
    | cons m rest =>
      simp only [loginStep, Sum.inl.injEq] at hn
      rw [MemReplica.peekLsns, if_neg (not_lt.mpr (h.2 m))] at hn
      exact hn ▸ h
  | truncate rest rs => exact h.elim

lemma PcFits.result {members : Fin n → MemReplica} {c : LoginCall n} {pc : LoginPc n} {r : LoginResult n}
    (h : PcFits members c pc) (hn : (loginStep members c pc).2 = .inr r) :
    r.term = c.term ∧ -1 ≤ r.dlsn ∧ ∀ m, (members m).lastAppendLsn ≤ r.dlsn := by
  cases pc with
  | peek rest rs => cases rest <;> cases hn
  | sync rest rs => cases rest <;> cases hn
  | install rest rs => cases rest <;> cases hn
  | check rest rs =>
    cases rest with
    | nil =>
      cases hn
      exact ⟨rfl, h⟩
    | cons m rest => cases hn
  | truncate rest rs => exact h.elim

lemma PcFits.not_truncate {members : Fin n → MemReplica} {c : LoginCall n} {pc : LoginPc n}
    (h : PcFits members c pc) (rest : List (Fin n)) (rs : ℤ) : pc ≠ .truncate rest rs := by
  rintro rfl
  exact h

lemma AgreeInv.goLogin (h : AgreeInv p s) {c : LoginCall n} {pc : LoginPc n} (hk : s.logins k = .running c pc) :
    AgreeInv p (s.setLogin k (match (loginStep s.net.members c pc).2 with
        | .inl pc' => .running c pc'
        | .inr res => .done (.ok res)) { s.net with members := (loginStep s.net.members c pc).1 }) := by
  have hfits := h.fits k
  rw [hk] at hfits
  obtain ⟨hterm, hpc⟩ := hfits
  have hlog := loginStep_sameLog s.net.members c pc hpc.not_truncate
  have hlast : ∀ m, ((loginStep s.net.members c pc).1 m).lastAppendLsn = (s.net.members m).lastAppendLsn :=
    fun m => (hlog m).lastAppendLsn
  have hmembers := h.members hlog
  apply hmembers.setLogin
  · split
    · rename_i pc' hn
      exact ⟨hterm, pcFits_congr (hpc.step hn) hlast⟩
    · rename_i r hn
      obtain ⟨-, hle, hmax⟩ := hpc.result hn
      refine fun _ => ⟨hle, fun _ m => ?_⟩
      change ((loginStep s.net.members c pc).1 m).lastAppendLsn ≤ r.dlsn
      rw [hlast]
      exact hmax m
  · intro t ht
    change pendingTerm (s.logins k) = some t
    rw [hk]
    split at ht
    · exact ht
    · rename_i r hn
      simp only [pendingTerm] at ht
      split_ifs at ht
      rw [(hpc.result hn).1] at ht
      exact ht

end Logins

section Sessions

variable [DecidableEq σ]

lemma sessions_setSession (s : History σ κ ρ n) (i j : σ) (S : HistSession n) :
    (s.setSession i S).sessions j = if j = i then some S else s.sessions j := Function.update_apply ..

lemma AgreeInv.setSession (h : AgreeInv p s) (S' : HistSession n) (hS : s.sessions i = some S)
    (hterm : S'.term = S.term) (hlogin : S'.loginDlsn = S.loginDlsn) (hnext : S.nextDlsn ≤ S'.nextDlsn)
    (hkeep : ∀ d w, S.writes d = some w → ∃ w', S'.writes d = some w' ∧ w'.req = w.req)
    (hreq : ∀ d w, S'.writes d = some w →
      w.req.hdr.term = S.term ∧ w.req.dlsn = d ∧ S.loginDlsn < d ∧ d < S'.nextDlsn)
    (hack : ∀ d w m l, S'.writes d = some w → (w.legs m).request = .served (.ok l) →
      (s.net.members m).journal.find d = some (w.req.slot p)) : AgreeInv p (s.setSession i S') := by
  have hof : ∀ j T, (s.setSession i S').sessions j = some T →
      j = i ∧ T = S' ∨ j ≠ i ∧ s.sessions j = some T := by
    intro j T hT
    rw [sessions_setSession] at hT
    split_ifs at hT with hji
    · exact Or.inl ⟨hji, (Option.some.inj hT).symm⟩
    · exact Or.inr ⟨hji, hT⟩
  have hbefore : ∀ j T, (s.setSession i S').sessions j = some T →
      ∃ T₀, s.sessions j = some T₀ ∧ T₀.term = T.term ∧ T₀.loginDlsn = T.loginDlsn := by
    intro j T hT
    obtain ⟨rfl, rfl⟩ | ⟨-, hT⟩ := hof j T hT
    · exact ⟨S, hS, hterm.symm, hlogin.symm⟩
    · exact ⟨T, hT, rfl, rfl⟩
  refine { h with
    slots := ?_, acked := ?_, distinct := ?_, termLe := ?_, base := ?_, writes := ?_, fresh := ?_
    current := ?_ }
  · intro m d sl hs
    obtain ⟨j, T, w, hT, ht, hw, hsl⟩ := h.slots m d sl hs
    rcases eq_or_ne j i with rfl | hji
    · cases hS.symm.trans hT
      obtain ⟨w', hw', hr⟩ := hkeep d w hw
      exact ⟨j, S', w', by rw [sessions_setSession, if_pos rfl], hterm.trans ht, hw', by rw [hr]; exact hsl⟩
    · exact ⟨j, T, w, by rw [sessions_setSession, if_neg hji, hT], ht, hw, hsl⟩
  · intro j T d w m l hT hw hl
    obtain ⟨-, rfl⟩ | ⟨-, hT⟩ := hof j T hT
    · exact hack d w m l hw hl
    · exact h.acked j T d w m l hT hw hl
  · intro j j' T T' hT hT' heq
    obtain ⟨T₀, hT₀, ht, -⟩ := hbefore j T hT
    obtain ⟨T₁, hT₁, ht', -⟩ := hbefore j' T' hT'
    exact h.distinct j j' T₀ T₁ hT₀ hT₁ (ht.trans (heq.trans ht'.symm))
  · intro j T hT
    obtain ⟨T₀, hT₀, ht, -⟩ := hbefore j T hT
    exact ht ▸ h.termLe j T₀ hT₀
  · intro j T hT
    obtain ⟨-, rfl⟩ | ⟨-, hT⟩ := hof j T hT
    · rw [hlogin]
      exact ⟨(h.base i S hS).1, (h.base i S hS).2.trans_le hnext⟩
    · exact h.base j T hT
  · intro j T d w hT hw
    obtain ⟨-, rfl⟩ | ⟨-, hT⟩ := hof j T hT
    · rw [hterm, hlogin]
      exact hreq d w hw
    · exact h.writes j T d w hT hw
  · intro k t hk
    refine ⟨(h.fresh k t hk).1, fun j T hT => ?_⟩
    obtain ⟨T₀, hT₀, ht, -⟩ := hbefore j T hT
    exact ht ▸ (h.fresh k t hk).2 j T₀ hT₀
  · intro j T hT heq m d sl hs hd
    obtain ⟨T₀, hT₀, ht, hl⟩ := hbefore j T hT
    exact h.current j T₀ hT₀ (ht.trans heq) m d sl hs (hl ▸ hd)

lemma AgreeInv.setWrite (h : AgreeInv p s) (w' : HistWrite n) (hS : s.sessions i = some S)
    (hw : S.writes d = some w) (hreq : w'.req = w.req)
    (hack : ∀ m l, (w'.legs m).request = .served (.ok l) →
      (w.legs m).request = .served (.ok l) ∨
        (s.net.members m).journal.find d = some (w.req.slot p)) :
    AgreeInv p (s.setSession i (S.setWrite d w')) := by
  have hof : ∀ e v, (S.setWrite d w').writes e = some v → e = d ∧ v = w' ∨ e ≠ d ∧ S.writes e = some v := by
    intro e v hv
    rcases eq_or_ne e d with rfl | he
    · simp only [HistSession.setWrite, Function.update_self, Option.some.injEq] at hv
      exact Or.inl ⟨rfl, hv.symm⟩
    · simp only [HistSession.setWrite, Function.update_of_ne he] at hv
      exact Or.inr ⟨he, hv⟩
  apply h.setSession (S.setWrite d w') hS rfl rfl le_rfl
  · intro e v hv
    rcases eq_or_ne e d with rfl | he
    · cases hw.symm.trans hv
      exact ⟨w', Function.update_self .., hreq⟩
    · exact ⟨v, (Function.update_of_ne he ..).trans hv, rfl⟩
  · intro e v hv
    obtain ⟨rfl, rfl⟩ | ⟨-, hv⟩ := hof e v hv
    · rw [hreq]
      exact h.writes i S e w hS hw
    · exact h.writes i S e v hS hv
  · intro e v m l hv hl
    obtain ⟨rfl, rfl⟩ | ⟨-, hv⟩ := hof e v hv
    · rw [hreq]
      obtain hl | hj := hack m l hl
      · exact h.acked i S e w m l hS hw hl
      · exact hj
    · exact h.acked i S e v m l hS hv hl

lemma AgreeInv.write (h : AgreeInv p s) (hS : s.sessions i = some S) (addr len : UInt64)
    (bytes : Option (List UInt8)) : AgreeInv p (s.setSession i (S.write addr len bytes)) := by
  obtain ⟨-, hbase⟩ := h.base i S hS
  have hof : ∀ e v, (S.write addr len bytes).writes e = some v →
      e = S.nextDlsn ∧ v = ⟨⟨S.hdr S.frontier, e, addr, len, bytes⟩, fun _ => ⟨.unsent, none⟩, none⟩ ∨
        S.writes e = some v := by
    intro e v hv
    rcases eq_or_ne e S.nextDlsn with rfl | he
    · simp only [HistSession.write, HistSession.setWrite, Function.update_self, Option.some.injEq] at hv
      exact Or.inl ⟨rfl, hv.symm⟩
    · simp only [HistSession.write, HistSession.setWrite, Function.update_of_ne he] at hv
      exact Or.inr hv
  apply h.setSession (S.write addr len bytes) hS rfl rfl (by simp [HistSession.write])
  · intro e v hv
    have he := (h.writes i S e v hS hv).2.2.2
    exact ⟨v, (Function.update_of_ne he.ne ..).trans hv, rfl⟩
  · intro e v hv
    obtain ⟨rfl, rfl⟩ | hv := hof e v hv
    · exact ⟨rfl, rfl, hbase, by simp [HistSession.write]⟩
    · obtain ⟨h₁, h₂, h₃, h₄⟩ := h.writes i S e v hS hv
      exact ⟨h₁, h₂, h₃, h₄.trans (by simp [HistSession.write])⟩
  · intro e v m l hv hl
    obtain ⟨rfl, rfl⟩ | hv := hof e v hv
    · cases hl
    · exact h.acked i S e v m l hS hv hl

lemma AgreeInv.opens (h : AgreeInv p s) [DecidableEq κ] {r : LoginResult n} (hi : s.sessions i = none)
    (hk : s.logins k = .done (.ok r)) (hr : r.term ≠ 0) (clientToken : UInt64) :
    AgreeInv p ((s.setLogin k .idle s.net).setSession i (s.openSession r clientToken)) := by
  have hpend : pendingTerm (s.logins k) = some r.term := by
    rw [hk]
    exact if_neg hr
  obtain ⟨hle, hno⟩ := h.fresh k r.term hpend
  have hfits := h.fits k
  rw [hk] at hfits
  obtain ⟨hdlsn, hmax⟩ := hfits hr
  have hidle := h.setLogin (k := k) (l := .idle) trivial (by rintro t ⟨⟩)
  have hof : ∀ j T, ((s.setLogin k .idle s.net).setSession i (s.openSession r clientToken)).sessions j = some T →
      j = i ∧ T = s.openSession r clientToken ∨ j ≠ i ∧ s.sessions j = some T := by
    intro j T hT
    rw [sessions_setSession] at hT
    split_ifs at hT with hji
    · exact Or.inl ⟨hji, (Option.some.inj hT).symm⟩
    · exact Or.inr ⟨hji, hT⟩
  refine { hidle with
    slots := ?_, acked := ?_, distinct := ?_, termLe := ?_, base := ?_, writes := ?_, fresh := ?_
    current := ?_ }
  · intro m d sl hs
    obtain ⟨j, T, w, hT, ht⟩ := h.slots m d sl hs
    have hji : j ≠ i := by
      rintro rfl
      rw [hi] at hT
      cases hT
    exact ⟨j, T, w, (sessions_setSession ..).trans ((if_neg hji).trans hT), ht⟩
  · intro j T d w m l hT hw
    obtain ⟨-, rfl⟩ | ⟨-, hT⟩ := hof j T hT
    · cases hw
    · exact h.acked j T d w m l hT hw
  · intro j j' T T' hT hT' heq
    obtain ⟨hji, ht⟩ | ⟨-, hTj⟩ := hof j T hT <;> obtain ⟨hji', ht'⟩ | ⟨-, hTj'⟩ := hof j' T' hT'
    · rw [hji, hji']
    · exact absurd (heq.symm.trans (congrArg HistSession.term ht)) (hno j' T' hTj')
    · exact absurd (heq.trans (congrArg HistSession.term ht')) (hno j T hTj)
    · exact h.distinct j j' T T' hTj hTj' heq
  · intro j T hT
    obtain ⟨-, rfl⟩ | ⟨-, hT⟩ := hof j T hT
    · exact hle
    · exact h.termLe j T hT
  · intro j T hT
    obtain ⟨-, rfl⟩ | ⟨-, hT⟩ := hof j T hT
    · exact ⟨hdlsn, Int.lt_succ r.dlsn⟩
    · exact h.base j T hT
  · intro j T d w hT hw
    obtain ⟨-, rfl⟩ | ⟨-, hT⟩ := hof j T hT
    · cases hw
    · exact h.writes j T d w hT hw
  · intro j t hj
    refine ⟨(hidle.fresh j t hj).1, fun j' T hT => ?_⟩
    obtain ⟨-, rfl⟩ | ⟨-, hT⟩ := hof j' T hT
    · -- the term of the new session is pending at no other login
      intro heq
      change pendingTerm (Function.update s.logins k .idle j) = some t at hj
      rcases eq_or_ne j k with rfl | hjk
      · rw [Function.update_self] at hj
        cases hj
      · rw [Function.update_of_ne hjk] at hj
        have htr : t = r.term := heq.symm
        exact hjk (h.apart j k r.term (htr ▸ hj) hpend)
    · exact (hidle.fresh j t hj).2 j' T hT
  · intro j T hT heq m d sl hs hd
    obtain ⟨-, rfl⟩ | ⟨-, hT⟩ := hof j T hT
    · have hkey := (h.keys m d sl hs).2
      have hm := hmax heq m
      change r.dlsn < d at hd
      omega
    · exact h.current j T hT heq m d sl hs hd

end Sessions

section Delivery

lemma AgreeInv.pendingTerm_ne (h : AgreeInv p s) (hS : s.sessions i = some S) (hcur : S.term = s.net.term)
    (k : κ) : pendingTerm (s.logins k) ≠ some s.net.term :=
  fun hk => (h.fresh k _ hk).2 i S hS hcur

lemma AgreeInv.fits_of_current (h : AgreeInv p s) (hS : s.sessions i = some S) (hcur : S.term = s.net.term) (k : κ)
    {net : MemTransport ρ n} (hnet : net.term = s.net.term) : LoginFits net (s.logins k) := by
  have hk := h.fits k
  have hne := h.pendingTerm_ne hS hcur k
  cases hl : s.logins k with
  | idle => trivial
  | running c pc =>
    rw [hl] at hk hne
    exact absurd (congrArg some hk.1) hne
  | done res =>
    cases res with
    | error e => trivial
    | ok r =>
      rw [hl] at hk hne
      intro hr
      refine ⟨(hk hr).1, fun heq => absurd ?_ hne⟩
      exact (if_neg hr).trans (congrArg some (heq.trans hnet))

lemma AgreeInv.append (h : AgreeInv p s) (hS : s.sessions i = some S) (hw : S.writes d = some w)
    (hcur : S.term = s.net.term) (m : Fin n) :
    AgreeInv p (s.setMember m ((s.net.members m).append d (w.req.slot p))) := by
  obtain ⟨hterm, -, hlt, -⟩ := h.writes i S d w hS hw
  have hd : 0 ≤ d := by
    have := (h.base i S hS).1
    omega
  set s' := s.setMember m ((s.net.members m).append d (w.req.slot p))
  have hat : AppendsAt s.net.members s'.net.members m d (w.req.slot p) :=
    ⟨Function.update_self .., fun q hq => Function.update_of_ne hq ..⟩
  -- what the other members hold at `d` is of this session
  have hsame : ∀ q sl, (s.net.members q).journal.find d = some sl → sl.term = (w.req.slot p).term := by
    intro q sl hs
    rw [h.current i S hS hcur q d sl hs hlt, ← hcur]
    exact hterm.symm
  refine { h with
    page := ?_, keys := ?_, dense := ?_, slots := ?_, agree := ?_, acked := ?_, fits := ?_, current := ?_ }
  · intro q
    rcases eq_or_ne q m with rfl | hq
    · rw [hat.self]
      exact h.page q
    · rw [hat.other q hq]
      exact h.page q
  · intro q e sl hs
    obtain ⟨rfl, rfl, -⟩ | hs := hat.of_find hs
    · rw [hat.self]
      exact ⟨hd, le_max_right _ _⟩
    · obtain ⟨he, hle⟩ := h.keys q e sl hs
      exact ⟨he, hle.trans (hat.le_lastAppendLsn q)⟩
  · intro q e he hle
    rw [hat.commitLsn] at hle
    exact hat.isSome_find (h.dense q e he hle)
  · intro q e sl hs
    obtain ⟨-, rfl, rfl⟩ | hs := hat.of_find hs
    · exact ⟨i, S, w, hS, hterm.symm, hw, rfl⟩
    · exact h.slots q e sl hs
  · intro q q' e sl sl' hs hs'
    obtain ⟨-, he, hsl⟩ | hs := hat.of_find hs <;> obtain ⟨-, he', hsl'⟩ | hs' := hat.of_find hs'
    · rw [hsl, hsl']
    · rw [hsl]
      exact (hsame q' sl' (he ▸ hs')).symm
    · rw [hsl']
      exact hsame q sl (he' ▸ hs)
    · exact h.agree q q' e sl sl' hs hs'
  · intro j T e v q l hT hv hl
    have hold := h.acked j T e v q l hT hv hl
    rw [hat.find]
    split_ifs with hqe
    · obtain ⟨-, rfl⟩ := hqe
      have hTS : T.term = S.term :=
        ((h.writes j T e v hT hv).1.symm.trans (hsame q _ hold)).trans hterm
      obtain rfl := h.distinct j i T S hT hS hTS
      cases hS.symm.trans hT
      cases hw.symm.trans hv
      rfl
    · exact hold
  · intro k
    exact h.fits_of_current hS hcur k rfl
  · intro j T hT heq q e sl hs he
    obtain ⟨-, -, rfl⟩ | hs := hat.of_find hs
    · exact hterm.trans hcur
    · exact h.current j T hT heq q e sl hs he

variable [DecidableEq σ]

lemma AgreeInv.deliver (h : AgreeInv p s) (hS : s.sessions i = some S) (hw : S.writes d = some w)
    (hok : (s.net.members m).term = S.term → S.term = s.net.term) : AgreeInv p (s.deliver i S d w m) := by
  obtain ⟨hterm, hdlsn, -⟩ := h.writes i S d w hS hw
  have hother : ∀ (ans : LegResult) q l,
      ((w.setLeg m { w.legs m with request := .served ans }).legs q).request = .served (.ok l) →
      q = m ∧ ans = .ok l ∨ (w.legs q).request = .served (.ok l) := by
    intro ans q l hl
    rcases eq_or_ne q m with rfl | hq
    · simp only [HistWrite.setLeg, Function.update_self, Request.served.injEq] at hl
      exact Or.inl ⟨rfl, hl⟩
    · simp only [HistWrite.setLeg, Function.update_of_ne hq] at hl
      exact Or.inr hl
  simp only [History.deliver]
  split
  · rename_i l r hans
    obtain ⟨-, ht, -, hr, -⟩ := MemReplica.doWrite_ok hans
    rw [hdlsn, WriteReq.writeSlot_eq (h.page m)] at hr
    have happ := h.append hS hw (hok (ht.symm.trans hterm)) m
    have hr' : SameLog ((s.setMember m ((s.net.members m).append d (w.req.slot p))).net.members m) r := by
      change SameLog (Function.update s.net.members m _ m) r
      rw [Function.update_self, hr]
      exact sameLog_applyUpTo _ _
    have hset := happ.setMember hr'
    have heq : (s.setMember m ((s.net.members m).append d (w.req.slot p))).setMember m r = s.setMember m r := by
      simp [History.setMember, MemTransport.setMember]
    rw [heq] at hset
    rw [hans]
    refine hset.setWrite (w.setLeg m { w.legs m with request := .served (.ok l) }) hS hw rfl ?_
    intro q l' hl
    obtain ⟨rfl, -⟩ | hl := hother _ q l' hl
    · right
      change (Function.update s.net.members q r q).journal.find d = _
      rw [Function.update_self, hr, MemReplica.applyUpTo_journal, MemReplica.find_append, if_pos rfl]
    · exact Or.inl hl
  · rename_i e hans
    rw [hans]
    refine h.setWrite _ hS hw rfl fun q l hl => Or.inl ?_
    obtain ⟨-, hcon⟩ | hl := hother _ q l hl
    · cases hcon
    · exact hl

end Delivery

section Theorem

variable [DecidableEq σ] [DecidableEq κ]

lemma AgreeInv.step (h : AgreeInv p s) {a : HistAct σ κ n} (hok : Orderly s a) (hs : histStep s a = some s') :
    AgreeInv p s' := by
  cases a with
  | login k caller clientToken =>
    obtain ⟨-, rfl⟩ := histStep_login hs
    obtain ⟨res, he, ht, -⟩ | ⟨-, -, -, he⟩ := s.net.startLogin_cases caller clientToken
    · rw [he]
      have hnone : pendingTerm (.done res : Login n) = none := by
        cases res with
        | error e => rfl
        | ok r => exact if_pos (ht r rfl)
      apply h.setLogin
      · cases res with
        | error e => trivial
        | ok r => exact fun hr => absurd (ht r rfl) hr
      · intro t hp
        rw [hnone] at hp
        cases hp
    · rw [he]
      exact h.startLogin clientToken hok.1 hok.2.1 hok.2.2
  | goLogin k =>
    obtain ⟨⟨l, net⟩, hg, rfl⟩ := Option.map_eq_some_iff.mp hs
    obtain ⟨c, pc, hk, rfl, rfl⟩ := goLogin_eq_some hg
    exact h.goLogin hk
  | opens i k clientToken =>
    obtain ⟨hi, rfl | ⟨r, hk, hr, rfl⟩⟩ := histStep_opens hs
    · exact h.setLogin trivial (by rintro t ⟨⟩)
    · exact h.opens hi hk hr clientToken
  | keepAlive i m commitLsn =>
    obtain rfl | ⟨l, r, hdr, hr, rfl⟩ := histStep_keepAlive hs
    · exact h
    · obtain ⟨-, rfl, -⟩ := MemReplica.doKeepAlive_ok hr
      exact h.setMember (sameLog_applyUpTo _ _)
  | write i addr len bytes =>
    obtain ⟨S, hS, rfl⟩ := histStep_write hs
    exact h.write hS addr len bytes
  | leg i d m a =>
    obtain ⟨S, w, leg, hS, hw, hl, rfl⟩ := histStep_leg hs
    refine h.setWrite _ hS hw rfl fun q l hq => Or.inl ?_
    rcases eq_or_ne q m with rfl | hqm
    · simp only [HistWrite.setLeg, Function.update_self] at hq
      exact ((legStep_mem hl).1 l).mp hq
    · simpa only [HistWrite.setLeg, Function.update_of_ne hqm] using hq
  | deliver i d m =>
    obtain ⟨S, w, hS, hw, -, rfl⟩ := histStep_deliver hs
    exact h.deliver hS hw (hok S hS)
  | resolve i d =>
    obtain ⟨S, w, oc, hS, hw, rfl⟩ := histStep_resolve hs
    exact h.setWrite _ hS hw rfl fun _ _ => Or.inl
  | advance i =>
    obtain ⟨S, hS, rfl⟩ := histStep_advance hs
    exact h.setSession _ hS rfl rfl le_rfl (fun _ w hw => ⟨w, hw, rfl⟩) (fun d w => h.writes i S d w hS)
      fun d w m l => h.acked i S d w m l hS
  | logout k i m =>
    obtain ⟨logouts, rfl⟩ := histStep_logout hs
    exact { h with }
  | goLogout k =>
    obtain ⟨m, logouts, rfl⟩ := histStep_goLogout hs
    have hm := h.setMember (m := m) (r := (s.net.members m).coldApplyLogout) { SameLog.refl _ with }
    exact { hm with }
  | setUp m up =>
    cases hs
    exact { h with fits := fun k => loginFits_congr (h.fits k) rfl fun _ => rfl }
  | setLeader m =>
    cases hs
    exact { h with fits := fun k => loginFits_congr (h.fits k) rfl fun _ => rfl }

omit [DecidableEq σ] [DecidableEq κ] in
lemma agreeInv_new [NeZero n] (p : UInt32) : AgreeInv p (.new p : History σ κ ρ n) where
  page _ := rfl
  keys _ _ _ h := by cases h
  dense _ d h₀ (hd : d ≤ -1) := by omega
  slots _ _ _ h := by cases h
  agree _ _ _ _ _ h := by cases h
  acked _ _ _ _ _ _ h := by cases h
  distinct _ _ _ _ h := by cases h
  termLe _ _ h := by cases h
  base _ _ h := by cases h
  writes _ _ _ _ h := by cases h
  fits _ := trivial
  fresh _ _ h := by cases h
  apart _ _ _ h := by cases h
  current _ _ h := by cases h

def HistWrite.journalledBy (w : HistWrite n) (m : Fin n) : Bool :=
  match (w.legs m).request with
  | .served (.ok _) => true
  | _ => false

def QuorumAcked (w : HistWrite n) : Prop :=
  quorum n ≤ (Finset.univ.filter fun m => w.journalledBy m = true).card

instance (w : HistWrite n) : Decidable (QuorumAcked w) := inferInstanceAs (Decidable (_ ≤ _))

theorem committed_prefixes_agree [NeZero n] (h : Reach histStep Orderly (.new p) s) (m m' : Fin n) (d : ℤ)
    (h₀ : 0 ≤ d) (hm : d ≤ (s.net.members m).commitLsn) (hm' : d ≤ (s.net.members m').commitLsn) :
    ∃ sl, (s.net.members m).journal.find d = some sl ∧ (s.net.members m').journal.find d = some sl ∧
      ∀ i S w, s.sessions i = some S → S.writes d = some w → QuorumAcked w → sl = w.req.slot p := by
  have hinv := h.invariant (agreeInv_new p) fun _ _ _ hi hok hs => hi.step hok hs
  obtain ⟨sl, hsl⟩ := Option.isSome_iff_exists.mp (hinv.dense m d h₀ hm)
  obtain ⟨sl', hsl'⟩ := Option.isSome_iff_exists.mp (hinv.dense m' d h₀ hm')
  refine ⟨sl, hsl, ?_, ?_⟩
  · rw [hsl', hinv.slot_eq hsl hsl']
  · intro i S w hS hw hq
    obtain ⟨q, hq⟩ := Finset.card_pos.mp ((Nat.succ_pos _).trans_le hq)
    have hj := (Finset.mem_filter.mp hq).2
    simp only [HistWrite.journalledBy] at hj
    split at hj
    · rename_i l hl
      exact hinv.slot_eq hsl (hinv.acked i S d w q l hS hw hl)
    · cases hj

section Runs

instance [Fintype κ] (s : History σ κ ρ n) (a : HistAct σ κ n) : Decidable (Orderly s a) :=
  match a with
  | .login _ _ _ => inferInstanceAs (Decidable (_ ∧ _ ∧ _))
  | .deliver i _ m =>
    match h : s.sessions i with
    | none => .isTrue fun S hS => by
      rw [h] at hS
      cases hS
    | some S => decidable_of_iff ((s.net.members m).term = S.term → S.term = s.net.term)
      ⟨fun hok T hT => Option.some.inj (h.symm.trans hT) ▸ hok, fun hok => hok S h⟩
  | .goLogin _ | .opens _ _ _ | .keepAlive _ _ _ | .write _ _ _ _ | .leg _ _ _ _ | .resolve _ _ | .advance _
  | .logout _ _ _ | .goLogout _ | .setUp _ _ | .setLeader _ => .isTrue trivial

abbrev SeqHist := History (Fin 3) (Fin 1) Unit 3

abbrev SeqAct := HistAct (Fin 3) (Fin 1) 3

def sessionRun (i : Fin 3) (clientToken : UInt64) (visits : ℕ) : List SeqAct :=
  .login 0 0 clientToken :: List.replicate visits (.goLogin 0) ++ [.opens i 0 clientToken]

def zeroRun (i : Fin 3) (d : ℤ) (addr : UInt64) (ms : List (Fin 3)) : List SeqAct :=
  .write i addr 4096 none ::
    ms.flatMap fun m => [.leg i d m .send, .deliver i d m, .leg i d m .memReply]

def commitRun (i : Fin 3) (d : ℤ) (ms : List (Fin 3)) : List SeqAct :=
  [.resolve i d, .advance i] ++ ms.map fun m => .keepAlive i m d

theorem committed_prefixes_agree_twoSessions :
    ∃ s : SeqHist, Reach histStep Orderly (.new 4096) s ∧ (1 : ℤ) ≤ (s.net.members 0).commitLsn ∧
      (1 : ℤ) ≤ (s.net.members 2).commitLsn ∧
      ∃ sl, (s.net.members 0).journal.find 1 = some sl ∧ (s.net.members 2).journal.find 1 = some sl ∧
        ∀ i S w, s.sessions i = some S → S.writes 1 = some w → QuorumAcked w → sl = w.req.slot 4096 := by
  obtain ⟨s, hs, ht⟩ := Reach.exists_of_exec histStep Orderly (.new 4096 : SeqHist)
    (sessionRun 0 7 16 ++ zeroRun 0 0 0 [0, 1, 2] ++ sessionRun 1 8 16 ++ zeroRun 1 1 4096 [0, 1, 2] ++
      commitRun 1 1 [0, 1, 2])
    (fun s => (1 : ℤ) ≤ (s.net.members 0).commitLsn && (1 : ℤ) ≤ (s.net.members 2).commitLsn)
    (by decide +kernel)
  obtain ⟨h₀, h₂⟩ := Bool.and_eq_true_iff.mp ht
  have h₀ := of_decide_eq_true h₀
  have h₂ := of_decide_eq_true h₂
  exact ⟨s, hs, h₀, h₂, committed_prefixes_agree hs 0 2 1 (by decide) h₀ h₂⟩

/-- Session 0 writes slot 0 on member 2 alone, which then goes down. The next login does not see that slot,
so session 1 uses the number again, and members 0 and 1 acknowledge its write. When member 2 is back, the third
login has it apply what it journalled of the first session. -/
theorem stale_slot_applied :
    ∃ s : SeqHist, Reach histStep free (.new 4096) s ∧ (0 : ℤ) ≤ (s.net.members 0).commitLsn ∧
      (0 : ℤ) ≤ (s.net.members 2).commitLsn ∧
      (s.net.members 0).journal.find 0 ≠ (s.net.members 2).journal.find 0 ∧
      ∃ S w, s.sessions 1 = some S ∧ S.writes 0 = some w ∧ QuorumAcked w ∧
        (s.net.members 2).journal.find 0 ≠ some (w.req.slot 4096) := by
  obtain ⟨s, hs, ht⟩ := Reach.exists_of_exec histStep free (.new 4096 : SeqHist)
    (sessionRun 0 7 16 ++ zeroRun 0 0 0 [2] ++ [.setUp 2 false] ++ sessionRun 1 8 12 ++
      zeroRun 1 0 4096 [0, 1] ++ [.setUp 2 true] ++ sessionRun 2 9 16)
    (fun s => (0 : ℤ) ≤ (s.net.members 0).commitLsn && ((0 : ℤ) ≤ (s.net.members 2).commitLsn &&
      ((s.net.members 0).journal.find 0 ≠ (s.net.members 2).journal.find 0 &&
        (s.sessions 1).any fun S => (S.writes 0).any fun w =>
          QuorumAcked w && (s.net.members 2).journal.find 0 ≠ some (w.req.slot 4096))))
    (by decide +kernel)
  obtain ⟨h₀, ht⟩ := Bool.and_eq_true_iff.mp ht
  obtain ⟨h₂, ht⟩ := Bool.and_eq_true_iff.mp ht
  obtain ⟨hne, ht⟩ := Bool.and_eq_true_iff.mp ht
  obtain ⟨S, hS, ht⟩ := (Option.any_eq_true _ _).mp ht
  obtain ⟨w, hw, ht⟩ := (Option.any_eq_true _ _).mp ht
  obtain ⟨hq, hw'⟩ := Bool.and_eq_true_iff.mp ht
  exact ⟨s, hs, of_decide_eq_true h₀, of_decide_eq_true h₂, of_decide_eq_true hne, S, w, hS, hw,
    of_decide_eq_true hq, of_decide_eq_true hw'⟩

end Runs

end Theorem

end CraftClient.Client
