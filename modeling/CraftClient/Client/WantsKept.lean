import CraftClient.Client.Wants

namespace CraftClient.Client

open Tracker Runs

variable {ω lg : Type} {n : ℕ} {L U : ℤ} {t t' : DlsnTracker} {th th' : Thread} {weak : Bool} {d : ℤ}
  {oc : SlotOutcome}

section Flags

def RoundLeg.holds : RoundLeg → Bool
  | .recheck | .tryBegin => false
  | _ => true

structure FlagInv (inflight : Fin n → Bool) (legs : lg → Option (Fin n × RoundLeg)) : Prop where
  one : ∀ j j' m l l', legs j = some (m, l) → legs j' = some (m, l') → l.holds = true → l'.holds = true →
    j = j'
  set : ∀ j m l, legs j = some (m, l) → l.holds = true → inflight m = true

variable [DecidableEq lg] {inflight : Fin n → Bool} {legs : lg → Option (Fin n × RoundLeg)} {j : lg} {m : Fin n}
  {l l' : RoundLeg}

omit [DecidableEq lg] in
lemma FlagInv.not_holds (h : FlagInv inflight legs) (hj : legs j = some (m, l)) (hl : l.holds = true) {a : lg}
    (haj : a ≠ j) (ha : legs a = some (m, l')) : l'.holds = false :=
  Bool.eq_false_iff.mpr fun hl' => haj (h.one a j m l' l ha hj hl' hl)

lemma FlagInv.update (h : FlagInv inflight legs) {inflight' : Fin n → Bool} {x : Option (Fin n × RoundLeg)}
    (hx : ∀ m l, x = some (m, l) → l.holds = true → inflight' m = true ∧
      ∀ a la, a ≠ j → legs a = some (m, la) → la.holds = false)
    (hset : ∀ a m la, a ≠ j → legs a = some (m, la) → la.holds = true → inflight' m = true) :
    FlagInv inflight' (Function.update legs j x) := by
  refine ⟨fun a b m la lb ha hb hla hlb => ?_, fun a m la ha hla => ?_⟩
  · rw [Function.update_apply] at ha hb
    split_ifs at ha hb with haj hbj hbj
    · rw [haj, hbj]
    · cases hlb.symm.trans ((hx m la ha hla).2 b lb hbj hb)
    · cases hla.symm.trans ((hx m lb hb hlb).2 a la haj ha)
    · exact h.one a b m la lb ha hb hla hlb
  · rw [Function.update_apply] at ha
    split_ifs at ha with haj
    · exact (hx m la ha hla).1
    · exact hset a m la haj ha hla

lemma FlagInv.move (h : FlagInv inflight legs) (hj : legs j = some (m, l)) (hl : l.holds = true)
    (l' : RoundLeg) : FlagInv inflight (Function.update legs j (some (m, l'))) := by
  apply h.update
  · rintro m l' ⟨⟩ -
    exact ⟨h.set j m l hj hl, fun a la haj ha => h.not_holds hj hl haj ha⟩
  · exact fun a m la _ => h.set a m la

lemma FlagInv.drop (h : FlagInv inflight legs) {x : Option (Fin n × RoundLeg)}
    (hx : ∀ m l, x = some (m, l) → l.holds = false) : FlagInv inflight (Function.update legs j x) := by
  apply h.update
  · exact fun m l hml hl => nomatch hl.symm.trans (hx m l hml)
  · exact fun a m la _ => h.set a m la

lemma FlagInv.release (h : FlagInv inflight legs) (hj : legs j = some (m, l)) (hl : l.holds = true)
    {x : Option (Fin n × RoundLeg)} (hx : ∀ m l, x = some (m, l) → l.holds = false) :
    FlagInv (Function.update inflight m false) (Function.update legs j x) := by
  apply h.update
  · exact fun m l hml hl => nomatch hl.symm.trans (hx m l hml)
  · intro a m' la haj ha hla
    rw [Function.update_of_ne, h.set a m' la ha hla]
    rintro rfl
    cases hla.symm.trans (h.not_holds hj hl haj ha)

lemma FlagInv.acquire (h : FlagInv inflight legs) (hm : inflight m = false) :
    FlagInv (Function.update inflight m true) (Function.update legs j (some (m, .peek))) := by
  apply h.update
  · rintro m l ⟨⟩ -
    refine ⟨Function.update_self .., fun a la _ ha => Bool.eq_false_iff.mpr fun hla => ?_⟩
    cases hm.symm.trans (h.set a m la ha hla)
  · intro a m' la _ ha hla
    rw [Function.update_apply, h.set a m' la ha hla, ite_self]

variable {s s' : WantSys ω lg n}

lemma roundLegStep_flags (h : FlagInv s.inflight s.legs) (hj : s.legs j = some (m, l))
    (hs : roundLegStep s j weak m l = some s') : FlagInv s'.inflight s'.legs := by
  cases l with
  | peek | clearLoad =>
    cases hs
    exact h.move hj rfl _
  | clearCas upto w =>
    simp only [roundLegStep] at hs
    split_ifs at hs <;> cases hs <;> exact h.move hj rfl _
  | ending =>
    cases hs
    refine h.release hj rfl ?_
    rintro m l ⟨⟩
    rfl
  | recheck =>
    cases hs
    apply h.drop
    intro m l hml
    split_ifs at hml
    cases hml
    rfl
  | tryBegin =>
    simp only [roundLegStep] at hs
    split_ifs at hs with hm <;> cases hs
    · exact h.drop nofun
    · exact h.acquire (by simpa using hm)
  | failed =>
    cases hs
    exact h.release hj rfl nofun
  | requested | retiring => cases hs

variable [DecidableEq ω]

lemma returned_flags (h : FlagInv s.inflight s.legs) (k : ω ⊕ lg) :
    FlagInv (s.returned k).inflight (s.returned k).legs := by
  cases k with
  | inl i =>
    simp only [WantSys.returned]
    split <;> exact h
  | inr j =>
    simp only [WantSys.returned]
    split
    · rename_i hj
      exact h.move hj rfl _
    · exact h

variable [Fintype ω] [Fintype lg] {a : WantAct ω lg}

lemma wantStep_flags (h : FlagInv s.inflight s.legs) (hs : wantStep s a = some s') :
    FlagInv s'.inflight s'.legs := by
  cases a with
  | write i addr len =>
    simp only [wantStep] at hs
    split_ifs at hs
    obtain ⟨s₁, hc, rfl⟩ := Option.map_eq_some_iff.mp hs
    obtain ⟨sys, -, rfl⟩ := Option.map_eq_some_iff.mp hc
    exact h
  | complete i oc =>
    simp only [wantStep] at hs
    split at hs
    · split_ifs at hs
      obtain ⟨s₁, hc, rfl⟩ := Option.map_eq_some_iff.mp hs
      obtain ⟨sys, -, rfl⟩ := Option.map_eq_some_iff.mp hc
      exact h
    · cases hs
  | go k weak =>
    obtain ⟨sys, -, rfl⟩ := Option.map_eq_some_iff.mp hs
    split_ifs
    · exact returned_flags (s := { s with sys := sys }) h k
    · exact h
  | note i weak =>
    obtain ⟨x, -, rfl⟩ := Option.map_eq_some_iff.mp hs
    exact h
  | fire i j =>
    simp only [wantStep] at hs
    split at hs
    · cases hs
      exact h
    · split_ifs at hs with hm hj <;> cases hs
      · exact h
      · exact h.acquire (by simpa using hm)
    · cases hs
  | leg j weak =>
    simp only [wantStep] at hs
    split at hs
    · rename_i hj
      exact roundLegStep_flags h hj hs
    · cases hs
  | reply j res =>
    simp only [wantStep] at hs
    split at hs
    · rename_i hj
      split at hs
      · cases hs
        exact h.move hj rfl _
      · obtain ⟨s₁, hc, rfl⟩ := Option.map_eq_some_iff.mp hs
        obtain ⟨sys, -, rfl⟩ := Option.map_eq_some_iff.mp hc
        exact h.move hj rfl _
    · cases hs

end Flags

section Calls

def Reached (t : DlsnTracker) (d : ℤ) (oc : SlotOutcome) (pc : ResolvePc) : Prop :=
  isResolved oc = true → pc ≠ .load → pc ≠ .store → t.Resolved d

lemma Reached.mono {pc : ResolvePc} (he : Evolves t t') (h : Reached t d oc pc) : Reached t' d oc pc :=
  fun hoc hl hst => he.resolved (h hoc hl hst)

lemma resolved_of_load (hi : Inv L t) (hd : (t.tracker.data d).isSome) {pc : ResolvePc}
    (hs : (resolveStep t d oc weak .load).2 = some pc) (hpc : pc ≠ .store) : t.Resolved d := by
  obtain ⟨s, hs'⟩ := Option.isSome_iff_exists.mp hd
  by_contra hr
  have hout : t.outcome d = some s.outcome := by simp [DlsnTracker.outcome, hs']
  have hbase : t.tracker.base ≤ d := by
    by_contra hb
    have hF := hi.base_le
    exact hr (hi.resolved (hi.issued_of_data d s hs').1 (by omega))
  have hun : isResolved s.outcome = false := by
    by_contra hres
    exact hr ⟨s.outcome, hout, by simpa using hres⟩
  rw [resolveStep, StreamTracker.find_of_base_le hbase, hs'] at hs
  simp only [hun, Bool.false_eq_true, if_false, Option.some.injEq] at hs
  exact hpc hs.symm

lemma reached_step {pc : ResolvePc} {r : DlsnTracker × Option ResolvePc} (hi : Inv L t)
    (hd : (t.tracker.data d).isSome) (he : Evolves t r.1) (h : Reached t d oc pc)
    (hs : resolveStep t d oc weak pc = r) :
    (∀ pc', r.2 = some pc' → Reached r.1 d oc pc') ∧ (r.2 = none → isResolved oc = true → r.1.Resolved d) := by
  by_cases hload : pc = .load
  · subst hload hs
    refine ⟨fun pc' hpc' _ _ hst => he.resolved (resolved_of_load hi hd hpc' hst), fun hnone => ?_⟩
    simp only [resolveStep] at hnone
    split at hnone <;> cases hnone
  by_cases hstore : pc = .store
  · subst hstore hs
    refine ⟨fun pc' _ hoc _ _ => ⟨oc, ?_, hoc⟩, by rintro ⟨⟩⟩
    obtain ⟨s, hs'⟩ := Option.isSome_iff_exists.mp hd
    simp [resolveStep, DlsnTracker.outcome, DlsnTracker.setOutcome, hs']
  · exact ⟨fun pc' _ hoc _ _ => he.resolved (h hoc hload hstore),
      fun _ hoc => he.resolved (h hoc hload hstore)⟩

def RetiresTo (L U : ℤ) (t : DlsnTracker) : Thread → Prop
  | .retireHi upto _ => upto = U ∧ U < t.nextDlsn
  | .retireFrom hi _ => hi = U
  | .retireScan fr => fr.hi = U ∧ ∀ d, L < d → d < fr.h → t.Resolved d
  | .retireVisit fr u => fr.hi = U ∧ ∀ d, L < d → d < u → t.Resolved d
  | .retireFill fr u => fr.hi = U ∧ fr.h = u + 1 ∧ ∀ d, L < d → d < u → t.Resolved d
  | .resolve u oc pc (some fr) => fr.hi = U ∧ fr.h = u + 1 ∧ isResolved oc = true ∧
    (∀ d, L < d → d < u → t.Resolved d) ∧ Reached t u oc pc
  | _ => False

lemma RetiresTo.mono (he : Evolves t t') (h : RetiresTo L U t th) : RetiresTo L U t' th := by
  unfold RetiresTo at h ⊢
  split at h
  · exact ⟨h.1, h.2.trans_le he.next⟩
  · exact h
  · exact ⟨h.1, fun d hL hd => he.resolved (h.2 d hL hd)⟩
  · exact ⟨h.1, fun d hL hd => he.resolved (h.2 d hL hd)⟩
  · exact ⟨h.1, h.2.1, fun d hL hd => he.resolved (h.2.2 d hL hd)⟩
  · obtain ⟨hhi, hh, hoc, hall, hreach⟩ := h
    exact ⟨hhi, hh, hoc, fun d hL hd => he.resolved (hall d hL hd), hreach.mono he⟩
  · exact h.elim

def Finds (t : DlsnTracker) : Thread → Prop
  | .retireVisit _ u => (t.tracker.find u).isSome
  | _ => True

instance (t : DlsnTracker) (th : Thread) : Decidable (Finds t th) := by
  unfold Finds
  split <;> infer_instance

lemma retiresTo_step (hi : Inv L t) (hk : ThreadOk L t th) (he : Evolves t t') (hfind : Finds t th)
    (h : RetiresTo L U t th) (hs : threadStep t weak th = some (t', th')) :
    RetiresTo L U t' th' ∨ th' = .idle ∧ ∀ d, L < d → d ≤ U → t'.Resolved d := by
  cases th with
  | idle => cases hs
  | create => exact h.elim
  | resolve u oc pc ret =>
    left
    cases ret with
    | none => exact h.elim
    | some fr =>
      obtain ⟨hhi, hh, hoc, hall, hreach⟩ := h
      have hall' : ∀ d, L < d → d < u → t'.Resolved d := fun d hL hd => he.resolved (hall d hL hd)
      simp only [threadStep] at hs
      split at hs
      case h_1 t₁ pc₁ hr =>
        cases hs
        exact ⟨hhi, hh, hoc, hall', (reached_step hi hk.1 he hreach hr).1 pc₁ rfl⟩
      case h_2 t₁ hr =>
        cases hs
        refine ⟨hhi, fun d hL hd => ?_⟩
        rcases eq_or_ne d u with rfl | hne
        · exact (reached_step hi hk.1 he hreach hr).2 rfl hoc
        · exact hall' d hL (by omega)
  | retireHi upto empties =>
    left
    cases hs
    obtain ⟨rfl, hlt⟩ := h
    exact min_eq_left (Int.le_sub_one_of_lt hlt)
  | retireFrom hi' empties =>
    left
    cases hs
    exact ⟨h, fun d hL hd => hi.resolved hL (by simpa using Int.lt_add_one_iff.mp hd)⟩
  | retireScan fr =>
    obtain ⟨hhi, hall⟩ := h
    have hall' : ∀ d, L < d → d ≤ t.tracker.completedUpto fr.h → t.Resolved d := by
      intro d hL hd
      rcases lt_or_ge d fr.h with hlt | hge
      · exact hall d hL hlt
      · exact hi.resolved_of_completed d (t.tracker.completedUpto_mem hge hd)
    have hge := t.tracker.completedUpto_ge fr.h
    cases hs
    split_ifs with hstop
    · exact Or.inr ⟨rfl, fun d hL hd => hall' d hL (by omega)⟩
    · exact Or.inl ⟨hhi, fun d hL hd => hall' d hL (by omega)⟩
  | retireVisit fr u =>
    left
    obtain ⟨hhi, hall⟩ := h
    cases hs
    rw [if_neg (mt Option.isNone_iff_eq_none.mp (Option.isSome_iff_ne_none.mp hfind))]
    split_ifs
    · exact ⟨hhi, rfl, rfl, hall, fun _ hl => absurd rfl hl⟩
    · exact ⟨hhi, rfl, hall⟩
  | retireFill fr u =>
    left
    obtain ⟨hhi, hh, hall⟩ := h
    cases hs
    exact ⟨hhi, hh, rfl, hall, fun _ hl => absurd rfl hl⟩

end Calls

section Wants

def Writer.works : Writer n → Option ℤ
  | .reserving d | .inFlight d | .resolving d _ | .noteLoad d | .noteCas d _ => some d
  | .idle | .fire _ => none

def WriterOk (t : DlsnTracker) (want : ℤ) (th : Thread) : Writer n → Prop
  | .reserving d => ∃ addr len, th = .create d addr len
  | .resolving d oc => oc ≠ .inFlight ∧ ∃ pc, th = .resolve d oc pc none ∧ Reached t d oc pc
  | .noteCas d w => th = .idle ∧ (d ≤ w → d ≤ want ∨ t.Resolved d)
  | _ => th = .idle

def RoundLegOk (L : ℤ) (t : DlsnTracker) (th : Thread) : Option (Fin n × RoundLeg) → Prop
  | some (_, .retiring upto) => RetiresTo L upto t th
  | some (_, .clearLoad upto) | some (_, .clearCas upto _) =>
    th = .idle ∧ ∀ d, L < d → d ≤ upto → t.Resolved d
  | some (_, .requested w) => th = .idle ∧ w < t.nextDlsn
  | _ => th = .idle

structure WantInv (L : ℤ) (s : WantSys ω lg n) : Prop where
  sys : SysInv L s.sys
  want_lt : s.want < s.sys.trk.nextDlsn
  works : ∀ i d, (s.writers i).works = some d → L < d ∧ d < s.sys.trk.nextDlsn
  writer : ∀ i, WriterOk s.sys.trk s.want (s.sys.threads (.inl i)) (s.writers i)
  leg : ∀ j, RoundLegOk L s.sys.trk (s.sys.threads (.inr j)) (s.legs j)
  kept : ∀ d, L < d → d < s.sys.trk.nextDlsn →
    s.sys.trk.Resolved d ∨ d ≤ s.want ∨ ∃ i, (s.writers i).works = some d

variable {want want' : ℤ} {w : Writer n}

lemma WriterOk.mono (he : Evolves t t') (hL : ∀ d, w.works = some d → L < d)
    (hw : ∀ d, L < d → d ≤ want → d ≤ want' ∨ t'.Resolved d) (h : WriterOk t want th w) :
    WriterOk t' want' th w := by
  cases w with
  | resolving d oc =>
    obtain ⟨hoc, pc, hth, hr⟩ := h
    exact ⟨hoc, pc, hth, hr.mono he⟩
  | noteCas d w =>
    refine ⟨h.1, fun hle => ?_⟩
    rcases h.2 hle with hwant | hr
    · exact hw d (hL d rfl) hwant
    · exact Or.inr (he.resolved hr)
  | _ => exact h

lemma RoundLegOk.mono {x : Option (Fin n × RoundLeg)} (he : Evolves t t') (h : RoundLegOk L t th x) :
    RoundLegOk L t' th x := by
  unfold RoundLegOk at h ⊢
  split at h
  · exact h.mono he
  · exact ⟨h.1, fun d hL hd => he.resolved (h.2 d hL hd)⟩
  · exact ⟨h.1, fun d hL hd => he.resolved (h.2 d hL hd)⟩
  · exact ⟨h.1, h.2.trans_le he.next⟩
  · exact h

variable {s s' : WantSys ω lg n}

lemma WantInv.of_moved (h : WantInv L s) (hsys : SysInv L s'.sys) (he : Evolves s.sys.trk s'.sys.trk)
    (hlt : s'.want < s'.sys.trk.nextDlsn)
    (hwant : ∀ d, L < d → d ≤ s.want → d ≤ s'.want ∨ s'.sys.trk.Resolved d)
    (hworks : ∀ i d, (s'.writers i).works = some d → (s.writers i).works = some d ∨
      L < d ∧ d < s'.sys.trk.nextDlsn)
    (hw : ∀ i, s'.writers i = s.writers i ∧ s'.sys.threads (.inl i) = s.sys.threads (.inl i) ∨
      WriterOk s'.sys.trk s'.want (s'.sys.threads (.inl i)) (s'.writers i))
    (hl : ∀ j, s'.legs j = s.legs j ∧ s'.sys.threads (.inr j) = s.sys.threads (.inr j) ∨
      RoundLegOk L s'.sys.trk (s'.sys.threads (.inr j)) (s'.legs j))
    (hdone : ∀ i d, (s.writers i).works = some d →
      s'.sys.trk.Resolved d ∨ d ≤ s'.want ∨ ∃ i, (s'.writers i).works = some d)
    (hnew : ∀ d, s.sys.trk.nextDlsn ≤ d → d < s'.sys.trk.nextDlsn → ∃ i, (s'.writers i).works = some d) :
    WantInv L s' where
  sys := hsys
  want_lt := hlt
  works i d hd := by
    rcases hworks i d hd with hold | hnew
    · have hb := h.works i d hold
      exact ⟨hb.1, hb.2.trans_le he.next⟩
    · exact hnew
  writer i := by
    rcases hw i with ⟨hwi, hth⟩ | hok
    · rw [hwi, hth]
      exact (h.writer i).mono he (fun d hd => (h.works i d hd).1) hwant
    · exact hok
  leg j := by
    rcases hl j with ⟨hlj, hth⟩ | hok
    · rw [hlj, hth]
      exact (h.leg j).mono he
    · exact hok
  kept d hL hd := by
    rcases lt_or_ge d s.sys.trk.nextDlsn with hlt | hge
    · rcases h.kept d hL hlt with hr | hwd | ⟨i, hi⟩
      · exact Or.inl (he.resolved hr)
      · exact (hwant d hL hwd).elim (fun h => Or.inr (Or.inl h)) Or.inl
      · exact hdone i d hi
    · exact Or.inr (Or.inr (hnew d hge hd))

variable [DecidableEq ω] [DecidableEq lg] {i : ω} {j : lg}

omit [DecidableEq lg] in
lemma WantInv.of_writer (h : WantInv L s) (hsys : SysInv L s'.sys) (he : Evolves s.sys.trk s'.sys.trk)
    (hlt : s'.want < s'.sys.trk.nextDlsn)
    (hwant : ∀ d, L < d → d ≤ s.want → d ≤ s'.want ∨ s'.sys.trk.Resolved d)
    (hws : s'.writers = Function.update s.writers i w) (hlegs : s'.legs = s.legs)
    (hth : ∀ k, k ≠ .inl i → s'.sys.threads k = s.sys.threads k)
    (hok : WriterOk s'.sys.trk s'.want (s'.sys.threads (.inl i)) w)
    (hworks : ∀ d, w.works = some d → (s.writers i).works = some d ∨ L < d ∧ d < s'.sys.trk.nextDlsn)
    (hdone : ∀ d, (s.writers i).works = some d →
      s'.sys.trk.Resolved d ∨ d ≤ s'.want ∨ w.works = some d)
    (hnew : ∀ d, s.sys.trk.nextDlsn ≤ d → d < s'.sys.trk.nextDlsn → w.works = some d) :
    WantInv L s' := by
  have hself : s'.writers i = w := by rw [hws, Function.update_self]
  have hne : ∀ i', i' ≠ i → s'.writers i' = s.writers i' := by
    intro i' hi'
    rw [hws, Function.update_of_ne hi']
  apply h.of_moved hsys he hlt hwant
  · intro i' d hd
    rcases eq_or_ne i' i with rfl | hi'
    · exact hworks d (hself ▸ hd)
    · exact Or.inl (hne i' hi' ▸ hd)
  · intro i'
    rcases eq_or_ne i' i with rfl | hi'
    · exact Or.inr (hself.symm ▸ hok)
    · exact Or.inl ⟨hne i' hi', hth _ (Sum.inl_injective.ne hi')⟩
  · exact fun j => Or.inl ⟨congrFun hlegs j, hth _ Sum.inr_ne_inl⟩
  · intro i' d hd
    rcases eq_or_ne i' i with rfl | hi'
    · exact (hdone d hd).imp_right (Or.imp_right fun hw => ⟨i', hself.symm ▸ hw⟩)
    · exact Or.inr (Or.inr ⟨i', (hne i' hi').symm ▸ hd⟩)
  · exact fun d hge hd => ⟨i, hself.symm ▸ hnew d hge hd⟩

omit [DecidableEq lg] in
lemma WantInv.of_same_slot (h : WantInv L s) (hsys : SysInv L s'.sys) (he : Evolves s.sys.trk s'.sys.trk)
    (hnext : s'.sys.trk.nextDlsn = s.sys.trk.nextDlsn) (hwant : s'.want = s.want)
    (hws : s'.writers = Function.update s.writers i w) (hlegs : s'.legs = s.legs)
    (hth : ∀ k, k ≠ .inl i → s'.sys.threads k = s.sys.threads k)
    (hok : WriterOk s'.sys.trk s'.want (s'.sys.threads (.inl i)) w)
    (hworks : w.works = (s.writers i).works) : WantInv L s' := by
  refine h.of_writer hsys he ?_ (fun d _ hd => Or.inl (hwant ▸ hd)) hws hlegs hth hok (fun d hd => ?_)
    (fun d hd => ?_) fun d hge hd => ?_
  · rw [hwant]
    exact h.want_lt.trans_le he.next
  · exact Or.inl (hworks ▸ hd)
  · exact Or.inr (Or.inr (hworks ▸ hd))
  · rw [hnext] at hd
    exact absurd hge (not_le.mpr hd)

omit [DecidableEq ω] in
lemma WantInv.of_leg {x : Option (Fin n × RoundLeg)} (h : WantInv L s) (hsys : SysInv L s'.sys)
    (he : Evolves s.sys.trk s'.sys.trk) (hnext : s'.sys.trk.nextDlsn = s.sys.trk.nextDlsn)
    (hlt : s'.want < s'.sys.trk.nextDlsn)
    (hwant : ∀ d, L < d → d ≤ s.want → d ≤ s'.want ∨ s'.sys.trk.Resolved d)
    (hws : s'.writers = s.writers) (hlegs : s'.legs = Function.update s.legs j x)
    (hth : ∀ k, k ≠ .inr j → s'.sys.threads k = s.sys.threads k)
    (hok : RoundLegOk L s'.sys.trk (s'.sys.threads (.inr j)) x) : WantInv L s' := by
  apply h.of_moved hsys he hlt hwant
  · exact fun i d hd => Or.inl (hws ▸ hd)
  · exact fun i => Or.inl ⟨congrFun hws i, hth _ Sum.inl_ne_inr⟩
  · intro j'
    rw [hlegs, Function.update_apply]
    split_ifs with hj
    · exact Or.inr (hj ▸ hok)
    · exact Or.inl ⟨rfl, hth _ (Sum.inr_injective.ne hj)⟩
  · exact fun i d hd => Or.inr (Or.inr ⟨i, hws.symm ▸ hd⟩)
  · intro d hge hd
    omega

omit [DecidableEq ω] in
lemma WantInv.setLeg {x : Option (Fin n × RoundLeg)} (h : WantInv L s) (f : Fin n → Bool)
    (hok : RoundLegOk L s.sys.trk (s.sys.threads (.inr j)) x) :
    WantInv L { s with inflight := f, legs := Function.update s.legs j x } :=
  h.of_leg h.sys (.refl _) rfl h.want_lt (fun _ _ hd => Or.inl hd) rfl rfl (fun _ _ => rfl) hok

omit [DecidableEq lg] in
lemma WantInv.setWriter (h : WantInv L s) (hw : (s.writers i).works = none) (hw' : w.works = none)
    (hok : WriterOk s.sys.trk s.want (s.sys.threads (.inl i)) w) : WantInv L (s.setWriter i w) := by
  refine h.of_writer (w := w) h.sys (.refl _) h.want_lt (fun _ _ hd => Or.inl hd) rfl rfl (fun _ _ => rfl)
    hok ?_ ?_ ?_
  · intro d hd
    rw [hw'] at hd
    cases hd
  · intro d hd
    rw [hw] at hd
    cases hd
  · intro d hge hd
    exact absurd hge (not_le.mpr hd)

/-- What keeps a round from losing a want: no call stores over a slot resolved since it looked, a visit
finds its slot created, and a reply covers no more than was asked for. -/
def WantAct.Regular (s : WantSys ω lg n) : WantAct ω lg → Prop
  | .go k _ => StoresFresh s.sys.trk (s.sys.threads k) ∧ Finds s.sys.trk (s.sys.threads k)
  | .reply j (some r) =>
    match s.legs j with
    | some (_, .requested w) => r.resolvedUpto ≤ w
    | _ => True
  | _ => True

instance (s : WantSys ω lg n) (a : WantAct ω lg) : Decidable (a.Regular s) := by
  unfold WantAct.Regular
  split
  · infer_instance
  · split <;> infer_instance
  · infer_instance

omit [DecidableEq ω] in
lemma roundLegStep_wants {m : Fin n} {l : RoundLeg} (h : WantInv L s) (hL : -1 ≤ L)
    (hj : s.legs j = some (m, l)) (hs : roundLegStep s j weak m l = some s') : WantInv L s' := by
  have hok := h.leg j
  rw [hj] at hok
  cases l with
  | peek =>
    cases hs
    apply h.setLeg s.inflight
    split_ifs
    · exact hok
    · exact ⟨hok, h.want_lt⟩
  | clearLoad upto =>
    cases hs
    exact h.setLeg s.inflight hok
  | clearCas upto w =>
    simp only [roundLegStep] at hs
    split_ifs at hs with hstop hweak
    · cases hs
      exact h.setLeg s.inflight hok.1
    · cases hs
      exact h.setLeg s.inflight hok
    · cases hs
      have hnext : -1 < s.sys.trk.nextDlsn := by
        have hF := h.sys.trk.frontier_lt
        have hlogin := h.sys.trk.login_le_frontier
        omega
      refine h.of_leg (x := some (m, .peek)) h.sys (.refl _) rfl hnext ?_ rfl rfl (fun _ _ => rfl) hok.1
      intro d hd hle
      have hw : s.want = w := by tauto
      exact Or.inr (hok.2 d hd (by omega))
  | ending =>
    cases hs
    exact h.setLeg _ hok
  | recheck =>
    cases hs
    apply h.setLeg s.inflight
    split_ifs <;> exact hok
  | tryBegin =>
    simp only [roundLegStep] at hs
    split_ifs at hs
    · cases hs
      exact h.setLeg s.inflight hok
    · cases hs
      exact h.setLeg _ hok
  | failed =>
    cases hs
    exact h.setLeg _ hok
  | requested | retiring => cases hs

omit [DecidableEq lg] in
lemma noteStep_wants {x : ℤ × Writer n} (h : WantInv L s) (hs : noteStep s weak (s.writers i) = some x) :
    WantInv L { s.setWriter i x.2 with want := x.1 } := by
  have hok := h.writer i
  have hworks := h.works i
  cases hw : s.writers i with
  | noteLoad d =>
    rw [hw] at hs hok
    cases hs
    exact h.of_same_slot (w := .noteCas d s.want) h.sys (.refl _) rfl rfl rfl rfl (fun _ _ => rfl)
      ⟨hok, Or.inl⟩ (by rw [hw]; rfl)
  | noteCas d w =>
    rw [hw] at hs hok hworks
    have hd := hworks d rfl
    simp only [noteStep] at hs
    split_ifs at hs with hle hweak
    · cases hs
      refine h.of_writer (w := .fire (List.finRange n)) h.sys (.refl _) h.want_lt (fun _ _ hd => Or.inl hd)
        rfl rfl (fun _ _ => rfl) hok.1 nofun ?_ (fun e hge hd => absurd hge (not_le.mpr hd))
      intro e he
      rw [hw] at he
      cases he
      exact (hok.2 hle).elim (fun h => Or.inr (Or.inl h)) Or.inl
    · cases hs
      exact h.of_same_slot (w := .noteCas d s.want) h.sys (.refl _) rfl rfl rfl rfl (fun _ _ => rfl)
        ⟨hok.1, Or.inl⟩ (by rw [hw]; rfl)
    · cases hs
      have hcur : s.want = w := by tauto
      refine h.of_writer (w := .fire (List.finRange n)) h.sys (.refl _) hd.2 ?_
        rfl rfl (fun _ _ => rfl) hok.1 nofun ?_ (fun e hge hd => absurd hge (not_le.mpr hd))
      · exact fun e _ he => Or.inl (he.trans (hcur.trans_le (not_le.mp hle).le))
      · intro e he
        rw [hw] at he
        cases he
        exact Or.inr (Or.inl le_rfl)
  | _ =>
    rw [hw] at hs
    cases hs

variable [Fintype ω] [Fintype lg] {a : WantAct ω lg}

lemma call_wants {k : ω ⊕ lg} {c : Call} (h : WantInv L s) (hc : s.call k c = some s') :
    ∃ sys th, s' = { s with sys := sys } ∧ startCall s.sys.trk c = some (sys.trk, th) ∧ SysInv L sys ∧
      Evolves s.sys.trk sys.trk ∧ sys.threads k = th ∧ ∀ k', k' ≠ k → sys.threads k' = s.sys.threads k' := by
  obtain ⟨sys, hsys, rfl⟩ := Option.map_eq_some_iff.mp hc
  obtain ⟨hi, he⟩ := h.sys.step (a := .call k c) trivial hsys
  rcases step_cases hsys with ⟨_, _, th, ⟨⟩, -, hcall, hth, -⟩ | ⟨-, -, -, ⟨⟩, -⟩
  refine ⟨sys, th, rfl, hcall, hi, he, ?_, fun k' hk' => ?_⟩
  · rw [hth, Function.update_self]
  · rw [hth, Function.update_of_ne hk']

omit [Fintype ω] [Fintype lg] in
lemma go_writer_wants {sys : Sys (ω ⊕ lg)} (h : WantInv L s) (hsys : SysInv L sys)
    (he : Evolves s.sys.trk sys.trk)
    (hs : threadStep s.sys.trk weak (s.sys.threads (.inl i)) = some (sys.trk, th))
    (hth : sys.threads = Function.update s.sys.threads (.inl i) th) :
    WantInv L (if sys.threads (.inl i) = .idle then { s with sys := sys }.returned (.inl i)
      else { s with sys := sys }) := by
  have hself : sys.threads (.inl i) = th := by rw [hth, Function.update_self]
  have hne : ∀ k, k ≠ .inl i → sys.threads k = s.sys.threads k := by
    intro k hk
    rw [hth, Function.update_of_ne hk]
  have hok := h.writer i
  have hnext := threadStep_nextDlsn hs
  rw [hself]
  cases hw : s.writers i with
  | reserving d =>
    rw [hw] at hok
    obtain ⟨addr, len, hcr⟩ := hok
    rw [hcr, threadStep] at hs
    obtain rfl : Thread.idle = th := congrArg Prod.snd (Option.some.inj hs)
    simp only [if_true, WantSys.returned, hw]
    exact h.of_same_slot (w := .inFlight d) hsys he hnext rfl rfl rfl hne hself (by rw [hw]; rfl)
  | resolving d oc =>
    have hk := h.sys.threads (.inl i)
    rw [hw] at hok
    obtain ⟨hoc, pc, hpc, hr⟩ := hok
    rw [hpc] at hs hk
    simp only [threadStep] at hs
    split at hs
    case h_1 t₁ pc₁ hstep =>
      simp only [Option.some.injEq, Prod.mk.injEq] at hs
      obtain ⟨rfl, rfl⟩ := hs
      rw [if_neg (by rintro ⟨⟩)]
      refine h.of_same_slot (w := .resolving d oc) hsys he hnext rfl ?_ rfl hne ?_ (by rw [hw])
      · rw [← hw, Function.update_eq_self]
      · exact ⟨hoc, pc₁, hself, (reached_step h.sys.trk hk.1 he hr hstep).1 pc₁ rfl⟩
    case h_2 t₁ hstep =>
      simp only [Option.some.injEq, Prod.mk.injEq] at hs
      obtain ⟨rfl, rfl⟩ := hs
      have hdone := (reached_step h.sys.trk hk.1 he hr hstep).2 rfl
      simp only [Thread.resume, if_true, WantSys.returned, hw]
      refine h.of_writer (w := if oc = .failed then .noteLoad d else .idle) hsys he (h.want_lt.trans_le he.next)
        (fun _ _ hd => Or.inl hd) rfl rfl hne ?_ ?_ ?_ ?_
      · split_ifs <;> exact hself
      · intro e hd
        split_ifs at hd
        · exact Or.inl (hw ▸ hd)
        · cases hd
      · intro e hd
        rw [hw] at hd
        cases hd
        split_ifs with hf
        · exact Or.inr (Or.inr rfl)
        · apply Or.inl (hdone ?_)
          cases oc <;> first | rfl | contradiction
      · exact fun e hge hd => absurd (hge.trans_lt hd) hnext.not_gt
  | _ =>
    rw [hw] at hok
    first
    | rw [hok] at hs
      cases hs
    | rw [hok.1] at hs
      cases hs

omit [Fintype ω] [Fintype lg] in
lemma go_leg_wants {sys : Sys (ω ⊕ lg)} (h : WantInv L s) (hsys : SysInv L sys)
    (he : Evolves s.sys.trk sys.trk) (hfind : Finds s.sys.trk (s.sys.threads (.inr j)))
    (hs : threadStep s.sys.trk weak (s.sys.threads (.inr j)) = some (sys.trk, th))
    (hth : sys.threads = Function.update s.sys.threads (.inr j) th) :
    WantInv L (if sys.threads (.inr j) = .idle then { s with sys := sys }.returned (.inr j)
      else { s with sys := sys }) := by
  have hself : sys.threads (.inr j) = th := by rw [hth, Function.update_self]
  have hne : ∀ k, k ≠ .inr j → sys.threads k = s.sys.threads k := by
    intro k hk
    rw [hth, Function.update_of_ne hk]
  have hok := h.leg j
  have hmove : ∀ x, RoundLegOk L sys.trk (sys.threads (.inr j)) x →
      WantInv L { s with sys := sys, legs := Function.update s.legs j x } := by
    intro x hx
    exact h.of_leg hsys he (threadStep_nextDlsn hs) (h.want_lt.trans_le he.next) (fun _ _ hd => Or.inl hd)
      rfl rfl hne hx
  have hidle : s.sys.threads (.inr j) ≠ .idle := by
    intro hidle
    rw [hidle] at hs
    cases hs
  unfold RoundLegOk at hok
  split at hok
  case h_1 m upto hj =>
    rcases retiresTo_step h.sys.trk (h.sys.threads _) he hfind hok hs with hr | ⟨rfl, hall⟩
    · have hmv := hmove (s.legs j) (by rw [hj, hself]; exact hr)
      rw [Function.update_eq_self] at hmv
      rw [hself, if_neg]
      · exact hmv
      · rintro rfl
        exact hr
    · rw [if_pos hself]
      simp only [WantSys.returned, hj]
      exact hmove _ ⟨hself, hall⟩
  all_goals first | exact absurd hok.1 hidle | exact absurd hok hidle

lemma wantStep_wants (h : WantInv L s) (hL : -1 ≤ L) (ha : a.Regular s) (hs : wantStep s a = some s') :
    WantInv L s' := by
  cases a with
  | write i addr len =>
    simp only [wantStep] at hs
    split_ifs at hs with hw
    obtain ⟨s₁, hc, rfl⟩ := Option.map_eq_some_iff.mp hs
    obtain ⟨sys, th, rfl, hcall, hi, he, hself, hne⟩ := call_wants h hc
    obtain ⟨htrk, rfl⟩ := Prod.mk.inj (Option.some.inj hcall)
    have hnext : sys.trk.nextDlsn = s.sys.trk.nextDlsn + 1 := by rw [← htrk]
    have hF := h.sys.trk.frontier_lt
    have hlogin := h.sys.trk.login_le_frontier
    refine h.of_writer (w := .reserving s.sys.trk.nextDlsn) hi he (h.want_lt.trans_le he.next)
      (fun _ _ hd => Or.inl hd) rfl rfl hne ⟨addr, len, hself⟩ ?_ ?_ ?_
    · rintro d ⟨⟩
      exact Or.inr ⟨by omega, hnext.symm ▸ Int.lt_succ _⟩
    · intro d hd
      rw [hw] at hd
      cases hd
    · intro d hge hd
      have hlt : d < s.sys.trk.nextDlsn + 1 := hnext ▸ hd
      exact congrArg some (by omega)
  | complete i oc =>
    simp only [wantStep] at hs
    split at hs
    case h_1 d hw =>
      split_ifs at hs with hoc
      obtain ⟨s₁, hc, rfl⟩ := Option.map_eq_some_iff.mp hs
      obtain ⟨sys, th, rfl, hcall, hi, he, hself, hne⟩ := call_wants h hc
      simp only [startCall] at hcall
      split_ifs at hcall
      obtain ⟨htrk, rfl⟩ := Prod.mk.inj (Option.some.inj hcall)
      exact h.of_same_slot (w := .resolving d oc) hi he (congrArg DlsnTracker.nextDlsn htrk.symm) rfl rfl rfl hne
        ⟨hoc, .load, hself, fun _ hl => absurd rfl hl⟩ (by rw [hw]; rfl)
    case h_2 => cases hs
  | go k weak =>
    obtain ⟨sys, hsys, rfl⟩ := Option.map_eq_some_iff.mp hs
    obtain ⟨hi, he⟩ := h.sys.step (a := .go k weak) ha.1 hsys
    rcases step_cases hsys with ⟨-, -, -, ⟨⟩, -⟩ | ⟨_, _, th, ⟨⟩, hc, -, hth, -⟩
    cases k with
    | inl i => exact go_writer_wants h hi he hc hth
    | inr j => exact go_leg_wants h hi he ha.2 hc hth
  | note i weak =>
    obtain ⟨x, hx, rfl⟩ := Option.map_eq_some_iff.mp hs
    exact noteStep_wants h hx
  | fire i j =>
    have hw := h.writer i
    simp only [wantStep] at hs
    split at hs
    case h_1 hi =>
      cases hs
      rw [hi] at hw
      exact h.setWriter (by rw [hi]; rfl) rfl hw
    case h_2 m rest hi =>
      rw [hi] at hw
      split_ifs at hs with hm hj
      · cases hs
        exact h.setWriter (by rw [hi]; rfl) rfl hw
      · cases hs
        have hleg := h.leg j
        rw [Option.not_isSome_iff_eq_none.mp hj] at hleg
        exact (h.setLeg (x := some (m, .peek)) _ hleg).setWriter (by rw [hi]; rfl) rfl hw
    case h_3 => cases hs
  | leg j weak =>
    simp only [wantStep] at hs
    split at hs
    case h_1 hj => exact roundLegStep_wants h hL hj hs
    case h_2 => cases hs
  | reply j res =>
    have hleg := h.leg j
    simp only [wantStep] at hs
    split at hs
    case h_1 m w hj =>
      rw [hj] at hleg
      split at hs
      case h_1 =>
        cases hs
        exact h.setLeg s.inflight hleg.1
      case h_2 r =>
        obtain ⟨s₁, hc, rfl⟩ := Option.map_eq_some_iff.mp hs
        obtain ⟨sys, th, rfl, hcall, hi, he, hself, hne⟩ := call_wants h hc
        obtain ⟨htrk, rfl⟩ := Prod.mk.inj (Option.some.inj hcall)
        have hle : r.resolvedUpto ≤ w := by simpa [WantAct.Regular, hj] using ha
        refine h.of_leg (x := some (m, .retiring r.resolvedUpto)) hi he (congrArg DlsnTracker.nextDlsn htrk.symm)
          (h.want_lt.trans_le he.next) (fun _ _ hd => Or.inl hd) rfl rfl hne ?_
        change RetiresTo L r.resolvedUpto sys.trk (sys.threads (.inr j))
        rw [hself]
        exact ⟨rfl, (hle.trans_lt hleg.2).trans_le he.next⟩
    case h_2 => cases hs

omit [DecidableEq ω] [DecidableEq lg] [Fintype ω] [Fintype lg] in
lemma wantInv_login (n : ℕ) (maxInflight lbaSize : UInt32) (hL : -1 ≤ L) :
    WantInv L (WantSys.login n maxInflight L lbaSize : WantSys ω lg n) where
  sys := sysInv_start maxInflight lbaSize
  want_lt := by
    change -1 < L + 1
    omega
  works i d hd := by cases hd
  writer i := rfl
  leg j := rfl
  kept d hd hlt := by
    change d < L + 1 at hlt
    omega

theorem failed_write_wanted (n : ℕ) (maxInflight lbaSize : UInt32) (hL : -1 ≤ L) :
    (∀ s : WantSys ω lg n, Reach wantStep free (.login n maxInflight L lbaSize) s →
      ∀ j j' m w w', s.legs j = some (m, .requested w) → s.legs j' = some (m, .requested w') → j = j') ∧
    ∀ s : WantSys ω lg n, Reach wantStep (fun s a => a.Regular s) (.login n maxInflight L lbaSize) s →
      (∀ i, s.writers i = .idle) → (∀ j, s.legs j = none) →
      ∀ d, L < d → d < s.sys.trk.nextDlsn → ¬ s.sys.trk.Resolved d → d ≤ s.want := by
  refine ⟨fun s hs j j' m w w' hj hj' => ?_, fun s hs hw hl d hd hlt hr => ?_⟩
  · have hflags : FlagInv s.inflight s.legs :=
      hs.invariant (P := fun s : WantSys ω lg n => FlagInv s.inflight s.legs) ⟨nofun, nofun⟩
        fun _ _ _ h _ hstep => wantStep_flags h hstep
    exact hflags.one j j' m _ _ hj hj' rfl rfl
  · have hinv : WantInv L s := hs.invariant (wantInv_login n maxInflight lbaSize hL)
      fun _ _ _ h ha hstep => wantStep_wants h hL ha hstep
    rcases hinv.kept d hd hlt with hres | hwant | ⟨i, hi⟩
    · exact absurd hres hr
    · exact hwant
    · rw [hw i] at hi
      cases hi

def failsAndAsks (i : Fin 2) : List (WantAct (Fin 2) Unit) :=
  [.go (.inl i) false, .complete i .failed, .go (.inl i) false, .go (.inl i) false, .go (.inl i) false,
    .note i false, .note i false, .fire i (), .fire i ()]

theorem failed_write_wanted_down :
    ∃ s : WantSys (Fin 2) Unit 1,
      Reach wantStep (fun s a => a.Regular s) (.login 1 4 (-1) 4096) s ∧ s.sys.trk.nextDlsn = 1 ∧
      ¬ s.sys.trk.Resolved 0 ∧ 0 ≤ s.want := by
  obtain ⟨s, hs, hp⟩ := Reach.exists_of_exec wantStep (fun s a => a.Regular s)
    (WantSys.login 1 4 (-1) 4096 : WantSys (Fin 2) Unit 1)
    (List.flatten [[.write 0 0 4096], failsAndAsks 0, [.leg () false, .reply () none, .leg () false]])
    (fun s => decide ((∀ i, s.writers i = .idle) ∧ (∀ j, s.legs j = none) ∧ s.sys.trk.nextDlsn = 1 ∧
      ¬ s.sys.trk.Resolved 0)) (by decide +kernel)
  obtain ⟨hw, hl, hn, hr⟩ := of_decide_eq_true hp
  exact ⟨s, hs, hn, hr, (failed_write_wanted 1 4 4096 le_rfl).2 s hs hw hl 0 (by omega) (by omega) hr⟩

theorem late_create_forgotten :
    ∃ s : WantSys (Fin 2) Unit 1,
      Reach wantStep free (.login 1 4 (-1) 4096) s ∧ (∀ i, s.writers i = .idle) ∧ (∀ j, s.legs j = none) ∧
      s.sys.trk.nextDlsn = 2 ∧ s.sys.trk.outcome 0 = some .failed ∧ s.want = -1 := by
  obtain ⟨s, hs, hp⟩ := Reach.exists_of_exec wantStep free
    (WantSys.login 1 4 (-1) 4096 : WantSys (Fin 2) Unit 1)
    (List.flatten [[.write 0 0 4096, .write 1 4096 4096], failsAndAsks 1,
      [.leg () false, .reply () (some ⟨1, [0]⟩)], List.replicate 17 (.go (.inr ()) false), failsAndAsks 0,
      List.replicate 5 (.leg () false)])
    (fun s => decide ((∀ i, s.writers i = .idle) ∧ (∀ j, s.legs j = none) ∧ s.sys.trk.nextDlsn = 2 ∧
      s.sys.trk.outcome 0 = some .failed ∧ s.want = -1)) (by decide +kernel)
  exact ⟨s, hs, of_decide_eq_true hp⟩

end Wants

end CraftClient.Client
