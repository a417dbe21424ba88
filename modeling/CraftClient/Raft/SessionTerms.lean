import CraftClient.Lib.Runs
import CraftClient.Raft.GroupSteps

namespace CraftClient.Raft

open Replica Runs

variable {ρ : Type} {n : ℕ}

def Establish.waitsFor : Establish ρ n → Option ρ
  | .running _ (.asked k _ _) => some k
  | _ => none

def Establish.past : Establish ρ n → Bool
  | .running _ .start => false
  | .running _ _ => true
  | .idle | .done _ _ => false

/-- The term of a LOGIN that passes the leader check, or is answered ok without it: a redirect that names no leader. -/
def Group.passes (g : Group ρ n) : GroupAct ρ n → Option UInt64
  | .go m leaderHint =>
    match (g.servers m).login with
    | .running c .start => if (g.servers m).isLeader || leaderHint.isNone then some c.term else none
    | _ => none
  | _ => none

structure Terms (ρ : Type) (n : ℕ) where
  group : Group ρ n
  topTerm : UInt64

/-- A LOGIN passes when no other that has is under way, with a term above all those; and a probe is handled while its
login waits for it. -/
def InOrder (s : Terms ρ n) : GroupAct ρ n → Prop
  | .go m leaderHint => ∀ t ∈ s.group.passes (.go m leaderHint),
      s.topTerm < t ∧ ∀ q, (s.group.servers q).login.past = false
  | .serve k => ∃ m, (s.group.servers m).login.waitsFor = some k
  | _ => True

def loginTerms (es : List RaftMsg) : List UInt64 :=
  es.filterMap fun
    | .login msg => some msg.term
    | .sync _ => none

structure Ordered (g : Group ρ n) (top : UInt64) (m : Fin n) : Prop where
  sorted : ((g.servers m).committed :: loginTerms (g.entries m)).Pairwise (· ≤ ·)
  le_top : ∀ t ∈ (g.servers m).committed :: loginTerms (g.entries m), t ≤ top

structure SessionInv (s : Terms ρ n) : Prop where
  one : ∀ m q, (s.group.servers m).login.past → (s.group.servers q).login.past → m = q
  session : ∀ m c pc, (s.group.servers m).login = .running c pc → (s.group.servers m).sessionTerm = c.term
  past : ∀ m c pc, (s.group.servers m).login = .running c pc → (s.group.servers m).login.past →
    c.term = s.topTerm ∧ ∀ t ∈ s.group.returned, t < s.topTerm
  asked : ∀ m k q t, (s.group.servers m).login.waitsFor = some k → s.group.requests k = some (q, t) → t = s.topTerm
  le_top : ∀ t ∈ s.group.returned, t ≤ s.topTerm
  sorted : s.group.returned.Pairwise (· > ·)
  ordered : ∀ m, Ordered s.group s.topTerm m

section Steps

variable {g g' : Group ρ n} {top top' : UInt64} {a : GroupAct ρ n} {m : Fin n}

lemma past_of_waitsFor {l : Establish ρ n} {k : ρ} (h : l.waitsFor = some k) : l.past := by
  cases l with
  | running c pc =>
    cases pc with
    | asked => rfl
    | _ => cases h
  | idle | done => cases h

lemma Ordered.of_sublist (h : Ordered g top m) (htop : top ≤ top')
    (hc : ((g'.servers m).committed :: loginTerms (g'.entries m)).Sublist
      ((g.servers m).committed :: loginTerms (g.entries m))) : Ordered g' top' m where
  sorted := h.sorted.sublist hc
  le_top t ht := UInt64.le_trans (h.le_top t (hc.subset ht)) htop

lemma Ordered.append (h : Ordered g top m) (hc : (g'.servers m).committed = (g.servers m).committed) {e : RaftMsg}
    (he : g'.entries m = g.entries m ++ [e]) (hterm : ∀ t ∈ loginTerms [e], t = top) : Ordered g' top m := by
  have hlist : (g'.servers m).committed :: loginTerms (g'.entries m) =
      ((g.servers m).committed :: loginTerms (g.entries m)) ++ loginTerms [e] := by
    rw [hc, he, loginTerms, List.filterMap_append]
    rfl
  constructor
  · rw [hlist, List.pairwise_append]
    refine ⟨h.sorted, ?_, ?_⟩
    · cases e <;> simp [loginTerms]
    · intro t ht t' ht'
      rw [hterm t' ht']
      exact h.le_top t ht
  · intro t ht
    rw [hlist] at ht
    rcases List.mem_append.mp ht with ht | ht
    · exact h.le_top t ht
    · exact UInt64.le_of_eq (hterm t ht)

variable [DecidableEq ρ]

lemma entries_of_apply {e : RaftMsg} (he : g.log[(g.servers m).applied]? = some e)
    (hs : groupStep g (.apply m) = some g') (ha : (g'.servers m).applied = (g.servers m).applied + 1) :
    g.entries m = e :: g'.entries m := by
  rw [entries_eq_cons he, Group.entries, ha]
  cases wires_of_groupStep hs with
  | same _ hr hp hlog => rw [hp, hlog]

lemma Ordered.step (h : Ordered g top m) (hs : groupStep g a = some g') (htop : top ≤ top')
    (hprop : ∀ e, Proposed g e → top' = top ∧ ∀ t ∈ loginTerms [e], t = top) : Ordered g' top' m := by
  have hc := (replicaStep_of_groupStep m hs).commit
  generalize hcom : (g'.servers m).committed = t, happ : (g'.servers m).applied = k at hc
  cases hc with
  | same =>
    rcases entries_of_groupStep m hs with hsub | ⟨e, hp, he⟩
    · refine h.of_sublist htop ?_
      rw [hcom]
      exact (hsub.filterMap _).cons_cons _
    · obtain ⟨rfl, hterm⟩ := hprop e hp
      exact h.append hcom he hterm
  | login msg he =>
    refine h.of_sublist htop ?_
    rw [hcom, entries_of_apply he hs happ]
    exact List.sublist_cons_self _ _
  | sync msg he =>
    refine h.of_sublist htop ?_
    rw [hcom, entries_of_apply he hs happ]
    exact List.Sublist.refl _

omit [DecidableEq ρ] in
lemma past_of_proposed {e : RaftMsg} (he : Proposed g e) : ∃ q, (g.servers q).login.past := by
  cases he with
  | sync q c _ hl | login q c hl =>
    refine ⟨q, ?_⟩
    rw [hl]
    rfl

omit [DecidableEq ρ] in
lemma SessionInv.proposed (h : SessionInv ⟨g, top⟩) {e : RaftMsg} (he : Proposed g e) :
    ∀ t ∈ loginTerms [e], t = top := by
  intro t ht
  cases he with
  | sync => cases ht
  | login q c hl =>
    obtain rfl := List.mem_singleton.mp ht
    exact (h.past q c _ hl (by rw [hl]; rfl)).1

omit [DecidableEq ρ] in
lemma term_of_moves {c c' : EstablishCall n} {pc pc' : EstablishPc ρ n}
    (h : Moves g m (.running c pc) (.running c' pc')) : c'.term = c.term := by
  cases h with
  | begins _ _ hr => cases hr
  | _ => rfl

lemma request_of_asks {c : EstablishCall n} {pc : EstablishPc ρ n} {l : Establish ρ n}
    (hl : (g.servers m).login = .running c pc) (hm : Moves g m (.running c pc) l) (ha : a.caller = some m)
    (hs : groupStep g a = some g') {k : ρ} {p : Fin n} {t : UInt64} (hw : l.waitsFor = some k)
    (hk : g'.requests k = some (p, t)) : t = c.term := by
  cases hm with
  | asks c k' q rest hq hfree hidle =>
    cases hw
    cases wires_of_groupStep hs with
    | ask m' k' c' q' rest' hl' hidle' hr =>
      cases ha
      cases hl.symm.trans hl'
      rw [hr, Function.update_apply] at hk
      split_ifs at hk
      · cases hk
        rfl
      · cases hfree.symm.trans hk
    | serve => cases ha
    | same _ hr | proposeSync _ _ _ _ hr | proposeLogin _ _ _ hr | commit _ hr | lose _ hr =>
      rw [hr] at hk
      cases hfree.symm.trans hk
  | resolves c pc pc' hpc hpc' =>
    cases pc' with
    | asked => cases hpc'
    | _ => cases hw
  | _ => cases hw

lemma SessionInv.own_step (h : SessionInv ⟨g, top⟩) (ha : a.caller = some m) (hp : (g.servers m).login.past)
    (hs : groupStep g a = some g') : SessionInv ⟨g', top⟩ := by
  obtain ⟨c, pc, v, hl, hv, he⟩ := own_of_groupStep ha hs
  have hserver : ∀ q, g'.servers q = if q = m then v else g.servers q := by
    intro q
    rw [he]
    exact servers_setServer ..
  have hret : g'.returned = g.answered m v.login := by rw [he]
  obtain ⟨hterm, hlt⟩ := h.past m c pc hl hp
  have hsession := (h.session m c pc hl).trans hterm
  have hpast : ∀ q, (g'.servers q).login.past → q = m := by
    intro q hq
    rw [hserver] at hq
    split_ifs at hq with hqm
    · exact hqm
    · exact h.one q m hq hp
  have hself : g'.servers m = v := by rw [hserver, if_pos rfl]
  have hans : g'.returned = g.returned ∨ (v.login.past = false ∧ g'.returned = top :: g.returned) := by
    rw [hret]
    cases v.login with
    | idle | running c' pc' => exact .inl rfl
    | done c' res =>
      rw [Group.answered, hsession]
      split_ifs
      · exact .inr ⟨rfl, rfl⟩
      · exact .inl rfl
  constructor
  · intro q p hq hp
    rw [hpast q hq, hpast p hp]
  · intro q c' pc' hq
    simp only [hserver] at hq ⊢
    split_ifs at hq ⊢ with hqm
    · subst hqm
      exact hv.sessionTerm.trans ((h.session q c pc hl).trans (term_of_moves (hq ▸ hv.login)).symm)
    · exact h.session q c' pc' hq
  · intro q c' pc' hq hq'
    obtain rfl := hpast q hq'
    rw [hself] at hq hq'
    refine ⟨(term_of_moves (hq ▸ hv.login)).trans hterm, ?_⟩
    obtain hr | ⟨hr, -⟩ := hans
    · rw [hr]
      exact hlt
    · rw [hr] at hq'
      cases hq'
  · intro q k p t hw hk
    obtain rfl := hpast q (past_of_waitsFor hw)
    rw [hself] at hw
    exact (request_of_asks hl hv.login ha hs hw hk).trans hterm
  · intro t ht
    obtain hr | ⟨-, hr⟩ := hans
    · exact h.le_top t (hr ▸ ht)
    · rw [hr] at ht
      rcases List.mem_cons.mp ht with rfl | ht
      · exact UInt64.le_refl _
      · exact h.le_top t ht
  · obtain hr | ⟨-, hr⟩ := hans
    · rw [hr]
      exact h.sorted
    · rw [hr]
      exact h.sorted.cons hlt
  · intro q
    exact (h.ordered q).step hs (UInt64.le_refl _) fun e hp => ⟨rfl, h.proposed hp⟩

lemma SessionInv.replace {v : Server ρ n} (h : SessionInv ⟨g, top⟩) (hs : groupStep g a = some g')
    (hg : g' = g.setServer m v) (hv : v.login.past = false)
    (hsession : ∀ c pc, v.login = .running c pc → v.sessionTerm = c.term) : SessionInv ⟨g', top⟩ := by
  have hserver : ∀ q, g'.servers q = if q = m then v else g.servers q := by
    intro q
    rw [hg]
    exact servers_setServer ..
  have hpast : ∀ q, (g'.servers q).login.past → q ≠ m ∧ g'.servers q = g.servers q := by
    intro q hq
    rw [hserver] at hq ⊢
    split_ifs at hq ⊢ with hqm
    · rw [hv] at hq
      cases hq
    · exact ⟨hqm, rfl⟩
  constructor
  · intro q p hq hp
    exact h.one q p ((hpast q hq).2 ▸ hq) ((hpast p hp).2 ▸ hp)
  · intro q c pc hq
    simp only [hserver] at hq ⊢
    split_ifs at hq ⊢
    · exact hsession c pc hq
    · exact h.session q c pc hq
  · intro q c pc hq hq'
    obtain ⟨-, he⟩ := hpast q hq'
    simp only [he] at hq hq'
    rw [hg]
    exact h.past q c pc hq hq'
  · intro q k p t hw hk
    obtain ⟨-, he⟩ := hpast q (past_of_waitsFor hw)
    simp only [he] at hw
    rw [hg] at hk
    exact h.asked q k p t hw hk
  · rw [hg]
    exact h.le_top
  · rw [hg]
    exact h.sorted
  · intro q
    exact (h.ordered q).step hs (UInt64.le_refl _) fun e hp => ⟨rfl, h.proposed hp⟩

lemma SessionInv.pass_step {leaderHint : Option (Fin n)} {c : EstablishCall n} (h : SessionInv ⟨g, top⟩)
    (hl : (g.servers m).login = .running c .start) (hp : ((g.servers m).isLeader || leaderHint.isNone) = true)
    (hlt : top < c.term) (hnone : ∀ q, (g.servers q).login.past = false)
    (hs : groupStep g (.go m leaderHint) = some g') : SessionInv ⟨g', c.term⟩ := by
  have hsession := h.session m c _ hl
  have hbelow : ∀ t ∈ g.returned, t < c.term := fun t ht => UInt64.lt_of_le_of_lt (h.le_top t ht) hlt
  obtain ⟨v, hg, hv⟩ : ∃ v, g' = { g.setServer m v with returned := g'.returned } ∧
      (v.login = .running c .sample ∧ v.sessionTerm = c.term ∧ g'.returned = g.returned ∨
        (∃ res, v.login = .done c res) ∧ g'.returned = c.term :: g.returned) := by
    simp only [groupStep, hl, Group.establishStep, Option.some.injEq] at hs
    split_ifs at hs with hlead
    · subst hs
      exact ⟨_, rfl, .inl ⟨rfl, hsession, rfl⟩⟩
    · obtain rfl : leaderHint = none := by simpa [hlead] using hp
      subst hs
      refine ⟨_, rfl, .inr ⟨⟨_, rfl⟩, ?_⟩⟩
      rw [← hsession]
      rfl
  have hserver : ∀ q, g'.servers q = if q = m then v else g.servers q := by
    intro q
    rw [hg]
    exact servers_setServer ..
  have hpast : ∀ q, (g'.servers q).login.past → q = m ∧ v.login = .running c .sample ∧ g'.returned = g.returned := by
    intro q hq
    rw [hserver] at hq
    split_ifs at hq with hqm
    · obtain ⟨hlogin, -, hret⟩ | ⟨⟨res, hlogin⟩, -⟩ := hv
      · exact ⟨hqm, hlogin, hret⟩
      · rw [hlogin] at hq
        cases hq
    · rw [hnone] at hq
      cases hq
  constructor
  · intro q p hq hp
    rw [(hpast q hq).1, (hpast p hp).1]
  · intro q c' pc' hq
    simp only [hserver] at hq ⊢
    split_ifs at hq ⊢
    · obtain ⟨hlogin, hterm, -⟩ | ⟨⟨res, hlogin⟩, -⟩ := hv
      · cases hlogin.symm.trans hq
        exact hterm
      · cases hlogin.symm.trans hq
    · exact h.session q c' pc' hq
  · intro q c' pc' hq hq'
    obtain ⟨rfl, hlogin, hret⟩ := hpast q hq'
    simp only [hserver, if_pos] at hq
    cases hlogin.symm.trans hq
    rw [hret]
    exact ⟨rfl, hbelow⟩
  · intro q k p t hw
    obtain ⟨rfl, hlogin, -⟩ := hpast q (past_of_waitsFor hw)
    simp only [hserver, if_pos, hlogin] at hw
    cases hw
  · intro t ht
    obtain ⟨-, -, hret⟩ | ⟨-, hret⟩ := hv
    · exact UInt64.le_of_lt (hbelow t (hret ▸ ht))
    · rw [hret] at ht
      rcases List.mem_cons.mp ht with rfl | ht
      · exact UInt64.le_refl _
      · exact UInt64.le_of_lt (hbelow t ht)
  · obtain ⟨-, -, hret⟩ | ⟨-, hret⟩ := hv
    · rw [hret]
      exact h.sorted
    · rw [hret]
      exact h.sorted.cons hbelow
  · intro q
    refine (h.ordered q).step hs (UInt64.le_of_lt hlt) fun e he => ?_
    obtain ⟨p, hp⟩ := past_of_proposed he
    rw [hnone] at hp
    cases hp

omit [DecidableEq ρ] in
lemma passes_of_past (h : (g.servers m).login.past) {leaderHint : Option (Fin n)} :
    g.passes (.go m leaderHint) = none := by
  simp only [Group.passes]
  split
  · rename_i hl
    rw [hl] at h
    cases h
  · rfl

lemma SessionInv.go_step {leaderHint : Option (Fin n)} (h : SessionInv ⟨g, top⟩)
    (hok : InOrder ⟨g, top⟩ (.go m leaderHint)) (hs : groupStep g (.go m leaderHint) = some g') :
    SessionInv ⟨g', ((g.passes (.go m leaderHint)).map (max top)).getD top⟩ := by
  by_cases hp : (g.servers m).login.past
  · rw [passes_of_past hp]
    exact h.own_step rfl hp hs
  · obtain ⟨c, pc, v, hl, -⟩ := own_of_groupStep rfl hs
    obtain rfl : pc = .start := by
      rw [hl] at hp
      cases pc with
      | start => rfl
      | _ => exact absurd rfl hp
    have hpasses : g.passes (.go m leaderHint) =
        if (g.servers m).isLeader || leaderHint.isNone then some c.term else none := by
      simp only [Group.passes, hl]
    by_cases hpass : ((g.servers m).isLeader || leaderHint.isNone) = true
    · rw [if_pos hpass] at hpasses
      obtain ⟨hlt, hnone⟩ := hok c.term hpasses
      rw [hpasses, Option.map_some, Option.getD_some, show max top c.term = c.term from if_pos (UInt64.le_of_lt hlt)]
      exact h.pass_step hl hpass hlt hnone hs
    · rw [if_neg hpass] at hpasses
      rw [hpasses]
      simp only [Bool.or_eq_true, not_or, Bool.not_eq_true, Option.isNone_eq_false_iff] at hpass
      obtain ⟨hlead, hhint⟩ := hpass
      obtain ⟨q, rfl⟩ := Option.isSome_iff_exists.mp hhint
      have hg := hs
      simp only [groupStep, hl, Group.establishStep, hlead, Option.some.injEq] at hg
      exact h.replace hs hg.symm rfl fun _ _ hl => by cases hl

lemma returned_of_aside (hs : groupStep g a = some g') (ha : a.caller = none)
    (hb : ∀ m clientToken, a ≠ .onLogin m clientToken) : g'.returned = g.returned := by
  cases a with
  | write q hdr d addr len bytes =>
    simp only [groupStep] at hs
    split at hs
    all_goals
      cases hs
      rfl
  | go | ask | answer | noAnswer | fetch | propose | timeout => cases ha
  | onLogin q clientToken => exact absurd rfl (hb q clientToken)
  | _ => exact (sameHistory_of_groupStep rfl hs).returned

lemma SessionInv.aside_step (h : SessionInv ⟨g, top⟩) (hs : groupStep g a = some g') (ha : a.caller = none)
    (hb : ∀ m clientToken, a ≠ .onLogin m clientToken) : SessionInv ⟨g', top⟩ := by
  have hret := returned_of_aside hs ha hb
  have haside : ∀ q, Aside (g.servers q) (g'.servers q) := fun q =>
    (turns_of_groupStep hs (by rw [ha]; rintro ⟨⟩) (hb q)).1
  constructor
  · intro q p hq hp
    rw [(haside q).login] at hq
    rw [(haside p).login] at hp
    exact h.one q p hq hp
  · intro q c pc hq
    rw [(haside q).login] at hq
    rw [(haside q).sessionTerm]
    exact h.session q c pc hq
  · intro q c pc hq hq'
    rw [(haside q).login] at hq hq'
    rw [hret]
    exact h.past q c pc hq hq'
  · intro q k p t hw hk
    rw [(haside q).login] at hw
    cases wires_of_groupStep hs with
    | ask | proposeSync | proposeLogin => cases ha
    | serve k' hr =>
      rw [hr, Function.update_apply] at hk
      split_ifs at hk
      exact h.asked q k p t hw hk
    | same _ hr | commit _ hr | lose _ hr =>
      rw [hr] at hk
      exact h.asked q k p t hw hk
  · rw [hret]
    exact h.le_top
  · rw [hret]
    exact h.sorted
  · intro q
    exact (h.ordered q).step hs (UInt64.le_refl _) fun e hp => ⟨rfl, h.proposed hp⟩

lemma past_of_caller (ha : a.caller = some m) (hgo : ∀ leaderHint, a ≠ .go m leaderHint)
    (hs : groupStep g a = some g') : (g.servers m).login.past := by
  cases a with
  | go q leaderHint =>
    cases ha
    exact absurd rfl (hgo leaderHint)
  | ask | answer | noAnswer | fetch | timeout =>
    cases ha
    simp only [groupStep] at hs
    split at hs
    · rename_i hl
      rw [hl]
      rfl
    · cases hs
  | propose =>
    cases ha
    simp only [groupStep] at hs
    split at hs
    case h_5 => cases hs
    all_goals
      rename_i hl
      rw [hl]
      rfl
  | _ => cases ha

lemma SessionInv.step (h : SessionInv ⟨g, top⟩) (hok : InOrder ⟨g, top⟩ a) (hs : groupStep g a = some g') :
    SessionInv ⟨g', ((g.passes a).map (max top)).getD top⟩ := by
  cases a with
  | go m leaderHint => exact h.go_step hok hs
  | onLogin m clientToken =>
    have hs' := hs
    simp only [groupStep] at hs'
    split_ifs at hs'
    refine h.replace hs (Option.some.inj hs').symm rfl fun c pc hl => ?_
    cases hl
    rfl
  | ask m _ | answer m | noAnswer m | fetch m _ | propose m _ | timeout m =>
    exact h.own_step rfl (past_of_caller rfl (by rintro _ ⟨⟩) hs) hs
  | _ => exact h.aside_step hs rfl (by rintro _ _ ⟨⟩)

end Steps

structure Fresh (g : Group ρ n) (top : UInt64) : Prop where
  idle : ∀ m, (g.servers m).login = .idle
  entries : ∀ m, g.entries m = []
  returned : g.returned = []
  committed : ∀ m, (g.servers m).committed ≤ top

section Runs

instance (s : Terms ℕ n) (a : GroupAct ℕ n) : Decidable (InOrder s a) :=
  match a with
  -- not by enumeration of the terms
  | .go m leaderHint => Option.decidableForallMem
      (p := fun t => s.topTerm < t ∧ ∀ q, (s.group.servers q).login.past = false) (s.group.passes (.go m leaderHint))
  | .serve k => inferInstanceAs (Decidable (∃ m : Fin n, (s.group.servers m).login.waitsFor = some k))
  | .lead _ _ | .onLogin _ _ | .ask _ _ | .answer _ | .noAnswer _ | .fetch _ _ | .propose _ _ | .timeout _
  | .barrier _ _ | .commit | .lose | .apply _ | .work _ _ | .write _ _ _ _ _ _ => .isTrue trivial

def pollFrom (m : Fin 3) (k : ℕ) : List (GroupAct ℕ 3) :=
  (List.finRange 3).flatMap fun p =>
    if p = m then [.go m none]
    else [.ask m (k + p), .serve (k + p), .barrier p (.arm (k + p)), .barrier p (.record (k + p)), .answer m]

def loginOn (m : Fin 3) (k : ℕ) : List (GroupAct ℕ 3) :=
  List.flatten [[.lead m true, .onLogin m 7, .go m none, .go m none], pollFrom m k, List.replicate 3 (.go m none),
    [.propose m none, .go m none, .propose m none, .commit, .commit],
    (List.finRange 3).flatMap fun q => .apply q :: (List.replicate 5 (.work q false)).concat (.apply q),
    [.go m none, .lead m false]]

end Runs

end CraftClient.Raft
