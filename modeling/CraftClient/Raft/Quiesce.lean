import CraftClient.Raft.Majority
import CraftClient.Router.RouteMap

/-! The barrier that a login puts up against the writes of the session before it. -/

namespace CraftClient.Raft

open Replica Runs Router

variable {ρ : Type} {n : ℕ}

def Establish.sampled : Establish ρ n → Option (EstablishCall n)
  | .running _ .start | .running _ .sample => none
  | .running c _ | .done c (.ok (.established _ _)) => some c
  | _ => none

def Establish.passed : Establish ρ n → Option (EstablishCall n)
  | .running c pc => if pc.resolving then some c else none
  | .done c (.ok (.established _ _)) => some c
  | _ => none

def Establish.polled : Establish ρ n → Option (EstablishCall n)
  | .running c .check => some c
  | _ => none

variable (ℓ : Fin n) (old : UInt64)

structure Enters (c : EstablishCall n) (g : Group ρ n) : Prop where
  login : (g.servers ℓ).login = .running c .start
  others : ∀ m ≠ ℓ, (g.servers m).login.isRunning = false
  unanswered : c.answered = []
  term : c.term ≠ old
  members : (g.servers ℓ).volume.Nodup ∧ ∀ m, m ∈ (g.servers ℓ).volume
  requests : ∀ k, g.requests k = none
  entries : ∀ m msg, .login msg ∈ g.entries m → msg.term ≠ old
  acks : ∀ m d, (old, d) ∈ g.acks m → d ≤ (g.servers m).mem.lastAppendLsn

/-- No other login comes in and no barrier falls back to the old term. The leader takes no write of the old term
once it has sampled; or, with `fence` unset, the peers that answered meet every quorum without it. -/
def Barred (fence : Bool) (g : Group ρ n) : GroupAct ρ n → Prop
  | .onLogin _ _ => False
  | .barrier m .callback => ∀ p ∈ (g.servers m).barrier.replica.watchdog.call,
      p.1.term = (g.servers m).term → p.1.currentTerm ≠ old
  | .write m hdr _ _ _ _ => fence = true → m = ℓ → hdr.term = old → (g.servers ℓ).login.sampled.isSome →
      (g.servers ℓ).term ≠ old
  | .go m _ => fence = false → m = ℓ → ∀ c ∈ (g.servers ℓ).login.polled, n < c.answered.length + quorum n
  | _ => True

structure Fenced (g : Group ρ n) (q : Fin n) (lsn : ℤ) : Prop where
  term : (g.servers q).term ≠ old
  acks : ∀ d, (old, d) ∈ g.acks q → d ≤ lsn

structure QuiesceInv (fence : Bool) (g : Group ρ n) : Prop where
  others : ∀ m ≠ ℓ, (g.servers m).login.isRunning = false
  members : (g.servers ℓ).volume.Nodup ∧ ∀ m, m ∈ (g.servers ℓ).volume
  poll : PollInv ℓ (g.servers ℓ).volume (g.servers ℓ).login
  term : ∀ c pc, (g.servers ℓ).login = .running c pc → c.term ≠ old
  requests : ∀ k q t, g.requests k = some (q, t) → t ≠ old
  entries : ∀ m msg, .login msg ∈ g.entries m → msg.term ≠ old
  acks : ∀ m d, (old, d) ∈ g.acks m → d ≤ (g.servers m).mem.lastAppendLsn
  asked : ∀ c k q rest ret, (g.servers ℓ).login = .running c (.asked k q rest) →
    ((g.servers q).barrier.probes k).ret? = some ret → Fenced old g q ret.lastAppendLsn
  answered : ∀ c, (g.servers ℓ).login.sampled = some c → ∀ q ∈ c.answered, ∃ ret ∈ c.resp,
    Fenced old g q ret.lastAppendLsn
  leader : fence = true → ∀ c, (g.servers ℓ).login.sampled = some c → ∃ ret ∈ c.resp,
    ∀ d, (old, d) ∈ g.acks ℓ → d ≤ ret.lastAppendLsn
  outvoted : fence = false → ∀ c, (g.servers ℓ).login.passed = some c → n < c.answered.length + quorum n
  watermark : ∀ c, (g.servers ℓ).login.passed = some c → c.rsCommitLsn = maxLastAppend c.resp
  result : ∀ c ms dlsn, (g.servers ℓ).login = .done c (.ok (.established ms dlsn)) → dlsn = c.rsCommitLsn

section Steps

variable {ℓ old} {fence : Bool} {g g' : Group ρ n} {a : GroupAct ρ n}

lemma le_maxLastAppend {resp : List LsnPair} {ret : LsnPair} (h : ret ∈ resp) :
    ret.lastAppendLsn ≤ maxLastAppend resp := by
  have hfold : ∀ (ps : List LsnPair) (x : ℤ), x ≤ ps.foldl (fun a q => max a q.lastAppendLsn) x ∧
      ∀ p ∈ ps, p.lastAppendLsn ≤ ps.foldl (fun a q => max a q.lastAppendLsn) x := by
    intro ps
    induction ps with
    | nil => exact fun x => ⟨le_rfl, fun p hp => by cases hp⟩
    | cons p ps ih =>
      intro x
      obtain ⟨hx, hps⟩ := ih (max x p.lastAppendLsn)
      refine ⟨(le_max_left _ _).trans hx, fun q hq => ?_⟩
      rcases List.mem_cons.mp hq with rfl | hq
      · exact (le_max_right _ _).trans hx
      · exact hps q hq
  cases resp with
  | nil => cases h
  | cons p ps =>
    rcases List.mem_cons.mp h with rfl | h
    · exact (hfold ps _).1
    · exact (hfold ps _).2 ret h

lemma sampled_of_resolving {c : EstablishCall n} {pc : EstablishPc ρ n} (h : pc.resolving) :
    (Establish.running c pc).sampled = some c := by
  cases pc <;> first | rfl | cases h

lemma sampled_of_moves {m : Fin n} {l l' : Establish ρ n} (hp : PollInv m (g.servers m).volume l)
    (hm : Moves g m l l') {c' : EstablishCall n} (hc : l'.sampled = some c') :
    (c'.resp = [(g.servers m).mem.peekLsns] ∧ c'.answered = []) ∨
    (∃ c, l.sampled = some c ∧ c'.resp = c.resp ∧ c'.answered = c.answered) ∨
    ∃ c k q rest ret, l = .running c (.asked k q rest) ∧ (g.servers q).barrier.probes k = .done ret ∧
      c'.resp = c.resp ++ [ret] ∧ c'.answered = c.answered ++ [q] := by
  cases hm with
  | begins | leads => cases hc
  | samples c =>
    cases hc
    exact .inl ⟨rfl, hp⟩
  | skips c | asks c | silent c | polled c | quorum c =>
    cases hc
    exact .inr (.inl ⟨_, rfl, rfl, rfl⟩)
  | answers c k q rest ret hk =>
    cases hc
    exact .inr (.inr ⟨c, k, q, rest, ret, rfl, hk, rfl, rfl⟩)
  | resolves c pc pc' hpc hpc' =>
    rw [sampled_of_resolving hpc'] at hc
    cases hc
    exact .inr (.inl ⟨_, sampled_of_resolving hpc, rfl, rfl⟩)
  | ends c pc res hres =>
    obtain ⟨e, rfl⟩ | ⟨hint, rfl⟩ | ⟨rfl, rfl⟩ := hres
    · cases hc
    · cases hc
    · cases hc
      exact .inr (.inl ⟨_, rfl, rfl, rfl⟩)

lemma passed_of_moves {m : Fin n} {l l' : Establish ρ n} (hm : Moves g m l l') {c' : EstablishCall n}
    (hc : l'.passed = some c') : l.passed = some c' ∨
      ∃ c, l = .running c .check ∧ c' = { c with rsCommitLsn := maxLastAppend c.resp } := by
  cases hm with
  | begins | leads | samples | skips | asks | answers | silent | polled => cases hc
  | quorum c hq =>
    cases hc
    exact .inr ⟨c, rfl, rfl⟩
  | resolves c pc pc' hpc hpc' =>
    rw [Establish.passed, if_pos hpc'] at hc
    rw [Establish.passed, if_pos hpc]
    exact .inl hc
  | ends c pc res hres =>
    obtain ⟨e, rfl⟩ | ⟨hint, rfl⟩ | ⟨rfl, rfl⟩ := hres
    · cases hc
    · cases hc
    · exact .inl hc

variable [DecidableEq ρ]

lemma go_of_check {m : Fin n} {c : EstablishCall n} (hl : (g.servers m).login = .running c .check)
    (ha : a.caller = some m) (hs : groupStep g a = some g') : ∃ leaderHint, a = .go m leaderHint := by
  cases a with
  | go q leaderHint =>
    cases ha
    exact ⟨leaderHint, rfl⟩
  | ask q _ | answer q | noAnswer q | fetch q _ | propose q _ | timeout q =>
    cases ha
    simp only [groupStep, hl] at hs
    cases hs
  | _ => cases ha

omit [DecidableEq ρ] in
lemma QuiesceInv.call_term (h : QuiesceInv ℓ old fence g) {m : Fin n} {c : EstablishCall n} {pc : EstablishPc ρ n}
    (hl : (g.servers m).login = .running c pc) : c.term ≠ old := by
  by_cases hm : m = ℓ
  · exact h.term c pc (hm ▸ hl)
  · have hrun := h.others m hm
    rw [hl] at hrun
    cases hrun

lemma QuiesceInv.term_ne (h : QuiesceInv ℓ old fence g) (hok : Barred ℓ old fence g a)
    (hs : groupStep g a = some g') {q : Fin n} (hq : (g.servers q).term ≠ old) : (g'.servers q).term ≠ old := by
  have ht := (replicaStep_of_groupStep q hs).term
  generalize (g'.servers q).term = t at ht ⊢
  cases ht with
  | same => exact hq
  | probe k t hk => exact h.requests k q t hk
  | login msg he =>
    refine h.entries q msg ?_
    rw [entries_eq_cons he]
    exact List.mem_cons_self
  | restore cb w hcall ht => exact hok (cb, w) hcall ht

lemma Fenced.step (h : QuiesceInv ℓ old fence g) (hok : Barred ℓ old fence g a) (hs : groupStep g a = some g')
    {q : Fin n} {lsn : ℤ} (hf : Fenced old g q lsn) : Fenced old g' q lsn := by
  refine ⟨h.term_ne hok hs hf.term, ?_⟩
  intro d hd
  rcases mem_acks_of_groupStep hs hd with hd | ⟨hdr, addr, len, bytes, -, -, ht, -⟩
  · exact hf.acks d hd
  · exact absurd ht hf.term

lemma QuiesceInv.login_moves (hok : Barred ℓ old fence g a) (hs : groupStep g a = some g') :
    (g'.servers ℓ).login = (g.servers ℓ).login ∨
      ∃ c pc, (g.servers ℓ).login = .running c pc ∧ a.caller = some ℓ ∧
        Moves g ℓ (.running c pc) (g'.servers ℓ).login := by
  by_cases hc : a.caller = some ℓ
  · obtain ⟨c, pc, v, hl, hv, he⟩ := own_of_groupStep hc hs
    refine .inr ⟨c, pc, hl, hc, ?_⟩
    rw [he]
    simp only [servers_setServer, if_pos]
    exact hv.login
  · refine .inl (turns_of_groupStep hs hc ?_).1.login
    rintro clientToken rfl
    exact hok

lemma QuiesceInv.others_step (h : QuiesceInv ℓ old fence g) (hok : Barred ℓ old fence g a)
    (hs : groupStep g a = some g') {m : Fin n} (hm : m ≠ ℓ) : (g'.servers m).login.isRunning = false := by
  by_cases hc : a.caller = some m
  · obtain ⟨c, pc, v, hl, -⟩ := own_of_groupStep hc hs
    have hr := h.others m hm
    rw [hl] at hr
    cases hr
  · rw [(turns_of_groupStep hs hc (by rintro clientToken rfl; exact hok)).1.login]
    exact h.others m hm

lemma QuiesceInv.requests_step (h : QuiesceInv ℓ old fence g) (hs : groupStep g a = some g') {k : ρ} {q : Fin n}
    {t : UInt64} (hk : g'.requests k = some (q, t)) : t ≠ old := by
  cases wires_of_groupStep hs with
  | ask m k' c p rest hl hidle hr =>
    rw [hr, Function.update_apply] at hk
    split_ifs at hk
    · cases hk
      exact h.call_term hl
    · exact h.requests k q t hk
  | serve k' hr =>
    rw [hr, Function.update_apply] at hk
    split_ifs at hk
    exact h.requests k q t hk
  | same _ hr | proposeSync _ _ _ _ hr | proposeLogin _ _ _ hr | commit _ hr | lose _ hr =>
    rw [hr] at hk
    exact h.requests k q t hk

lemma QuiesceInv.entries_step (h : QuiesceInv ℓ old fence g) (hs : groupStep g a = some g') {m : Fin n}
    {msg : InternalLoginMsg} (hmem : .login msg ∈ g'.entries m) : msg.term ≠ old := by
  rcases entries_of_groupStep m hs with hsub | ⟨e, hp, he⟩
  · exact h.entries m msg (hsub.subset hmem)
  · rw [he] at hmem
    rcases List.mem_append.mp hmem with hmem | hmem
    · exact h.entries m msg hmem
    · obtain rfl := List.mem_singleton.mp hmem
      cases hp with
      | login q c hl => exact h.call_term hl

lemma QuiesceInv.asked_step (h : QuiesceInv ℓ old fence g) (hok : Barred ℓ old fence g a)
    (hs : groupStep g a = some g') {c : EstablishCall n} {k : ρ} {q : Fin n} {rest : List (Fin n)} {ret : LsnPair}
    (hl : (g'.servers ℓ).login = .running c (.asked k q rest))
    (hret : ((g'.servers q).barrier.probes k).ret? = some ret) : Fenced old g' q ret.lastAppendLsn := by
  rcases (replicaStep_of_groupStep q hs).ret k ret hret with hold | ⟨t, rfl, hk, ht, rfl⟩
  · obtain he | ⟨c₀, pc, -, -, hm⟩ := login_moves hok hs
    · exact Fenced.step h hok hs (h.asked c k q rest ret (he ▸ hl) hold)
    · -- a peer that is asked just now has not read anything yet
      rw [hl] at hm
      cases hm with
      | asks _ _ _ _ _ _ hidle =>
        rw [hidle] at hold
        cases hold
      | resolves _ _ _ _ hpc => cases hpc
  · refine ⟨ht ▸ h.requests k q t hk, ?_⟩
    intro d hd
    rcases mem_acks_of_groupStep hs hd with hd | ⟨_, _, _, _, ha, -⟩
    · exact h.acks q d hd
    · cases ha

lemma QuiesceInv.answered_step (h : QuiesceInv ℓ old fence g) (hok : Barred ℓ old fence g a)
    (hs : groupStep g a = some g') {c : EstablishCall n} (hc : (g'.servers ℓ).login.sampled = some c) {q : Fin n}
    (hq : q ∈ c.answered) : ∃ ret ∈ c.resp, Fenced old g' q ret.lastAppendLsn := by
  have hkeep : ∀ c₀, (g.servers ℓ).login.sampled = some c₀ → q ∈ c₀.answered →
      ∃ ret ∈ c₀.resp, Fenced old g' q ret.lastAppendLsn := by
    intro c₀ hc₀ hq
    obtain ⟨ret, hret, hf⟩ := h.answered c₀ hc₀ q hq
    exact ⟨ret, hret, hf.step h hok hs⟩
  obtain he | ⟨c₀, pc, hl, -, hm⟩ := login_moves hok hs
  · exact hkeep c (he ▸ hc) hq
  · obtain ⟨-, ha⟩ | ⟨c₁, hc₁, hr, ha⟩ | ⟨c₁, k, p, rest, ret, he, hk, hr, ha⟩ :=
      sampled_of_moves (hl ▸ h.poll) hm hc
    · rw [ha] at hq
      cases hq
    · rw [ha] at hq
      rw [hr]
      exact hkeep c₁ (hl ▸ hc₁) hq
    · rw [ha] at hq
      rw [hr]
      rcases List.mem_append.mp hq with hq | hq
      · obtain ⟨ret', hret', hf⟩ := hkeep c₁ (by rw [hl, he]; rfl) hq
        exact ⟨ret', List.mem_append_left _ hret', hf⟩
      · obtain rfl := List.mem_singleton.mp hq
        have hf := h.asked c₁ k q rest ret (hl.trans he) (by rw [hk]; rfl)
        exact ⟨ret, List.mem_append_right _ (List.mem_singleton.mpr rfl), hf.step h hok hs⟩

lemma QuiesceInv.leader_step (h : QuiesceInv ℓ old fence g) (hok : Barred ℓ old fence g a)
    (hs : groupStep g a = some g') (hfence : fence = true) {c : EstablishCall n}
    (hc : (g'.servers ℓ).login.sampled = some c) :
    ∃ ret ∈ c.resp, ∀ d, (old, d) ∈ g'.acks ℓ → d ≤ ret.lastAppendLsn := by
  have hacks : (∃ c₀, (g.servers ℓ).login.sampled = some c₀) ∨ a.caller = some ℓ →
      ∀ d, (old, d) ∈ g'.acks ℓ → (old, d) ∈ g.acks ℓ := by
    intro hsampled d hd
    rcases mem_acks_of_groupStep hs hd with hd | ⟨hdr, addr, len, bytes, rfl, ht, hold, -⟩
    · exact hd
    · obtain ⟨c₀, hc₀⟩ | ha := hsampled
      · exact absurd hold (hok hfence rfl ht (by rw [hc₀]; rfl))
      · cases ha
  obtain he | ⟨c₀, pc, hl, ha, hm⟩ := login_moves hok hs
  · rw [he] at hc
    obtain ⟨ret, hret, hle⟩ := h.leader hfence c hc
    exact ⟨ret, hret, fun d hd => hle d (hacks (.inl ⟨c, hc⟩) d hd)⟩
  · obtain ⟨hr, -⟩ | ⟨c₁, hc₁, hr, -⟩ | ⟨c₁, k, p, rest, ret, he, hk, hr, -⟩ :=
      sampled_of_moves (hl ▸ h.poll) hm hc
    · rw [hr]
      exact ⟨_, List.mem_singleton.mpr rfl, fun d hd => h.acks ℓ d (hacks (.inr ha) d hd)⟩
    · rw [hr]
      obtain ⟨ret, hret, hle⟩ := h.leader hfence c₁ (hl ▸ hc₁)
      exact ⟨ret, hret, fun d hd => hle d (hacks (.inr ha) d hd)⟩
    · rw [hr]
      obtain ⟨ret', hret', hle⟩ := h.leader hfence c₁ (by rw [hl, he]; rfl)
      exact ⟨ret', List.mem_append_left _ hret', fun d hd => hle d (hacks (.inr ha) d hd)⟩

lemma QuiesceInv.passed_step (h : QuiesceInv ℓ old fence g) (hok : Barred ℓ old fence g a)
    (hs : groupStep g a = some g') {c : EstablishCall n} (hc : (g'.servers ℓ).login.passed = some c) :
    (fence = false → n < c.answered.length + quorum n) ∧ c.rsCommitLsn = maxLastAppend c.resp := by
  obtain he | ⟨c₀, pc, hl, ha, hm⟩ := login_moves hok hs
  · rw [he] at hc
    exact ⟨fun hfence => h.outvoted hfence c hc, h.watermark c hc⟩
  · rcases passed_of_moves hm hc with hc | ⟨c₁, he, rfl⟩
    · rw [← hl] at hc
      exact ⟨fun hfence => h.outvoted hfence c hc, h.watermark c hc⟩
    · cases he
      obtain ⟨leaderHint, rfl⟩ := go_of_check hl ha hs
      exact ⟨fun hfence => hok hfence rfl c₀ (by rw [hl]; rfl), rfl⟩

lemma QuiesceInv.step (h : QuiesceInv ℓ old fence g) (hok : Barred ℓ old fence g a)
    (hs : groupStep g a = some g') : QuiesceInv ℓ old fence g' where
  others _ hm := h.others_step hok hs hm
  members := login_invariant (P := fun volume _ => volume.Nodup ∧ ∀ m, m ∈ volume) (fun _ _ h _ => h) h.members hs
  poll := h.poll.step hs
  term c pc hl := by
    obtain he | ⟨c₀, pc₀, hl₀, -, hm⟩ := login_moves hok hs
    · exact h.term c pc (he ▸ hl)
    · have ht := h.term c₀ pc₀ hl₀
      rw [hl] at hm
      cases hm with
      | begins _ _ hr => cases hr
      | _ => exact ht
  requests _ _ _ hk := h.requests_step hs hk
  entries _ _ hmem := h.entries_step hs hmem
  acks m d hd := by
    rcases mem_acks_of_groupStep hs hd with hd | ⟨_, _, _, _, -, -, -, hle⟩
    · exact (h.acks m d hd).trans (replicaStep_of_groupStep m hs).lastAppend
    · exact hle
  asked _ _ _ _ _ hl hret := h.asked_step hok hs hl hret
  answered _ hc _ hq := h.answered_step hok hs hc hq
  leader hfence _ hc := h.leader_step hok hs hfence hc
  outvoted hfence _ hc := (h.passed_step hok hs hc).1 hfence
  watermark _ hc := (h.passed_step hok hs hc).2
  result c ms dlsn hl := by
    obtain he | ⟨c₀, pc₀, -, -, hm⟩ := login_moves hok hs
    · exact h.result c ms dlsn (he ▸ hl)
    · rw [hl] at hm
      cases hm with
      | ends _ _ _ hres =>
        obtain ⟨e, he⟩ | ⟨hint, he⟩ | ⟨-, he⟩ := hres
        · cases he
        · cases he
        · cases he
          rfl

omit [DecidableEq ρ] in
lemma quiesceInv_of_enters {c : EstablishCall n} (h : Enters ℓ old c g) : QuiesceInv ℓ old fence g where
  others := h.others
  members := h.members
  poll := by
    rw [h.login]
    exact h.unanswered
  term c' pc hl := by
    cases h.login.symm.trans hl
    exact h.term
  requests k q t hk := by
    rw [h.requests] at hk
    cases hk
  entries := h.entries
  acks := h.acks
  asked c' k q rest ret hl := by cases h.login.symm.trans hl
  answered c' hc := by simp [h.login, Establish.sampled] at hc
  leader _ c' hc := by simp [h.login, Establish.sampled] at hc
  outvoted _ c' hc := by simp [h.login, Establish.passed, EstablishPc.resolving] at hc
  watermark c' hc := by simp [h.login, Establish.passed, EstablishPc.resolving] at hc
  result c' ms dlsn hl := by cases h.login.symm.trans hl

end Steps

def ackers (g : Group ρ n) (d : ℤ) : Finset (Fin n) := {m | (old, d) ∈ g.acks m}

section Counting

variable {ℓ old} {fence : Bool} {g : Group ρ n} {c : EstablishCall n} {ms : List (Fin n)} {dlsn d : ℤ}

lemma QuiesceInv.exists_heard (h : QuiesceInv ℓ old fence g)
    (hl : (g.servers ℓ).login = .done c (.ok (.established ms dlsn))) {K : Finset (Fin n)}
    (hK : quorum n ≤ K.card) : ∃ q ∈ K, q ∈ c.answered ∨ (fence = true ∧ q = ℓ) := by
  have hp := h.poll
  rw [hl] at hp
  obtain ⟨hp, hmajority⟩ : Polled ℓ (g.servers ℓ).volume c [] ∧ (g.servers ℓ).volume.length / 2 < c.resp.length := hp
  have hvol : (g.servers ℓ).volume.length = n := by
    rw [← List.toFinset_card_of_nodup h.members.1, Finset.eq_univ_iff_forall.mpr fun m =>
      List.mem_toFinset.mpr (h.members.2 m), Finset.card_univ, Fintype.card_fin]
  have hsub : c.answered.Sublist (g.servers ℓ).volume := by simpa using hp.sublist
  have hcard : c.answered.toFinset.card = c.answered.length :=
    List.toFinset_card_of_nodup (h.members.1.sublist hsub)
  have hmeet : ∀ A : Finset (Fin n), n < A.card + quorum n → ∃ q ∈ K, q ∈ A := by
    intro A hA
    obtain ⟨q, hq⟩ := Finset.inter_nonempty_of_card_lt_card_add_card (Finset.subset_univ K) (Finset.subset_univ A)
      (by rw [Finset.card_univ, Fintype.card_fin]; omega)
    exact ⟨q, Finset.mem_inter.mp hq⟩
  cases hf : fence with
  | true =>
    obtain ⟨q, hq, hqA⟩ := hmeet (insert ℓ c.answered.toFinset) (by
      rw [Finset.card_insert_of_notMem (by simpa using hp.self), hcard]
      have hr := hp.resp
      rw [hvol] at hmajority
      rw [quorum]
      omega)
    rcases Finset.mem_insert.mp hqA with rfl | hqA
    · exact ⟨q, hq, .inr ⟨rfl, rfl⟩⟩
    · exact ⟨q, hq, .inl (List.mem_toFinset.mp hqA)⟩
  | false =>
    obtain ⟨q, hq, hqA⟩ := hmeet c.answered.toFinset (by
      rw [hcard]
      exact h.outvoted hf c (by rw [hl]; rfl))
    exact ⟨q, hq, .inl (List.mem_toFinset.mp hqA)⟩

theorem login_bounds_acked_writes [DecidableEq ρ] {c₀ : EstablishCall n} {g₀ : Group ρ n}
    (h₀ : Enters ℓ old c₀ g₀) (h : Reach groupStep (Barred ℓ old fence) g₀ g)
    (hl : (g.servers ℓ).login = .done c (.ok (.established ms dlsn)))
    (hd : quorum n ≤ (ackers old g d).card) : d ≤ dlsn := by
  have hinv : QuiesceInv ℓ old fence g :=
    h.invariant (quiesceInv_of_enters h₀) fun _ _ _ hg hok hs => hg.step hok hs
  obtain ⟨q, hq, hheard⟩ := hinv.exists_heard hl hd
  have hack : (old, d) ∈ g.acks q := (Finset.mem_filter.mp hq).2
  have hc : (g.servers ℓ).login.sampled = some c := by
    rw [hl]
    rfl
  have hle : d ≤ maxLastAppend c.resp := by
    obtain hq | ⟨hf, rfl⟩ := hheard
    · obtain ⟨ret, hret, hfenced⟩ := hinv.answered c hc q hq
      exact (hfenced.acks d hack).trans (le_maxLastAppend hret)
    · obtain ⟨ret, hret, hlead⟩ := hinv.leader hf c hc
      exact (hlead d hack).trans (le_maxLastAppend hret)
  rw [hinv.result c ms dlsn hl, hinv.watermark c (by rw [hl]; rfl)]
  exact hle

end Counting

section Runs

instance (fence : Bool) (g : Group ρ n) (a : GroupAct ρ n) : Decidable (Barred ℓ old fence g a) :=
  match a with
  | .onLogin _ _ => .isFalse id
  | .barrier _ .callback => inferInstanceAs (Decidable (∀ p ∈ (_ : Option (Restore × Watchdog Restore)), _ → _ ≠ _))
  | .write _ _ _ _ _ _ => inferInstanceAs (Decidable (_ → _ → _ → _ → _ ≠ _))
  | .go _ _ => inferInstanceAs (Decidable (_ → _ → ∀ c ∈ (_ : Option (EstablishCall n)), _ < _))
  | .lead _ _ | .ask _ _ | .answer _ | .noAnswer _ | .fetch _ _ | .propose _ _ | .timeout _ | .serve _
  | .barrier _ (.probe _ _ _) | .barrier _ (.arm _) | .barrier _ (.record _) | .barrier _ (.tick _)
  | .barrier _ (.expire _) | .barrier _ .relock | .barrier _ (.internalLogin _)
  | .commit | .lose | .apply _ | .work _ _ => .isTrue trivial

def nextLogin : Group (Fin 2) 3 where
  servers q :=
    let v : Server (Fin 2) 3 := .start ((MemReplica.new 4096).coldApplyLogin 7 1) [0, 1, 2] 1
    if q = 0 then { v.beginLogin 9 with isLeader := true } else v
  requests _ := none
  pending := []
  log := []
  acks _ := []
  returned := []

lemma enters_nextLogin : Enters 0 1 { clientToken := 9, term := 2 } nextLogin where
  login := rfl
  others m hm := by
    rw [nextLogin]
    simp only [if_neg hm]
    rfl
  unanswered := rfl
  term := by decide
  members := by decide
  requests _ := rfl
  entries _ _ hmem := by simp [Group.entries, nextLogin] at hmem
  acks _ _ hd := by cases hd

def oldWrite (m : Fin 3) : GroupAct (Fin 2) 3 := .write m ⟨1, -1, -1, 7⟩ 0 0 4096 none

def polls : List (GroupAct (Fin 2) 3) :=
  List.flatten [List.replicate 3 (.go 0 none), [.ask 0 0, .serve 0, .barrier 1 (.arm 0), .barrier 1 (.record 0),
    .answer 0, .ask 0 1, .noAnswer 0, .go 0 none]]

def concludes : List (GroupAct (Fin 2) 3) :=
  List.flatten [List.replicate 2 (.go 0 none),
    [.propose 0 none, .go 0 none, .propose 0 none, .commit, .commit, .apply 0],
    List.replicate 5 (.work 0 false), [.apply 0, .go 0 none]]

def returns (dlsn : ℤ) (g : Group (Fin 2) 3) : Bool :=
  (match (g.servers 0).login with
    | .done _ (.ok (.established ms e)) => ms = [0, 1, 2] && e = dlsn
    | _ => false) && decide (quorum 3 ≤ (ackers 1 g 0).card)

lemma exists_returns {ok : Group (Fin 2) 3 → GroupAct (Fin 2) 3 → Prop} {dlsn : ℤ}
    (h : ∃ g, Reach groupStep ok nextLogin g ∧ returns dlsn g = true) :
    ∃ g c, Reach groupStep ok nextLogin g ∧ (g.servers 0).login = .done c (.ok (.established [0, 1, 2] dlsn)) ∧
      quorum 3 ≤ (ackers 1 g 0).card := by
  obtain ⟨g, hg, hr⟩ := h
  obtain ⟨hl, hq⟩ := Bool.and_eq_true_iff.mp hr
  split at hl
  · rename_i c ms e he
    obtain ⟨hms, hd⟩ := Bool.and_eq_true_iff.mp hl
    rw [of_decide_eq_true hms, of_decide_eq_true hd] at he
    exact ⟨g, c, hg, he, of_decide_eq_true hq⟩
  · cases hl

theorem login_bounds_writeBefore :
    ∃ g c dlsn, Reach groupStep (Barred 0 1 true) nextLogin g ∧
      (g.servers 0).login = .done c (.ok (.established [0, 1, 2] dlsn)) ∧
      quorum 3 ≤ (ackers 1 g 0).card ∧ 0 ≤ dlsn := by
  obtain ⟨g, c, hg, hl, hq⟩ := exists_returns (Reach.exists_of_exec groupStep (Barred 0 1 true) nextLogin
    ([oldWrite 0, oldWrite 2] ++ polls ++ concludes) (returns 0) (by decide +kernel))
  exact ⟨g, c, 0, hg, hl, hq, login_bounds_acked_writes enters_nextLogin hg hl hq⟩

theorem acked_write_above_login :
    Enters 0 1 { clientToken := 9, term := 2 } nextLogin ∧
    ∃ g c, Reach groupStep free nextLogin g ∧ (g.servers 0).login = .done c (.ok (.established [0, 1, 2] (-1))) ∧
      quorum 3 ≤ (ackers 1 g 0).card := by
  refine ⟨enters_nextLogin, ?_⟩
  exact exists_returns (Reach.exists_of_exec groupStep free nextLogin
    (polls ++ [oldWrite 0, oldWrite 2] ++ concludes) (returns (-1)) (by decide +kernel))

end Runs

end CraftClient.Raft
