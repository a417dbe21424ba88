import CraftClient.Client.SessionSteps
import CraftClient.Cluster.Replies
import CraftClient.Replica.Index

namespace CraftClient.Client

open Replica Router Cluster Tracker Runs

variable {ι κ ρ : Type} {n : ℕ} {d : ℤ}

def MarksUnapplied (members : Fin n → MemReplica) : RoundPc n → Prop
  | .mark d (m :: _) _ => ∀ s, (members m).journal.find d = some s → s.isEmpty = false →
    (members m).commitLsn < d
  | _ => True

lemma roundStep_operates {members : Fin n → MemReplica} {c : RoundCall n} {pc : RoundPc n}
    (hok : MarksUnapplied members pc) (q : Fin n) :
    Operates (members q) ((roundStep members c pc).1 q) := by
  have hupd : ∀ m r, Operates (members m) r → Operates (members q) (Function.update members m r q) := by
    intro m r hr
    rw [Function.update_apply]
    split_ifs with hq
    · rwa [hq]
    · exact .idle
  cases pc with
  | scan d rest copy => cases rest <;> cases copy <;> exact .idle
  | floor rest | fill d rest => cases rest <;> exact .idle
  | mark d rest =>
    cases rest with
    | nil => exact .idle
    | cons m rest => exact hupd m _ (.mark d hok)
  | install d rest copy =>
    cases rest with
    | nil => exact .idle
    | cons m rest => exact hupd m _ (.install d copy)
  | sync rest =>
    cases rest with
    | nil => exact .idle
    | cons m rest => exact hupd m _ (.apply _)
  | reply => exact .idle

def Clean (E : Finset ℤ) (blocks : List Block) : Prop := ∀ b ∈ blocks, ∀ d ∈ E, b.src ≠ some d

def CleanPc (E : Finset ℤ) : ReadPc n → Prop
  | .await _ replies => ∀ res, some (.ok res) ∈ replies → Clean E res.blocks
  | .sync _ results => ∀ res ∈ results, Clean E res.blocks
  | .done (.ok blocks) => Clean E blocks
  | _ => True

lemma CleanPc.returned {E : Finset ℤ} {pc : ReadPc n} {blocks : List Block} (h : CleanPc E pc)
    (hr : pc.returned = some blocks) : Clean E blocks := by
  cases pc with
  | done res =>
    cases res with
    | ok => exact Option.some.inj hr ▸ h
    | error => cases hr
  | _ => cases hr

variable [NeZero n] {s s' : Session ι κ ρ n} {E : Finset ℤ}

lemma CleanPc.readStep {r : PlanRead} {start : Fin n} {pc pc' : ReadPc n} {route : RouteMap n}
    (h : CleanPc E pc) (hs : readStep s r start pc = some (route, pc')) : CleanPc E pc' := by
  cases pc with
  | plan =>
    simp only [Client.readStep] at hs
    split_ifs at hs
    cases hs
    split <;> trivial
  | makeHdr | frontier | fold =>
    cases hs
    trivial
  | test a =>
    simp only [Client.readStep] at hs
    split_ifs at hs <;> cases hs
    · trivial
    · intro res hres
      obtain ⟨-, -, hres⟩ := List.mem_map.mp hres
      cases hres
    · trivial
  | await a replies =>
    simp only [Client.readStep] at hs
    split at hs
    · cases hs
    · rename_i hc
      cases hs
      intro res hres
      refine h res ?_
      rw [collect_ok hc]
      exact List.mem_map.mpr ⟨res, hres, rfl⟩
    · split_ifs at hs <;> cases hs <;> trivial
  | sync idx results =>
    cases hs
    intro b hb
    obtain ⟨res, hres, hb⟩ := List.mem_flatMap.mp hb
    exact h res hres b hb
  | done => cases hs

structure VoidInv (s : Session ι κ ρ n) : Prop where
  backed : ∀ m, Backed (s.net.members m)
  emptied : ∀ d ∈ s.emptied, ∀ m, HoldsEmpty (s.net.members m) d
  started : ∀ k c, s.reads k = some c → c.startEmptied ⊆ s.emptied
  clean : ∀ k c, s.reads k = some c → CleanPc c.startEmptied c.pc

/-- When a round replies, every member holds each verdict that it lists; and no verdict overwrites a slot
that its member has applied. -/
def SessAct.VoidsAll (s : Session ι κ ρ n) : SessAct ι κ ρ n → Prop
  | .round j =>
    match s.net.rounds j with
    | .running c .reply => ∀ d ∈ (s.net.members c.caller).peekEmpties c.upto,
      ∀ m, HoldsEmpty (s.net.members m) d
    | .running _ pc => MarksUnapplied s.net.members pc
    | _ => True
  | _ => True

omit [NeZero n] in
lemma VoidInv.operates (h : VoidInv s) (hm : ∀ m, Operates (s.net.members m) (s'.net.members m))
    (he : s'.emptied = s.emptied) (hr : s'.reads = s.reads) : VoidInv s' := by
  refine ⟨fun m => (h.backed m).operates (hm m), fun d hd m => ?_, ?_, ?_⟩
  · rw [he] at hd
    exact (h.emptied d hd m).operates (hm m)
  · rw [hr, he]
    exact h.started
  · rw [hr]
    exact h.clean

omit [NeZero n] in
lemma VoidInv.setRead [DecidableEq κ] {k : κ} {c : ClientRead n} {pc : ReadPc n} (h : VoidInv s)
    (hk : s.reads k = some c) (hpc : CleanPc c.startEmptied pc) : VoidInv (s.setRead k c pc) := by
  refine ⟨h.backed, h.emptied, fun k' c' hc' => ?_, fun k' c' hc' => ?_⟩
  all_goals
    simp only [Session.setRead, Function.update_apply] at hc'
    split_ifs at hc' with hkk
  · cases hc'
    exact h.started k c hk
  · exact h.started k' c' hc'
  · cases hc'
    exact hpc
  · exact h.clean k' c' hc'

omit [NeZero n] in
lemma VoidInv.of_frame (h : VoidInv s) (hm : s'.net.members = s.net.members)
    (he : s'.emptied = s.emptied) (hr : s'.reads = s.reads) : VoidInv s' := by
  apply h.operates _ he hr
  intro m
  rw [hm]
  exact .idle

omit [NeZero n] in
lemma operates_setMember {net : MemTransport ρ n} {m : Fin n} {r : MemReplica}
    (h : Operates (net.members m) r) (q : Fin n) :
    Operates (net.members q) ((net.setMember m r).members q) := by
  simp only [MemTransport.setMember, Function.update_apply]
  split_ifs with hq
  · rwa [hq]
  · exact .idle

omit [NeZero n] in
lemma VoidInv.deliver (h : VoidInv s) {w : WriteCall n} {m : Fin n} : VoidInv (s.deliver d w m) := by
  simp only [Session.deliver]
  split
  case h_1 hw => exact h.operates (operates_setMember (.write hw)) rfl rfl
  case h_2 => exact h.of_frame rfl rfl rfl

omit [NeZero n] in
lemma CleanPc.reply {a : Attempt n} {replies : List ReadReply} {j : ℕ} {x : Except ErrorCond ReadResult}
    (h : CleanPc E (.await a replies)) (hx : ∀ res, x = .ok res → Clean E res.blocks) :
    CleanPc E (.await a (replies.set j (some x))) := by
  intro res hres
  rcases List.mem_or_eq_of_mem_set hres with hres | hres
  · exact h res hres
  · exact hx res (Option.some.inj hres).symm

section Steps

variable [DecidableEq ι] [Fintype ι] [DecidableEq κ] [Fintype κ] [DecidableEq ρ] {k : κ} {j : ℕ}

lemma VoidInv.round {j : ρ} (h : VoidInv s) (hok : (SessAct.round j).VoidsAll s)
    (hs : sessStep s (.round j) = some s') : VoidInv s' := by
  obtain ⟨net, hgo, rfl⟩ := Option.map_eq_some_iff.mp hs
  cases hj : s.net.rounds j with
  | idle | done => simp [MemTransport.goRound, hj] at hgo
  | running c pc =>
    simp only [MemTransport.goRound, hj, Option.some.injEq] at hgo
    simp only [SessAct.VoidsAll, hj] at hok
    subst hgo
    have hmark : MarksUnapplied s.net.members pc := by
      cases pc with
      | mark => exact hok
      | _ => trivial
    have hm : ∀ m, Operates (s.net.members m) ((roundStep s.net.members c pc).1 m) :=
      roundStep_operates hmark
    refine ⟨fun m => (h.backed m).operates (hm m), fun d hd m => ?_,
      fun k cr hk => (h.started k cr hk).trans Finset.subset_union_left, h.clean⟩
    rcases Finset.mem_union.mp hd with hd | hd
    · exact (h.emptied d hd m).operates (hm m)
    · have hd := List.mem_toFinset.mp hd
      simp only [Function.update_self] at hd
      split at hd
      case h_1 => cases hd
      case h_2 res hn =>
        obtain ⟨rfl, -, rfl⟩ := roundStep_reply (Prod.ext rfl hn)
        exact (hok d hd m).operates (hm m)

lemma VoidInv.startRead {addr len : UInt64} (h : VoidInv s)
    (hs : sessStep s (.startRead k addr len) = some s') : VoidInv s' := by
  obtain ⟨-, -, plan, -, rfl⟩ := sessStep_startRead hs
  refine ⟨h.backed, h.emptied, fun k' c' hc' => ?_, fun k' c' hc' => ?_⟩
  all_goals
    simp only [Function.update_apply] at hc'
    split_ifs at hc' with hkk
  · cases hc'
    exact subset_rfl
  · exact h.started k' c' hc'
  · cases hc'
    trivial
  · exact h.clean k' c' hc'

lemma VoidInv.serve (h : VoidInv s) (hs : sessStep s (.serve k j) = some s') : VoidInv s' := by
  obtain ⟨c, r, a, replies, seg, hc, -, hpc, -, -, hs⟩ := sessStep_serve hs
  have hclean := h.clean k c hc
  rw [hpc] at hclean
  rcases hs with ⟨res, q, hr, rfl⟩ | ⟨e, rfl⟩
  · have ho : Operates (s.net.members a.target) q := by
      obtain ⟨-, -, rfl, -⟩ := MemReplica.doRead_ok hr
      exact .apply _
    have h' : VoidInv (s.setMember a.target q) := h.operates (operates_setMember ho) rfl rfl
    apply h'.setRead hc
    apply hclean.reply
    rintro res' ⟨⟩ b hb d hd
    exact (h.emptied d (h.started k c hc hd) a.target).doRead (h.backed _) hr b hb
  · exact h.setRead hc (hclean.reply (by rintro _ ⟨⟩))

lemma VoidInv.step {a : SessAct ι κ ρ n} (h : VoidInv s) (hok : a.VoidsAll s)
    (hs : sessStep s a = some s') : VoidInv s' := by
  cases a with
  | reserve i addr len =>
    simp only [sessStep] at hs
    split_ifs at hs
    obtain ⟨plan, -, rfl⟩ := Session.tracks_some hs
    exact h.of_frame rfl rfl rfl
  | go i weak =>
    obtain ⟨s₁, ht, rfl⟩ := Option.map_eq_some_iff.mp hs
    obtain ⟨plan, -, rfl⟩ := Session.tracks_some ht
    exact h.of_frame rfl rfl rfl
  | create d =>
    obtain ⟨-, -, sl, -, rfl⟩ := sessStep_create hs
    exact h.of_frame rfl rfl rfl
  | issue d bytes =>
    obtain ⟨-, sl, -, rfl⟩ := sessStep_issue hs
    exact h.of_frame rfl rfl rfl
  | leg d m a =>
    obtain ⟨w, leg, -, -, rfl⟩ := sessStep_leg hs
    exact h.of_frame rfl rfl rfl
  | deliver d m =>
    obtain ⟨w, -, -, rfl⟩ := sessStep_deliver hs
    exact h.deliver
  | record d m =>
    obtain ⟨w, res, -, -, -, rfl⟩ := sessStep_record hs
    exact h.of_frame rfl rfl rfl
  | sync d m =>
    obtain ⟨w, l, -, -, -, rfl⟩ := sessStep_sync hs
    exact h.of_frame rfl rfl rfl
  | resolve i d =>
    obtain ⟨w, oc, plan, -, -, -, -, rfl⟩ := sessStep_resolve hs
    exact h.of_frame rfl rfl rfl
  | fold F | report m C =>
    simp only [sessStep] at hs
    split_ifs at hs
    cases hs
    exact h.of_frame rfl rfl rfl
  | keepAlive m C =>
    rcases sessStep_keepAlive hs with rfl | ⟨-, l, r, hk, rfl⟩
    · exact h
    · obtain ⟨-, rfl, -⟩ := MemReplica.doKeepAlive_ok hk
      exact h.operates (operates_setMember (.apply _)) rfl rfl
  | setUp m up | setLeader m =>
    cases hs
    exact h.of_frame rfl rfl rfl
  | request j m upto | drop j =>
    simp only [sessStep] at hs
    split at hs <;> cases hs
    exact h.of_frame rfl rfl rfl
  | round j => exact h.round hok hs
  | retire i j =>
    simp only [sessStep] at hs
    split at hs
    case h_1 =>
      obtain ⟨s₁, ht, rfl⟩ := Option.map_eq_some_iff.mp hs
      obtain ⟨plan, -, rfl⟩ := Session.tracks_some ht
      exact h.of_frame rfl rfl rfl
    case h_2 => cases hs
  | startRead k addr len => exact h.startRead hs
  | planRead k =>
    obtain ⟨plan, -, rfl⟩ := Session.tracks_some hs
    exact h.of_frame rfl rfl rfl
  | read k start =>
    obtain ⟨c, r, route, pc, hc, -, hr, rfl⟩ := sessStep_read hs
    exact (h.setRead hc ((h.clean k c hc).readStep hr)).of_frame rfl rfl rfl
  | serve k j => exact h.serve hs
  | fail k j timedOut =>
    obtain ⟨c, a, replies, e, hc, hpc, rfl⟩ := sessStep_fail hs
    have hclean := h.clean k c hc
    rw [hpc] at hclean
    exact h.setRead hc (hclean.reply (by rintro _ ⟨⟩))

theorem voided_write_hidden {maxInflight lbaSize : UInt32} {L : ℤ} {net : MemTransport ρ n}
    {clientToken : UInt64} (hb : ∀ m, Backed (net.members m))
    (h : Reach sessStep (fun s a => a.VoidsAll s) (.login maxInflight L lbaSize net clientToken) s)
    {c : ClientRead n} {blocks : List Block} (hk : s.reads k = some c)
    (hr : c.pc.returned = some blocks) (hd : d ∈ c.startEmptied) : ∀ b ∈ blocks, b.src ≠ some d := by
  have hi : VoidInv s := h.invariant (P := VoidInv) ⟨hb, nofun, nofun, nofun⟩
    fun _ _ _ hi hok hs => hi.step hok hs
  exact fun b hmem => (hi.clean k c hk).returned hr b hmem d hd

end Steps

section Runs

instance (r : MemReplica) (d : ℤ) : Decidable (HoldsEmpty r d) :=
  decidable_of_iff _ (Option.any_eq_true MemJournalSlot.isEmpty (r.journal.find d))

instance (members : Fin n → MemReplica) (pc : RoundPc n) : Decidable (MarksUnapplied members pc) := by
  unfold MarksUnapplied
  split
  · rename_i d m rest v
    exact decidable_of_iff (((members m).journal.find d).all fun s =>
      s.isEmpty || decide ((members m).commitLsn < d)) (by
        cases (members m).journal.find d <;> simp [or_iff_not_imp_left])
  · infer_instance

instance (s : Session ι κ ρ n) (a : SessAct ι κ ρ n) : Decidable (a.VoidsAll s) := by
  unfold SessAct.VoidsAll
  split
  · split <;> infer_instance
  · infer_instance

abbrev Trio := Session (Fin 1) (Fin 1) Unit 3
abbrev TrioAct := SessAct (Fin 1) (Fin 1) Unit 3

def trio : Trio := .login 4 (-1) 1 (.firstLogin 1 7) 7

lemma backed_trio (m : Fin 3) : Backed (trio.net.members m) := nofun

def writeByte (d : ℤ) (b : UInt8) (acking lost down : List (Fin 3)) : List TrioAct :=
  ([.reserve 0 0 1, .go 0 false, .create d, .issue d (some [b])] : List TrioAct) ++
    (down.flatMap fun m => ([.leg d m .memDown, .record d m] : List TrioAct)) ++
    (lost.flatMap fun m => ([.leg d m .send, .leg d m .memTimeout, .leg d m .lose, .record d m] : List TrioAct)) ++
    (acking.flatMap fun m =>
      ([.leg d m .send, .deliver d m, .leg d m .memReply, .record d m, .sync d m] : List TrioAct))

def resolveByte (d : ℤ) (k : ℕ) : List TrioAct := .resolve 0 d :: List.replicate k (.go 0 false)

def roundAtZero (k : ℕ) : List TrioAct :=
  ([.request () 0 0] : List TrioAct) ++ List.replicate k (.round () : TrioAct) ++ ([.retire 0 ()] : List TrioAct) ++
    List.replicate 12 (.go 0 false : TrioAct)

def readByte (m : Fin 3) : List TrioAct :=
  ([.startRead 0 0 1, .planRead 0, .planRead 0] : List TrioAct) ++ List.replicate 5 (.read 0 m : TrioAct) ++
    ([.serve 0 0, .read 0 m, .read 0 m] : List TrioAct)

def returnsAfterVerdict (blocks : List Block) (s : Trio) : Bool :=
  (s.reads 0).any fun c : ClientRead 3 =>
    decide (0 ∈ c.startEmptied) && decide (c.pc.returned = some blocks)

lemma exists_of_returnsAfterVerdict {blocks : List Block} {s : Trio}
    (h : returnsAfterVerdict blocks s = true) :
    ∃ c, s.reads 0 = some c ∧ 0 ∈ c.startEmptied ∧ c.pc.returned = some blocks := by
  obtain ⟨c, hc, hp⟩ := (Option.any_eq_true _ _).mp h
  obtain ⟨hd, hr⟩ := Bool.and_eq_true_iff.mp hp
  exact ⟨c, hc, of_decide_eq_true hd, of_decide_eq_true hr⟩

theorem voided_write_hidden_lostEverywhere : ∃ s : Trio, Reach sessStep (fun s a => a.VoidsAll s) trio s ∧
    ∃ c, s.reads 0 = some c ∧ 0 ∈ c.startEmptied ∧ c.pc.returned = some [⟨none, [0], true⟩] ∧
      ∀ b ∈ [(⟨none, [0], true⟩ : Block)], b.src ≠ some 0 := by
  obtain ⟨s, hs, hp⟩ := Reach.exists_of_exec sessStep (fun s a => a.VoidsAll s) trio
    (List.flatten [writeByte 0 9 [] [0, 1, 2] [], resolveByte 0 3, roundAtZero 17, readByte 2])
    (returnsAfterVerdict [⟨none, [0], true⟩]) (by decide +kernel)
  obtain ⟨c, hc, hd, hr⟩ := exists_of_returnsAfterVerdict hp
  exact ⟨s, hs, c, hc, hd, hr, voided_write_hidden backed_trio hs hc hr hd⟩

theorem voided_write_surfaces : ∃ s : Trio, Reach sessStep free trio s ∧
    ∃ c, s.reads 0 = some c ∧ 0 ∈ c.startEmptied ∧ c.pc.returned = some [⟨some 0, [9], false⟩] := by
  obtain ⟨s, hs, hp⟩ := Reach.exists_of_exec sessStep free trio
    (List.flatten [writeByte 0 9 [2] [] [0, 1], resolveByte 0 3, [.setUp 2 false], roundAtZero 13,
      [.setUp 2 true], readByte 2])
    (returnsAfterVerdict [⟨some 0, [9], false⟩]) (by decide +kernel)
  exact ⟨s, hs, exists_of_returnsAfterVerdict hp⟩

end Runs

end CraftClient.Client
