import Mathlib.Data.Fintype.Card
import CraftClient.Lib.Runs
import CraftClient.Raft.GroupSteps

namespace CraftClient.Raft

open Replica Runs

variable {ρ υ : Type} {n : ℕ}

structure ReplicaManager (υ : Type) (n : ℕ) where
  replicas : Fin n → Bool
  volumes : υ → Option (List (Fin n))

structure RaftAnswers (n : ℕ) where
  createGroup : Bool
  addMember : Fin n → Bool

namespace ReplicaManager

variable [DecidableEq υ] (mgr : ReplicaManager υ n) (self : Fin n) (vol : υ) (answers : RaftAnswers n)

omit [DecidableEq υ] in
def getVolume : List (Fin n) := (mgr.volumes vol).getD []

def registerVolume (members : List (Fin n)) : Except ErrorCond Unit × ReplicaManager υ n :=
  if members.all mgr.replicas then
    (.ok (), { mgr with volumes := Function.update mgr.volumes vol (some members) })
  else (.error (.craft .internal), mgr)

omit [DecidableEq υ] in
def addMembers : List (Fin n) → Except ErrorCond Unit
  | [] => .ok ()
  | m :: rest =>
    if !mgr.replicas m then .error (.craft .internal)
    else if m = self then addMembers rest
    else if !answers.addMember m then .error (.craft .internal)
    else addMembers rest

def createGroup (members : List (Fin n)) : Except ErrorCond Unit :=
  if !answers.createGroup then .error (.craft .internal) else mgr.addMembers self answers members

-- what `register_volume` returns is dropped
def srvCreateVolume (members : List (Fin n)) : Except ErrorCond Unit × ReplicaManager υ n :=
  if mgr.getVolume vol ≠ [] then (.ok (), mgr)
  else match mgr.createGroup self answers members with
    | .ok () => (.ok (), (mgr.registerVolume vol members).2)
    | .error e => (.error e, mgr)

variable {mgr self vol answers}

omit [DecidableEq υ] in
lemma known_of_addMembers {members : List (Fin n)} (h : mgr.addMembers self answers members = .ok ()) :
    members.all mgr.replicas = true := by
  induction members with
  | nil => rfl
  | cons m rest ih =>
    rw [addMembers] at h
    split_ifs at h with hm hself hadd
    all_goals
      rw [List.all_cons, Bool.and_eq_true]
      exact ⟨by simpa using hm, ih h⟩

lemma getVolume_of_srvCreateVolume {members : List (Fin n)} {mgr' : ReplicaManager υ n}
    (hnew : mgr.volumes vol = none) (h : mgr.srvCreateVolume self vol answers members = (.ok (), mgr')) :
    mgr'.getVolume vol = members := by
  have hv : mgr.getVolume vol = [] := by rw [getVolume, hnew, Option.getD_none]
  rw [srvCreateVolume, if_neg (not_not.mpr hv)] at h
  split at h
  · rename_i hg
    rw [createGroup] at hg
    split_ifs at hg
    rw [registerVolume, if_pos (known_of_addMembers hg)] at h
    cases h
    simp [getVolume]
  · cases h

end ReplicaManager

section Poll

structure Polled (m : Fin n) (volume : List (Fin n)) (c : EstablishCall n) (rest : List (Fin n)) : Prop where
  members : c.members = volume
  resp : c.resp.length = 1 + c.answered.length
  sublist : (c.answered ++ rest).Sublist volume
  self : m ∉ c.answered

def PollInv (m : Fin n) (volume : List (Fin n)) : Establish ρ n → Prop
  | .running c .start | .running c .sample => c.answered = []
  | .running c (.probe rest) => Polled m volume c rest
  | .running c (.asked _ q rest) => Polled m volume c (q :: rest) ∧ q ≠ m
  | .running c .check => Polled m volume c []
  | .running c _ | .done c (.ok (.established _ _)) => Polled m volume c [] ∧ volume.length / 2 < c.resp.length
  | _ => True

variable {g g' : Group ρ n} {m : Fin n}

lemma Polled.tail {volume rest : List (Fin n)} {c : EstablishCall n} {q : Fin n}
    (h : Polled m volume c (q :: rest)) : Polled m volume c rest where
  members := h.members
  resp := h.resp
  sublist := (List.Sublist.append_left (List.sublist_cons_self q rest) _).trans h.sublist
  self := h.self

lemma Polled.answer {volume rest : List (Fin n)} {c : EstablishCall n} {q : Fin n}
    (h : Polled m volume c (q :: rest)) (hq : q ≠ m) (ret : LsnPair) :
    Polled m volume { c with resp := c.resp ++ [ret], answered := c.answered ++ [q] } rest where
  members := h.members
  resp := by simp [h.resp, Nat.add_assoc]
  sublist := by simpa using h.sublist
  self hm := by
    rcases List.mem_append.mp hm with hm | hm
    · exact h.self hm
    · exact hq (List.mem_singleton.mp hm).symm

lemma PollInv.of_resolving {volume : List (Fin n)} {c : EstablishCall n} {pc : EstablishPc ρ n}
    (hpc : pc.resolving) :
    PollInv m volume (.running c pc) ↔ Polled m volume c [] ∧ volume.length / 2 < c.resp.length := by
  cases pc <;> first | exact Iff.rfl | cases hpc

lemma PollInv.moves {l l' : Establish ρ n} (h : PollInv m (g.servers m).volume l) (hm : Moves g m l l') :
    PollInv m (g.servers m).volume l' := by
  cases hm with
  | begins => exact rfl
  | leads c => exact h
  | samples c =>
    have hc : c.answered = [] := h
    exact ⟨rfl, by simp [hc], by simp [hc], by simp [hc]⟩
  | skips c rest => exact Polled.tail h
  | asks c k q rest hq => exact ⟨h, hq⟩
  | answers c k q rest ret hk => exact h.1.answer h.2 ret
  | silent c k q rest => exact h.1.tail
  | polled c => exact h
  | quorum c hq =>
    have hp : Polled m (g.servers m).volume c [] := h
    exact ⟨{ hp with }, hp.members ▸ hq⟩
  | resolves c pc pc' hpc hpc' hd => exact (of_resolving hpc').mpr ((of_resolving hpc).mp h)
  | ends c pc res hres =>
    obtain ⟨e, rfl⟩ | ⟨hint, rfl⟩ | ⟨rfl, rfl⟩ := hres
    · trivial
    · trivial
    · exact h

variable [DecidableEq ρ]

lemma login_invariant {P : List (Fin n) → Establish ρ n → Prop}
    (hP : ∀ g : Group ρ n, ∀ l', P (g.servers m).volume (g.servers m).login → Moves g m (g.servers m).login l' →
      P (g.servers m).volume l')
    {a : GroupAct ρ n} (h : P (g.servers m).volume (g.servers m).login) (hs : groupStep g a = some g') :
    P (g'.servers m).volume (g'.servers m).login := by
  obtain ⟨c, pc, hl, hv⟩ | ⟨clientToken, hr, hv⟩ | ⟨hv, -⟩ := server_of_groupStep m hs
  · rw [hv.volume]
    exact hP g _ h (hl ▸ hv.login)
  · rw [hv]
    exact hP g _ h (.begins _ clientToken hr)
  · rw [hv.volume, hv.login]
    exact h

lemma PollInv.step {a : GroupAct ρ n} (h : PollInv m (g.servers m).volume (g.servers m).login)
    (hs : groupStep g a = some g') : PollInv m (g'.servers m).volume (g'.servers m).login :=
  login_invariant (fun _ _ h hm => h.moves hm) h hs

def lackers (m : Fin n) (d : ℤ) (responses : List (Fin n × List JournalSlot)) : Finset (Fin n) :=
  insert m ((responses.filter fun r => lacks d r.2).map Prod.fst).toFinset

def VerdictInv (m : Fin n) (volume : List (Fin n)) : Establish ρ n → Prop
  | .running _ (.fetch _ rest responses) =>
    (responses.map Prod.fst ++ rest).Sublist volume ∧ m ∉ responses.map Prod.fst
  | .running _ (.decide _ responses dec) =>
    ((responses.map Prod.fst).Sublist volume ∧ m ∉ responses.map Prod.fst) ∧
      ∀ d ∈ dec.emptySlots, volume.length / 2 < 1 + (responses.filter fun r => lacks d r.2).length
  | _ => True

omit [DecidableEq ρ] in
lemma VerdictInv.weighs {c : EstablishCall n} {pc pc' : EstablishPc ρ n}
    (h : VerdictInv m (g.servers m).volume (.running c pc)) (hw : Weighs g m c pc pc') :
    VerdictInv m (g.servers m).volume (.running c pc') := by
  cases hw with
  | starts _ lsns => exact ⟨List.Sublist.refl _, List.not_mem_nil⟩
  | passes lsns q rest responses =>
    exact ⟨(List.Sublist.append_left (List.sublist_cons_self q rest) _).trans h.1, h.2⟩
  | hears lsns q rest responses hq =>
    obtain ⟨hsub, hm⟩ := h
    refine ⟨by simpa using hsub, fun hmem => ?_⟩
    rw [List.map_append, List.mem_append] at hmem
    exact hmem.elim hm fun hmem => hq (List.mem_singleton.mp hmem).symm
  | heard lsns responses =>
    obtain ⟨hsub, hm⟩ := h
    rw [List.append_nil] at hsub
    exact ⟨⟨hsub, hm⟩, fun d hd => by cases hd⟩
  | decides lsn lsns responses dec =>
    refine ⟨h.1, fun d hd => ?_⟩
    rcases mem_decideSlot hd with hd | hd
    · exact h.2 d hd
    · rwa [List.filter_map, List.length_map] at hd
  | leaves _ _ hpc =>
    cases pc' with
    | fetch | decide => cases hpc
    | _ => trivial

omit [DecidableEq ρ] in
lemma VerdictInv.moves {l l' : Establish ρ n} (h : VerdictInv m (g.servers m).volume l) (hm : Moves g m l l') :
    VerdictInv m (g.servers m).volume l' := by
  cases hm with
  | resolves c pc pc' _ _ hw => exact h.weighs hw
  | _ => trivial

lemma VerdictInv.step {a : GroupAct ρ n} (h : VerdictInv m (g.servers m).volume (g.servers m).login)
    (hs : groupStep g a = some g') : VerdictInv m (g'.servers m).volume (g'.servers m).login :=
  login_invariant (fun _ _ h hm => h.moves hm) h hs

end Poll

def created (mgrs : Fin n → ReplicaManager υ n) (vol : υ) (mems : Fin n → MemReplica)
    (nextTerm : Fin n → UInt64) : Group ρ n where
  servers q := .start (mems q) ((mgrs q).getVolume vol) (nextTerm q)
  requests _ := none
  pending := []
  log := []
  acks _ := []
  returned := []

/-- A login on `m` succeeds, and declares slots Empty, only on the word of a majority of the members `ms`, itself
included. -/
structure ByMajority (ms : List (Fin n)) (m : Fin n) (l : Establish ρ n) : Prop where
  login : ∀ c members dlsn, l = .done c (.ok (.established members dlsn)) →
    insert m c.answered.toFinset ⊆ ms.toFinset ∧ ms.length / 2 < (insert m c.answered.toFinset).card
  verdicts : ∀ c lsns responses dec, l = .running c (.decide lsns responses dec) → ∀ d ∈ dec.emptySlots,
    lackers m d responses ⊆ ms.toFinset ∧ ms.length / 2 < (lackers m d responses).card

section Created

variable [DecidableEq ρ] [DecidableEq υ] {mgrs : Fin n → ReplicaManager υ n} {vol : υ} {m : Fin n}

omit [DecidableEq ρ] [DecidableEq υ] in
lemma insert_subset_of_sublist {ms peers : List (Fin n)} (hm : m ∈ ms) (h : peers.Sublist ms) :
    insert m peers.toFinset ⊆ ms.toFinset := by
  intro q hq
  rw [List.mem_toFinset]
  rcases Finset.mem_insert.mp hq with rfl | hq
  · exact hm
  · exact h.subset (List.mem_toFinset.mp hq)

omit [DecidableEq ρ] [DecidableEq υ] in
lemma card_insert_of_sublist {ms peers : List (Fin n)} (hms : ms.Nodup) (h : peers.Sublist ms) (hm : m ∉ peers) :
    (insert m peers.toFinset).card = 1 + peers.length := by
  rw [Finset.card_insert_of_notMem (by simpa using hm), List.toFinset_card_of_nodup (hms.sublist h), Nat.add_comm]

omit [DecidableEq υ] in
lemma byMajority_of_registered {mems : Fin n → MemReplica} {nextTerm : Fin n → UInt64} {ms : List (Fin n)}
    (hv : (mgrs m).getVolume vol = ms) (hms : ms.Nodup) (hm : m ∈ ms) {g : Group ρ n}
    (h : Reach groupStep free (created mgrs vol mems nextTerm) g) : ByMajority ms m (g.servers m).login := by
  have hinv : (g.servers m).volume = ms ∧ PollInv m (g.servers m).volume (g.servers m).login ∧
      VerdictInv m (g.servers m).volume (g.servers m).login := by
    apply h.invariant (P := fun g => (g.servers m).volume = ms ∧
      PollInv m (g.servers m).volume (g.servers m).login ∧ VerdictInv m (g.servers m).volume (g.servers m).login)
    · exact ⟨hv, trivial, trivial⟩
    · rintro g a g' ⟨hvol, hp, hd⟩ - hs
      exact ⟨login_invariant (P := fun volume _ => volume = ms) (fun _ _ h _ => h) hvol hs, hp.step hs, hd.step hs⟩
  obtain ⟨hvol, hp, hd⟩ := hinv
  rw [hvol] at hp hd
  constructor
  · intro c members dlsn hl
    rw [hl] at hp
    obtain ⟨hp, hq⟩ : Polled m ms c [] ∧ ms.length / 2 < c.resp.length := hp
    have hsub : c.answered.Sublist ms := by simpa using hp.sublist
    refine ⟨insert_subset_of_sublist hm hsub, ?_⟩
    rwa [card_insert_of_sublist hms hsub hp.self, ← hp.resp]
  · intro c lsns responses dec hl d hmem
    rw [hl] at hd
    obtain ⟨⟨hsub, hself⟩, hall⟩ := hd
    have hlack : ((responses.filter fun r => lacks d r.2).map Prod.fst).Sublist (responses.map Prod.fst) :=
      (List.filter_sublist (l := responses)).map Prod.fst
    refine ⟨insert_subset_of_sublist hm (hlack.trans hsub), ?_⟩
    rw [lackers, card_insert_of_sublist hms (hlack.trans hsub) fun h => hself (hlack.subset h), List.length_map]
    exact hall d hmem

omit [DecidableEq υ] in
lemma go_of_reach {g₀ g : Group ρ n} {v : Server ρ n} {c : EstablishCall n} {pc : EstablishPc ρ n}
    {l : Establish ρ n} (h : Reach groupStep free g₀ g ∧ g.servers m = { v with login := .running c pc })
    (he : ∀ g : Group ρ n, g.servers m = { v with login := .running c pc } →
      g.establishStep m none c pc = some (g.setLogin m l)) :
    ∃ g', Reach groupStep free g₀ g' ∧ g'.servers m = { v with login := l } := by
  obtain ⟨hr, hv⟩ := h
  refine ⟨g.setLogin m l, hr.next (a := .go m none) trivial ?_, ?_⟩
  · simp only [groupStep, hv]
    exact he g hv
  · rw [Group.setLogin, servers_setServer, if_pos rfl, hv]

def holed : MemReplica := (MemReplica.new 4096).coldMarkEmpty 1

omit [DecidableEq υ] in
lemma verdict_alone (hv : (mgrs m).getVolume vol = []) :
    ∃ g : Group ρ n, Reach groupStep free (created mgrs vol (fun _ => holed) fun _ => 0) g ∧
      ∃ c, (g.servers m).login = .running c (.decide [] [] ⟨[0], -1⟩) := by
  set g₀ : Group ρ n := created mgrs vol (fun _ => holed) fun _ => 0
  let v : Server ρ n := { Server.start holed [] 0 with isLeader := true, nextTerm := 1, sessionTerm := 1 }
  let c : EstablishCall n := { clientToken := 0, term := 1 }
  let c' : EstablishCall n := { c with currentTerm := 0, resp := [⟨-1, 1⟩], members := [] }
  have hmiss : getMissingSlots holed 1 = [0] := by decide
  obtain ⟨g, hg⟩ : ∃ g, Reach groupStep free g₀ g ∧ g.servers m = { v with login := .running c .start } := by
    let v₀ : Server ρ n := { Server.start holed ((mgrs m).getVolume vol) 0 with isLeader := true }
    have hlead : groupStep g₀ (.lead m true) = some (g₀.setServer m v₀) := rfl
    have hv₀ : (g₀.setServer m v₀).servers m = v₀ := by rw [servers_setServer, if_pos rfl]
    refine ⟨(g₀.setServer m v₀).setServer m (v₀.beginLogin 0),
      (Reach.refl.next (a := .lead m true) trivial hlead).next (a := .onLogin m 0) trivial ?_, ?_⟩
    · simp only [groupStep, hv₀]
      rfl
    · simp only [servers_setServer, if_pos, v₀, hv]
      rfl
  obtain ⟨g, hg⟩ := go_of_reach (l := .running c .sample) hg fun g hv => by
    simp [Group.establishStep, hv, v]
  obtain ⟨g, hg⟩ := go_of_reach (l := .running c' (.probe [])) hg fun g hv => by
    simp only [Group.establishStep, hv]
    rfl
  obtain ⟨g, hg⟩ := go_of_reach (l := .running c' .check) hg fun g hv => rfl
  obtain ⟨g, hg⟩ := go_of_reach (l := .running { c' with rsCommitLsn := 1 } .missing) hg fun g hv => by
    simp [Group.establishStep, c', maxLastAppend]
  obtain ⟨g, hg⟩ := go_of_reach (l := .running { c' with rsCommitLsn := 1 } (.fetch [0] [] [])) hg fun g hv => by
    simp only [Group.establishStep, hv]
    rfl
  obtain ⟨g, hr, hg⟩ := go_of_reach (l := .running { c' with rsCommitLsn := 1 } (.decide [0] [] ⟨[], -1⟩)) hg
    fun g hv => rfl
  refine ⟨g.setServer m { v.setMem holed with
      login := .running { c' with rsCommitLsn := 1 } (.decide [] [] ⟨[0], -1⟩) },
    hr.next (a := .go m none) trivial ?_, { c' with rsCommitLsn := 1 }, ?_⟩
  · have hdec : decideSlot 0 [] 0 holed ⟨[], -1⟩ 0 = (holed, ⟨[0], -1⟩) := by simp [decideSlot, evidenceLoop]
    simp only [groupStep, hg]
    simp only [Group.establishStep, hg]
    change some (g.setServer m { v.setMem (decideSlot 0 [] 0 holed ⟨[], -1⟩ 0).1 with
      login := .running _ (.decide [] [] (decideSlot 0 [] 0 holed ⟨[], -1⟩ 0).2) }) = _
    rw [hdec]
  · simp only [servers_setServer, if_pos]

theorem login_majority_iff {ms : List (Fin n)} {c : Fin n} {answers : RaftAnswers n} {mgr' : ReplicaManager υ n}
    (hms : ms.Nodup) (hc : c ∈ ms) (hm : m ∈ ms) (hnew : ∀ q, (mgrs q).volumes vol = none)
    (hok : (mgrs c).srvCreateVolume c vol answers ms = (.ok (), mgr')) :
    (∀ mems nextTerm, ∀ g : Group ρ n,
      Reach groupStep free (created (Function.update mgrs c mgr') vol mems nextTerm) g →
      ByMajority ms m (g.servers m).login) ↔ m = c := by
  constructor
  · intro h
    by_contra hne
    have hv : (Function.update mgrs c mgr' m).getVolume vol = [] := by
      rw [Function.update_of_ne hne, ReplicaManager.getVolume, hnew, Option.getD_none]
    obtain ⟨g, hg, call, hl⟩ := verdict_alone (ρ := ρ) hv
    have hlt : ms.length / 2 < 1 := ((h _ _ g hg).verdicts call _ _ _ hl 0 (List.mem_singleton.mpr rfl)).2
    have hcard : 1 < ms.toFinset.card :=
      Finset.one_lt_card.mpr ⟨m, List.mem_toFinset.mpr hm, c, List.mem_toFinset.mpr hc, hne⟩
    rw [List.toFinset_card_of_nodup hms] at hcard
    omega
  · rintro rfl mems nextTerm g hg
    refine byMajority_of_registered ?_ hms hm hg
    rw [Function.update_self]
    exact ReplicaManager.getVolume_of_srvCreateVolume (hnew m) hok

end Created

section Runs

def threeManagers (_ : Fin 3) : ReplicaManager Unit 3 := ⟨fun _ => true, fun _ => none⟩

def registered : ReplicaManager Unit 3 := ((threeManagers 0).registerVolume () [0, 1, 2]).2

def volumeCreated : Group ℕ 3 :=
  created (Function.update threeManagers 0 registered) () (fun _ => holed) fun _ => 0

def loginRun (m : Fin 3) (poll fetch : List (GroupAct ℕ 3)) : List (GroupAct ℕ 3) :=
  List.flatten [[.lead m true, .onLogin m 0, .go m none, .go m none], poll, List.replicate 3 (.go m none), fetch,
    List.replicate 3 (.go m none), [.propose m none, .go m none, .propose m none, .commit, .commit, .apply m],
    List.replicate 6 (.work m false), [.apply m, .go m none]]

def succeeds (m : Fin 3) (members answered : List (Fin 3)) (g : Group ℕ 3) : Bool :=
  match (g.servers m).login with
  | .done c (.ok (.established ms 1)) =>
    ms = members && (c.answered = answered && g.log.head? = some (.sync ⟨1, 0, [0]⟩))
  | _ => false

lemma exists_succeeds {m : Fin 3} {members answered : List (Fin 3)}
    (h : ∃ g, Reach groupStep free volumeCreated g ∧ succeeds m members answered g = true) :
    ∃ g, Reach groupStep free volumeCreated g ∧ g.log.head? = some (.sync ⟨1, 0, [0]⟩) ∧
      ∃ c, (g.servers m).login = .done c (.ok (.established members 1)) ∧ c.answered = answered := by
  obtain ⟨g, hg, hs⟩ := h
  rw [succeeds] at hs
  split at hs
  · rename_i c ms hl
    obtain ⟨hms, hs⟩ := Bool.and_eq_true_iff.mp hs
    obtain ⟨ha, hlog⟩ := Bool.and_eq_true_iff.mp hs
    rw [of_decide_eq_true hms] at hl
    exact ⟨g, hg, of_decide_eq_true hlog, c, hl, of_decide_eq_true ha⟩
  · cases hs

theorem login_majority_creator :
    ∃ g, Reach groupStep free volumeCreated g ∧ ByMajority [0, 1, 2] 0 (g.servers 0).login ∧
      ∃ c, (g.servers 0).login = .done c (.ok (.established [0, 1, 2] 1)) ∧ c.answered = [1] := by
  have hok : (threeManagers 0).srvCreateVolume 0 () ⟨true, fun _ => true⟩ [0, 1, 2] = (.ok (), registered) := rfl
  obtain ⟨g, hg, -, c, hl, ha⟩ := exists_succeeds (Reach.exists_of_exec groupStep free volumeCreated
    (loginRun 0 [.go 0 none, .ask 0 0, .serve 0, .barrier 1 (.arm 0), .barrier 1 (.record 0), .answer 0, .ask 0 1,
      .noAnswer 0] [.go 0 none, .fetch 0 true, .fetch 0 false]) (succeeds 0 [0, 1, 2] [1]) (by decide +kernel))
  refine ⟨g, hg, ?_, c, hl, ha⟩
  exact (login_majority_iff (by decide) (by decide) (by decide) (fun _ => rfl) hok).mpr rfl _ _ g hg

theorem login_succeeds_alone :
    (threeManagers 0).srvCreateVolume 0 () ⟨true, fun _ => true⟩ [0, 1, 2] = (.ok (), registered) ∧
    ∃ g, Reach groupStep free volumeCreated g ∧ g.log.head? = some (.sync ⟨1, 0, [0]⟩) ∧
      ∃ c, (g.servers 1).login = .done c (.ok (.established [] 1)) ∧ c.answered = [] :=
  ⟨rfl, exists_succeeds (Reach.exists_of_exec groupStep free volumeCreated (loginRun 1 [] []) (succeeds 1 [] [])
    (by decide +kernel))⟩

end Runs

end CraftClient.Raft
