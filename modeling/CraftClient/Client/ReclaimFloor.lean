import CraftClient.Client.ReadServe
import CraftClient.Client.Surfacing

/-! The reclaim floor of the headers: the least of the commit points that the members have reported. -/

namespace CraftClient.Client

open Replica Router Cluster Tracker Runs

variable {ι κ ρ : Type} {n : ℕ}

section Members

variable {r r' r'' : MemReplica} {d : ℤ}

structure Advances (r r' : MemReplica) : Prop where
  commit : r.commitLsn ≤ r'.commitLsn
  kept : ∀ d, (r.journal.find d).isSome → (r'.journal.find d).isSome
  passed : ∀ d, r.commitLsn < d → d ≤ r'.commitLsn → (r'.journal.find d).isSome

lemma Advances.refl (r : MemReplica) : Advances r r :=
  ⟨le_rfl, fun _ => id, fun _ h₁ h₂ => absurd h₂ (not_le.mpr h₁)⟩

lemma Advances.trans (h : Advances r r') (h' : Advances r' r'') : Advances r r'' := by
  refine ⟨h.commit.trans h'.commit, fun d hd => h'.kept d (h.kept d hd), fun d h₁ h₂ => ?_⟩
  rcases le_or_gt d r'.commitLsn with hle | hlt
  · exact h'.kept d (h.passed d h₁ hle)
  · exact h'.passed d hlt h₂

lemma advances_applyUpTo (r : MemReplica) (target : ℤ) : Advances r (r.applyUpTo target) where
  commit := (MemReplica.applies_applyUpTo r target).commit_le
  kept d hd := by rwa [MemReplica.applyUpTo_journal]
  passed d h₁ h₂ := by
    rw [MemReplica.applyUpTo_journal]
    exact MemReplica.isSome_of_applyUpTo h₁ h₂

lemma advances_append (r : MemReplica) (d : ℤ) (s : MemJournalSlot) : Advances r (r.append d s) where
  commit := le_rfl
  kept e he := by
    rw [MemReplica.find_append]
    split_ifs
    · rfl
    · exact he
  passed _ h₁ h₂ := absurd h₂ (not_le.mpr h₁)

lemma advances_coldInstallSlot (r : MemReplica) (d : ℤ) (s : MemJournalSlot) :
    Advances r (r.coldInstallSlot d s) := by
  rw [MemReplica.coldInstallSlot]
  split_ifs
  · exact .refl r
  · exact advances_append r d s

lemma advances_doWrite {hdr : ClientHdr} {addr len : UInt64} {bytes : Option (List UInt8)} {l : LsnPair}
    (h : r.doWrite hdr d addr len bytes = .ok (l, r')) : Advances r r' ∧ l.commitLsn = r'.commitLsn := by
  obtain ⟨-, -, -, rfl, rfl⟩ := MemReplica.doWrite_ok h
  exact ⟨(advances_append r d _).trans (advances_applyUpTo _ _), rfl⟩

lemma advances_update {members : Fin n → MemReplica} {m : Fin n} (h : Advances (members m) r) (q : Fin n) :
    Advances (members q) (Function.update members m r q) := by
  rw [Function.update_apply]
  split_ifs with hq
  · rwa [hq]
  · exact .refl _

lemma advances_roundStep {members : Fin n → MemReplica} {c : RoundCall n} {pc : RoundPc n} (q : Fin n) :
    Advances (members q) ((roundStep members c pc).1 q) := by
  cases pc with
  | scan d rest copy => cases rest <;> cases copy <;> exact .refl _
  | floor rest | fill d rest => cases rest <;> exact .refl _
  | mark d rest =>
    cases rest with
    | nil => exact .refl _
    | cons m rest => exact advances_update (advances_append _ d _) q
  | install d rest copy =>
    cases rest with
    | nil => exact .refl _
    | cons m rest => exact advances_update (advances_coldInstallSlot _ d copy) q
  | sync rest =>
    cases rest with
    | nil => exact .refl _
    | cons m rest => exact advances_update (advances_applyUpTo _ _) q
  | reply => exact .refl _

end Members

section Floor

variable {r : RouteMap n} {i : Fin n} {C : ℤ}

lemma foldl_min (f : Fin n → ℤ) (l : List (Fin n)) (a : ℤ) :
    let floor := l.foldl (fun floor i => min floor (f i)) a
    floor ≤ a ∧ (∀ i ∈ l, floor ≤ f i) ∧ (floor = a ∨ ∃ i ∈ l, floor = f i) := by
  induction l generalizing a with
  | nil => exact ⟨le_rfl, by simp, Or.inl rfl⟩
  | cons i l ih =>
    obtain ⟨hle, hall, hex⟩ := ih (min a (f i))
    refine ⟨hle.trans (min_le_left _ _), fun j hj => ?_, ?_⟩
    · rcases List.mem_cons.mp hj with rfl | hj
      · exact hle.trans (min_le_right _ _)
      · exact hall j hj
    · rcases hex with heq | ⟨j, hj, heq⟩
      · rcases min_choice a (f i) with ha | hi
        · exact Or.inl (heq.trans ha)
        · exact Or.inr ⟨i, List.mem_cons_self, heq.trans hi⟩
      · exact Or.inr ⟨j, List.mem_cons_of_mem i hj, heq⟩

structure IsFloor (r : RouteMap n) : Prop where
  le : ∀ m, r.allCommitted ≤ r.synced m
  attained : ∃ m, r.allCommitted = r.synced m

lemma IsFloor.mono {r' : RouteMap n} (h : IsFloor r) (h' : IsFloor r') (hle : ∀ m, r.synced m ≤ r'.synced m) :
    r.allCommitted ≤ r'.allCommitted := by
  obtain ⟨m, hm⟩ := h'.attained
  rw [hm]
  exact (h.le m).trans (hle m)

structure SameFloor (r r' : RouteMap n) : Prop where
  synced : r'.synced = r.synced
  allCommitted : r'.allCommitted = r.allCommitted

lemma sameFloor_recordCompletion (r : RouteMap n) (d : ℤ) (i : Fin n) (acked : Bool) :
    SameFloor r (r.recordCompletion d i acked) := by
  rw [RouteMap.recordCompletion]
  split
  · exact ⟨rfl, rfl⟩
  · dsimp only
    split_ifs <;> exact ⟨rfl, rfl⟩

lemma sameFloor_noteFilled (r : RouteMap n) (d : ℤ) (i : Fin n) : SameFloor r (r.noteFilled d i) := by
  rw [RouteMap.noteFilled]
  split
  · exact ⟨rfl, rfl⟩
  · dsimp only
    split_ifs <;> exact ⟨rfl, rfl⟩

lemma sameFloor_foldTo (r : RouteMap n) (F : ℤ) : SameFloor r (r.foldTo F) := by
  simp only [RouteMap.foldTo, RouteMap.maybeTruncate]
  split_ifs <;> exact ⟨rfl, rfl⟩

variable [NeZero n]

lemma isFloor_reset (L : ℤ) : IsFloor (RouteMap.reset n L) := ⟨fun _ => le_rfl, 0, rfl⟩

lemma IsFloor.advanceSynced (h : IsFloor r) : IsFloor (r.advanceSynced i C) := by
  rw [RouteMap.advanceSynced]
  split_ifs
  · exact h
  · obtain ⟨-, hall, hex⟩ := foldl_min (Function.update r.synced i C) (List.finRange n) (Function.update r.synced i C 0)
    refine ⟨fun m => hall m (List.mem_finRange m), ?_⟩
    rcases hex with heq | ⟨m, -, heq⟩
    · exact ⟨0, heq⟩
    · exact ⟨m, heq⟩

lemma synced_le_advanceSynced (r : RouteMap n) (i : Fin n) (C : ℤ) (m : Fin n) :
    r.synced m ≤ (r.advanceSynced i C).synced m := by
  rw [RouteMap.advanceSynced]
  split_ifs with hC
  · exact le_rfl
  · simp only [Function.update_apply]
    split_ifs with hm
    · rw [hm]
      exact (not_le.mp hC).le
    · exact le_rfl

end Floor

section Heard

variable (members : Fin n → MemReplica)

def Floored (hdr : ClientHdr) : Prop := ∀ m, hdr.allCommittedLsn ≤ (members m).commitLsn

structure RouteHeard (before : Fin n → ℤ) (r : RouteMap n) : Prop where
  floor : IsFloor r
  before_le : ∀ m, before m ≤ r.synced m
  synced : ∀ m, r.synced m ≤ (members m).commitLsn

def LegHeard (C : ℤ) (l : Leg) : Prop :=
  ∀ p, l.request = .served (.ok p) ∨ l.seen = some (.ok p) → p.commitLsn ≤ C

structure WriteHeard (w : WriteCall n) : Prop where
  hdr : Floored members w.req.hdr
  legs : ∀ m, LegHeard (members m).commitLsn (w.legs m).leg

def ReadPc.hdr : ReadPc n → Option ClientHdr
  | .frontier _ hdr | .fold _ hdr _ => some hdr
  | .test a | .await a _ => some a.hdr
  | _ => none

def ReadHeard [NeZero n] : ReadPc n → Prop
  | .frontier _ hdr | .fold _ hdr _ => Floored members hdr
  | .test a => Floored members a.hdr
  | .await a replies => Floored members a.hdr ∧
      ∀ res, some (.ok res) ∈ replies → res.lsns.commitLsn ≤ (members a.target).commitLsn
  | .sync idx results => ∀ res ∈ results, res.lsns.commitLsn ≤ (members idx).commitLsn
  | _ => True

end Heard

section Mono

variable {members members' : Fin n → MemReplica} {before : Fin n → ℤ}

lemma Floored.mono {hdr : ClientHdr} (h : Floored members hdr) (hm : ∀ m, Advances (members m) (members' m)) :
    Floored members' hdr := fun m => (h m).trans (hm m).commit

lemma RouteHeard.mono {r : RouteMap n} (h : RouteHeard members before r)
    (hm : ∀ m, Advances (members m) (members' m)) : RouteHeard members' before r :=
  ⟨h.floor, h.before_le, fun m => (h.synced m).trans (hm m).commit⟩

lemma RouteHeard.floored {r : RouteMap n} (h : RouteHeard members before r) (m : Fin n) :
    r.allCommitted ≤ (members m).commitLsn := (h.floor.le m).trans (h.synced m)

lemma RouteHeard.of_same {r r' : RouteMap n} (h : RouteHeard members before r) (hs : SameFloor r r') :
    RouteHeard members before r' := by
  obtain ⟨hsynced, hall⟩ := hs
  obtain ⟨⟨hle, hattained⟩, hbefore, hmembers⟩ := h
  rw [← hsynced] at hle hattained hbefore hmembers
  rw [← hall] at hle hattained
  exact ⟨⟨hle, hattained⟩, hbefore, hmembers⟩

lemma RouteHeard.advanceSynced [NeZero n] {r : RouteMap n} {i : Fin n} {C : ℤ} (h : RouteHeard members before r)
    (hC : C ≤ (members i).commitLsn) : RouteHeard members before (r.advanceSynced i C) :=
  ⟨h.floor.advanceSynced, fun m => (h.before_le m).trans (synced_le_advanceSynced r i C m),
    RouteMap.advanceSynced_synced_le h.synced hC⟩

lemma LegHeard.mono {l : Leg} {C C' : ℤ} (h : LegHeard C l) (hC : C ≤ C') : LegHeard C' l :=
  fun p hp => (h p hp).trans hC

lemma WriteHeard.mono {w : WriteCall n} (h : WriteHeard members w) (hm : ∀ m, Advances (members m) (members' m)) :
    WriteHeard members' w := ⟨h.hdr.mono hm, fun m => (h.legs m).mono (hm m).commit⟩

lemma WriteHeard.setLeg {w : WriteCall n} {m : Fin n} {l : WriteLeg} (h : WriteHeard members w)
    (hl : LegHeard (members m).commitLsn l.leg) : WriteHeard members (w.setLeg m l) := by
  refine ⟨h.hdr, fun q => ?_⟩
  simp only [WriteCall.setLeg, Function.update_apply]
  split_ifs with hq
  · rwa [hq]
  · exact h.legs q

variable [NeZero n]

lemma ReadHeard.mono {pc : ReadPc n} (h : ReadHeard members pc) (hm : ∀ m, Advances (members m) (members' m)) :
    ReadHeard members' pc := by
  cases pc with
  | frontier | fold | test => exact Floored.mono h hm
  | await => exact ⟨h.1.mono hm, fun res hr => (h.2 res hr).trans (hm _).commit⟩
  | sync => exact fun res hr => (h res hr).trans (hm _).commit
  | _ => trivial

lemma ReadHeard.floored {pc : ReadPc n} {hdr : ClientHdr} (h : ReadHeard members pc) (hp : pc.hdr = some hdr) :
    Floored members hdr := by
  cases pc with
  | frontier | fold | test =>
    cases hp
    exact h
  | await =>
    cases hp
    exact h.1
  | _ => cases hp

lemma ReadHeard.reply {a : Attempt n} {replies : List ReadReply} {j : ℕ} {x : Except ErrorCond ReadResult}
    (h : ReadHeard members (.await a replies))
    (hx : ∀ res, x = .ok res → res.lsns.commitLsn ≤ (members a.target).commitLsn) :
    ReadHeard members (.await a (replies.set j (some x))) := by
  refine ⟨h.1, fun res hres => ?_⟩
  rcases List.mem_or_eq_of_mem_set hres with hres | hres
  · exact h.2 res hres
  · exact hx res (Option.some.inj hres).symm

end Mono

structure FloorInv [NeZero n] (start : Fin n → MemReplica) (before : Fin n → ℤ) (s : Session ι κ ρ n) : Prop where
  members : ∀ m, Advances (start m) (s.net.members m)
  route : RouteHeard s.net.members before s.route
  beats : ∀ m, ∀ C ∈ s.beats m, C ≤ (s.net.members m).commitLsn
  writes : ∀ d w, s.writes d = some w → WriteHeard s.net.members w
  reads : ∀ k c, s.reads k = some c → ReadHeard s.net.members c.pc

section Invariant

variable [NeZero n] {start : Fin n → MemReplica} {before : Fin n → ℤ} {s s' : Session ι κ ρ n} {d : ℤ} {m : Fin n}

lemma floorInv_login {net : MemTransport ρ n} {L : ℤ} {maxInflight lbaSize : UInt32} {token : UInt64}
    (h : ∀ m, -1 ≤ (net.members m).commitLsn) :
    FloorInv net.members (fun _ => kUnsynced) (Session.login maxInflight L lbaSize net token : Session ι κ ρ n) where
  members m := .refl _
  route := ⟨isFloor_reset L, fun _ => le_rfl, h⟩
  beats _ C hC := by cases hC
  writes d w hw := by cases hw
  reads k c hc := by cases hc

lemma FloorInv.advance (h : FloorInv start before s) (hm : ∀ m, Advances (s.net.members m) (s'.net.members m))
    (hroute : s'.route = s.route) (hbeats : s'.beats = s.beats) (hwrites : s'.writes = s.writes)
    (hreads : s'.reads = s.reads) : FloorInv start before s' where
  members m := (h.members m).trans (hm m)
  route := by
    rw [hroute]
    exact h.route.mono hm
  beats m C hC := by
    rw [hbeats] at hC
    exact (h.beats m C hC).trans (hm m).commit
  writes d w hw := by
    rw [hwrites] at hw
    exact (h.writes d w hw).mono hm
  reads k c hc := by
    rw [hreads] at hc
    exact (h.reads k c hc).mono hm

lemma FloorInv.of_net (h : FloorInv start before s) (hm : s'.net.members = s.net.members) (hroute : s'.route = s.route)
    (hbeats : s'.beats = s.beats) (hwrites : s'.writes = s.writes) (hreads : s'.reads = s.reads) :
    FloorInv start before s' :=
  h.advance (fun m => by rw [hm]; exact .refl _) hroute hbeats hwrites hreads

lemma FloorInv.setWrite {w : WriteCall n} (h : FloorInv start before s) (hw : WriteHeard s.net.members w) :
    FloorInv start before (s.setWrite d w) := by
  refine { h with writes := fun d' w' hw' => ?_ }
  simp only [Session.setWrite, Function.update_apply] at hw'
  split_ifs at hw' with hd
  · cases hw'
    exact hw
  · exact h.writes d' w' hw'

lemma FloorInv.setRoute {r : RouteMap n} (h : FloorInv start before s) (hr : RouteHeard s.net.members before r) :
    FloorInv start before { s with route := r } := { h with route := hr }

lemma FloorInv.setMember {r : MemReplica} (h : FloorInv start before s) (hr : Advances (s.net.members m) r) :
    FloorInv start before (s.setMember m r) :=
  h.advance (advances_update hr) rfl rfl rfl rfl

lemma FloorInv.setRead [DecidableEq κ] {k : κ} {c : ClientRead n} {pc : ReadPc n} (h : FloorInv start before s)
    (hpc : ReadHeard s.net.members pc) : FloorInv start before (s.setRead k c pc) := by
  refine { h with reads := fun k' c' hc' => ?_ }
  simp only [Session.setRead, Function.update_apply] at hc'
  split_ifs at hc' with hk
  · cases hc'
    exact hpc
  · exact h.reads k' c' hc'

lemma FloorInv.unsynced (h : FloorInv start before s) (hstart : ∀ m, -1 ≤ (start m).commitLsn) (m : Fin n) :
    -1 ≤ (s.net.members m).commitLsn := (hstart m).trans (h.members m).commit

lemma LegHeard.step {C : ℤ} {l l' : Leg} {a : LegAct} (h : LegHeard C l) (hs : legStep .mem l a = some l') :
    LegHeard C l' := by
  obtain ⟨hreq, hseen⟩ := legStep_mem hs
  rintro p (hp | hp)
  · exact h p (Or.inl ((hreq p).mp hp))
  · rcases hseen with heq | ⟨-, hp'⟩
    · exact h p (Or.inr (heq ▸ hp))
    · exact h p (Or.inl (hp' p hp))

lemma FloorInv.deliver {w : WriteCall n} (h : FloorInv start before s) (hw : s.writes d = some w) :
    FloorInv start before (s.deliver d w m) := by
  have hwh := h.writes d w hw
  -- What the leg has seen before the member answers it.
  have hseen : ∀ p, (w.legs m).leg.seen = some (.ok p) → p.commitLsn ≤ (s.net.members m).commitLsn :=
    fun p hp => hwh.legs m p (Or.inr hp)
  simp only [Session.deliver]
  split
  case h_1 l r hans =>
    obtain ⟨hadv, hl⟩ := advances_doWrite hans
    have hup : ∀ q, Advances (s.net.members q) (Function.update s.net.members m r q) := advances_update hadv
    have hm : FloorInv start before (s.setMember m r) := h.setMember hadv
    refine hm.setWrite ((hwh.mono hup).setLeg ?_)
    rw [Function.update_self, hans]
    rintro p (hp | hp)
    · cases hp
      exact hl.le
    · exact (hseen p hp).trans hadv.commit
  case h_2 e hans =>
    refine h.setWrite (hwh.setLeg ?_)
    rw [hans]
    rintro p (hp | hp)
    · cases hp
    · exact hseen p hp

lemma FloorInv.readStep {k : κ} {c : ClientRead n} {r : PlanRead} {rotor : Fin n} {route : RouteMap n} {pc : ReadPc n}
    (h : FloorInv start before s) (hstart : ∀ m, -1 ≤ (start m).commitLsn) (hc : s.reads k = some c)
    (hs : readStep s r rotor c.pc = some (route, pc)) :
    RouteHeard s.net.members before route ∧ ReadHeard s.net.members pc := by
  have hr := h.reads k c hc
  generalize c.pc = pc₀ at hr hs
  cases pc₀ with
  | plan =>
    simp only [Client.readStep] at hs
    split_ifs at hs
    cases hs
    refine ⟨h.route, ?_⟩
    split <;> trivial
  | makeHdr segs =>
    cases hs
    exact ⟨h.route, h.route.floored⟩
  | frontier segs hdr =>
    cases hs
    exact ⟨h.route, hr⟩
  | fold segs hdr F =>
    cases hs
    exact ⟨h.route.of_same (sameFloor_foldTo _ F), hr⟩
  | test a =>
    simp only [Client.readStep] at hs
    split_ifs at hs <;> cases hs
    · exact ⟨h.route, trivial⟩
    · refine ⟨h.route, hr, fun res hres => ?_⟩
      obtain ⟨-, -, hnone⟩ := List.mem_map.mp hres
      cases hnone
    · exact ⟨h.route, hr⟩
  | await a replies =>
    simp only [Client.readStep] at hs
    split at hs
    case h_1 => cases hs
    case h_2 results hcol =>
      cases hs
      obtain rfl := collect_ok hcol
      exact ⟨h.route, fun res hres => hr.2 res (List.mem_map_of_mem hres)⟩
    case h_3 e hcol =>
      split_ifs at hs <;> cases hs
      · exact ⟨h.route, hr.1⟩
      · exact ⟨h.route, trivial⟩
  | sync idx results =>
    cases hs
    exact ⟨h.route.advanceSynced (commitOf_le (h.unsynced hstart idx) hr), trivial⟩
  | done => cases hs

lemma FloorInv.now (h : FloorInv start before s) : FloorInv start s.route.synced s :=
  { h with route := { h.route with before_le := fun _ => le_rfl } }

section Steps

variable [DecidableEq ι] [Fintype ι] [DecidableEq κ] [Fintype κ] [DecidableEq ρ]

lemma FloorInv.step {a : SessAct ι κ ρ n} (h : FloorInv start before s) (hstart : ∀ m, -1 ≤ (start m).commitLsn)
    (hs : sessStep s a = some s') : FloorInv start before s' := by
  cases a with
  | reserve i addr len =>
    simp only [sessStep] at hs
    split_ifs at hs
    obtain ⟨plan, -, rfl⟩ := Session.tracks_some hs
    exact h.of_net rfl rfl rfl rfl rfl
  | go i weak =>
    obtain ⟨s₁, ht, rfl⟩ := Option.map_eq_some_iff.mp hs
    obtain ⟨plan, -, rfl⟩ := Session.tracks_some ht
    have hplan : FloorInv start before { s with plan := plan } := h.of_net rfl rfl rfl rfl rfl
    refine hplan.setRoute ?_
    split
    · exact h.route
    · exact h.route.of_same (sameFloor_noteFilled _ _ _)
  | create d =>
    obtain ⟨-, -, sl, -, rfl⟩ := sessStep_create hs
    exact h.setRoute (h.route.of_same ⟨rfl, rfl⟩)
  | issue d bytes =>
    obtain ⟨-, sl, -, rfl⟩ := sessStep_issue hs
    refine h.setWrite ⟨h.route.floored, fun m p hp => ?_⟩
    rcases hp with hp | hp <;> cases hp
  | leg d m a =>
    obtain ⟨w, leg, hw, hl, rfl⟩ := sessStep_leg hs
    exact h.setWrite ((h.writes d w hw).setLeg (((h.writes d w hw).legs m).step hl))
  | deliver d m =>
    obtain ⟨w, hw, -, rfl⟩ := sessStep_deliver hs
    exact h.deliver hw
  | record d m =>
    obtain ⟨w, res, hw, -, -, rfl⟩ := sessStep_record hs
    have hw' := h.writes d w hw
    refine FloorInv.setRoute (h.setWrite (hw'.setLeg ?_)) (h.route.of_same (sameFloor_recordCompletion _ d m _))
    exact hw'.legs m
  | sync d m =>
    obtain ⟨w, l, hw, -, hseen, rfl⟩ := sessStep_sync hs
    have hw' := h.writes d w hw
    refine FloorInv.setRoute (h.setWrite (hw'.setLeg ?_)) (h.route.advanceSynced (hw'.legs m l (Or.inr hseen)))
    exact hw'.legs m
  | resolve i d =>
    obtain ⟨w, oc, plan, -, -, -, -, rfl⟩ := sessStep_resolve hs
    exact h.of_net rfl rfl rfl rfl rfl
  | fold F =>
    simp only [sessStep] at hs
    split_ifs at hs
    cases hs
    exact h.setRoute (h.route.of_same (sameFloor_foldTo _ F))
  | keepAlive m C =>
    rcases sessStep_keepAlive hs with rfl | ⟨-, l, r, hk, rfl⟩
    · exact h
    · obtain ⟨-, rfl, rfl⟩ := MemReplica.doKeepAlive_ok hk
      have hm : FloorInv start before (s.setMember m ((s.net.members m).applyUpTo C)) :=
        h.setMember (advances_applyUpTo _ C)
      refine { hm with beats := fun q C' hC' => ?_ }
      simp only [Function.update_apply] at hC'
      split_ifs at hC' with hq
      · subst hq
        rcases List.mem_cons.mp hC' with rfl | hC'
        · simp [Session.setMember, MemTransport.setMember, MemReplica.peekLsns]
        · exact hm.beats q C' hC'
      · exact hm.beats q C' hC'
  | report m C =>
    simp only [sessStep] at hs
    split_ifs at hs with hC
    cases hs
    exact h.setRoute (h.route.advanceSynced (h.beats m C hC))
  | setUp | setLeader =>
    cases hs
    exact h.of_net rfl rfl rfl rfl rfl
  | request j m upto =>
    simp only [sessStep] at hs
    split at hs <;> cases hs
    exact h.of_net rfl rfl rfl rfl rfl
  | round j =>
    obtain ⟨net, hgo, rfl⟩ := Option.map_eq_some_iff.mp hs
    simp only [MemTransport.goRound] at hgo
    split at hgo <;> cases hgo
    exact h.advance (fun m => advances_roundStep m) rfl rfl rfl rfl
  | drop j =>
    simp only [sessStep] at hs
    split at hs <;> cases hs
    exact h.of_net rfl rfl rfl rfl rfl
  | retire i j =>
    simp only [sessStep] at hs
    split at hs
    case h_2 => cases hs
    case h_1 =>
      obtain ⟨s₁, ht, rfl⟩ := Option.map_eq_some_iff.mp hs
      obtain ⟨plan, -, rfl⟩ := Session.tracks_some ht
      exact h.of_net rfl rfl rfl rfl rfl
  | startRead k addr len =>
    obtain ⟨-, -, plan, -, rfl⟩ := sessStep_startRead hs
    have hread : FloorInv start before (s.setRead k ⟨s.emptied, .plan⟩ .plan) :=
      h.setRead trivial
    exact hread.of_net rfl rfl rfl rfl rfl
  | planRead k =>
    obtain ⟨plan, -, rfl⟩ := Session.tracks_some hs
    exact h.of_net rfl rfl rfl rfl rfl
  | read k rotor =>
    obtain ⟨c, r, route, pc, hc, -, hrs, rfl⟩ := sessStep_read hs
    obtain ⟨hroute, hpc⟩ := h.readStep hstart hc hrs
    exact (h.setRead hpc).setRoute hroute
  | serve k j =>
    obtain ⟨c, r, a, replies, seg, hc, -, hpc, -, -, hans⟩ := sessStep_serve hs
    have hr := h.reads k c hc
    rw [hpc] at hr
    rcases hans with ⟨res, q, hd, rfl⟩ | ⟨e, rfl⟩
    · obtain ⟨-, -, rfl, rfl⟩ := MemReplica.doRead_ok hd
      have hadv := advances_applyUpTo (s.net.members a.target) a.hdr.commitLsn
      refine (h.setMember hadv).setRead ((hr.mono (advances_update hadv)).reply ?_)
      rintro res ⟨⟩
      rw [Function.update_self]
      exact le_rfl
    · exact h.setRead (hr.reply (by rintro res ⟨⟩))
  | fail k j timedOut =>
    obtain ⟨c, a, replies, e, hc, hpc, rfl⟩ := sessStep_fail hs
    have hr := h.reads k c hc
    rw [hpc] at hr
    exact h.setRead (hr.reply (by rintro res ⟨⟩))

lemma FloorInv.run {s₀ : Session ι κ ρ n} (h : FloorInv start before s₀) (hstart : ∀ m, -1 ≤ (start m).commitLsn)
    (hr : Reach sessStep free s₀ s) : FloorInv start before s :=
  hr.invariant (P := FloorInv start before) h fun _ _ _ hi _ hs => hi.step hstart hs

end Steps

end Invariant

/-- What a replica may rely on when it drops the journal up to the floor of a header: the floor is the least of the
commit points reported, every member has committed up to the floor of every header that is made or in flight, and no
member lacks a slot there that it has applied since the login. -/
structure ReclaimSafe (net : MemTransport ρ n) (s : Session ι κ ρ n) : Prop where
  floor : IsFloor s.route
  made : Floored s.net.members s.makeHdr
  writes : ∀ d w, s.writes d = some w → Floored s.net.members w.req.hdr
  reads : ∀ k c hdr, s.reads k = some c → c.pc.hdr = some hdr → Floored s.net.members hdr
  journaled : ∀ m d, (net.members m).commitLsn < d → d ≤ s.route.allCommitted →
    ((s.net.members m).journal.find d).isSome

section Main

variable [NeZero n] [DecidableEq ι] [Fintype ι] [DecidableEq κ] [Fintype κ] [DecidableEq ρ]

theorem reclaim_floor_safe {maxInflight lbaSize : UInt32} {L : ℤ} {net : MemTransport ρ n} {token : UInt64}
    {s t : Session ι κ ρ n} (hnet : ∀ m, -1 ≤ (net.members m).commitLsn)
    (hs : Reach sessStep free (.login maxInflight L lbaSize net token) s) (ht : Reach sessStep free s t) :
    ReclaimSafe net s ∧ s.route.allCommitted ≤ t.route.allCommitted := by
  have h := (floorInv_login hnet).run hnet hs
  have h' := h.now.run hnet ht
  constructor
  · exact {
      floor := h.route.floor
      made := h.route.floored
      writes := fun d w hw => (h.writes d w hw).hdr
      reads := fun k c hdr hc hh => (h.reads k c hc).floored hh
      journaled := fun m d h₁ h₂ => (h.members m).passed d h₁ (h₂.trans (h.route.floored m)) }
  · exact h.route.floor.mono h'.route.floor h'.route.before_le

end Main

section Runs

def commitByte (d : ℤ) (b : UInt8) : List TrioAct :=
  writeByte d b [0, 1, 2] [] [] ++ resolveByte d 11 ++
    (List.finRange 3).flatMap fun m => ([.keepAlive m d, .report m d] : List TrioAct)

theorem reclaim_floor_safe_twoSlots : ∃ s t : Trio, Reach sessStep free trio s ∧ Reach sessStep free s t ∧
    s.route.allCommitted = 0 ∧ t.route.allCommitted = 1 ∧ ReclaimSafe trio.net s ∧
      s.route.allCommitted ≤ t.route.allCommitted := by
  obtain ⟨s, hs, hp⟩ := Reach.exists_of_exec sessStep free trio (commitByte 0 9)
    (fun s => s.route.allCommitted = 0 ∧
      (exec sessStep free s (commitByte 1 8)).any fun t => t.route.allCommitted = 1) (by decide +kernel)
  obtain ⟨hfloor, hp⟩ := of_decide_eq_true hp
  obtain ⟨t, ht, hp⟩ := Reach.exists_of_exec sessStep free s (commitByte 1 8) _ hp
  exact ⟨s, t, hs, ht, hfloor, of_decide_eq_true hp, reclaim_floor_safe (by decide) hs ht⟩

end Runs

end CraftClient.Client
