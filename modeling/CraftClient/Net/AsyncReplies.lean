import CraftClient.Lib.Runs
import Mathlib.Data.List.Basic
import Mathlib.Data.UInt

/-! The replies of `craft_async_conn`: who is handed what under a 16-bit request id. -/

namespace CraftClient.Net

open Runs

structure Tag where
  rid : UInt16
  serial : ℕ
  deriving DecidableEq

inductive Landing
  | empty
  | reply (i : ℕ)
  | failed
  deriving DecidableEq

inductive TripPhase
  | sending
  | waiting
  | returned
  deriving DecidableEq

structure RoundTrip where
  rid : UInt16
  slot : Landing
  phase : TripPhase
  deriving DecidableEq

/-- `failing` are the round trips that `fail_all` has still to resume. `requests` and `replies` are those on the
current socket, answered and not. -/
structure ReplyConn where
  nextRid : UInt16
  pending : UInt16 → Option ℕ
  failing : ℕ → Bool
  count : ℕ
  trips : ℕ → Option RoundTrip
  pump : Bool
  requests : List Tag
  replies : List Tag

/-- `sent i reached`: the socket has taken the message of round trip `i` to its end; `reached` unless it is an old
one. `answer x`: the server replies to request `x`. -/
inductive ReplyAct
  | roundTrip
  | sent (i : ℕ) (reached : Bool)
  | sendError (i : ℕ)
  | answer (x : Tag)
  | recv
  | fault
  | failNext (i : ℕ)
  | reconnect

namespace ReplyConn

def new : ReplyConn := ⟨1, fun _ => none, fun _ => false, 0, fun _ => none, false, [], []⟩

variable (s : ReplyConn)

def register : ReplyConn :=
  { s with
    nextRid := if s.nextRid + 1 = 0 then 1 else s.nextRid + 1
    pending := Function.update s.pending s.nextRid (some s.count)
    count := s.count + 1
    trips := Function.update s.trips s.count (some ⟨s.nextRid, .empty, .sending⟩) }

def complete (i : ℕ) (t : RoundTrip) : ReplyConn :=
  { s with
    pending := Function.update s.pending t.rid none
    trips := Function.update s.trips i (some { t with phase := .returned }) }

def fill (i : ℕ) (x : Landing) : ReplyConn :=
  match s.trips i with
  | some t =>
    if t.phase = .waiting then s.complete i { t with slot := x }
    else { s with trips := Function.update s.trips i (some { t with slot := x }) }
  | none => s

end ReplyConn

def replyStep (s : ReplyConn) : ReplyAct → Option ReplyConn
  | .roundTrip => some s.register
  | .sent i reached =>
    match s.trips i with
    | some ⟨rid, x, .sending⟩ =>
      let s' := if reached then { s with requests := s.requests ++ [⟨rid, i⟩] } else s
      some (if x = .empty then { s' with trips := Function.update s.trips i (some ⟨rid, x, .waiting⟩) }
        else s'.complete i ⟨rid, x, .sending⟩)
    | _ => none
  | .sendError i =>
    match s.trips i with
    | some ⟨rid, x, .sending⟩ => some (s.complete i ⟨rid, x, .sending⟩)
    | _ => none
  | .answer x =>
    if x ∈ s.requests then some { s with requests := s.requests.erase x, replies := s.replies ++ [x] } else none
  | .recv =>
    match s.pump, s.replies with
    | true, x :: rest =>
      let s' := { s with replies := rest }
      some (match s.pending x.rid with
        | some i => { s' with pending := Function.update s.pending x.rid none }.fill i (.reply x.serial)
        | none => s')
    | _, _ => none
  | .fault =>
    if s.pump then
      some { s with
        pump := false
        pending := fun _ => none
        failing := fun i => s.failing i || (s.trips i).any fun t => s.pending t.rid = some i
        requests := []
        replies := [] }
    else none
  | .failNext i =>
    if s.failing i then some ({ s with failing := Function.update s.failing i false }.fill i .failed) else none
  | .reconnect => some { s with pump := true, requests := [], replies := [] }

def ridOf (i : ℕ) : UInt16 := .ofNat (i % 65535 + 1)

lemma ridOf_inj {i j : ℕ} (h : ridOf i = ridOf j) : i % 65535 = j % 65535 := by
  have ht := congrArg UInt16.toNat h
  simp only [ridOf, UInt16.toNat_ofNat'] at ht
  omega

lemma ridOf_succ (i : ℕ) : (if ridOf i + 1 = 0 then 1 else ridOf i + 1) = ridOf (i + 1) := by
  by_cases hw : i % 65535 = 65534
  · have hnext : (i + 1) % 65535 = 0 := by omega
    rw [ridOf, ridOf, hw, hnext]
    decide
  · have hnext : (i + 1) % 65535 = i % 65535 + 1 := by omega
    have hsum : ridOf i + 1 = ridOf (i + 1) := by
      rw [ridOf, ridOf, hnext, UInt16.ofNat_add (i % 65535 + 1) 1]
      rfl
    rw [if_neg, hsum]
    intro h0
    have ht := congrArg UInt16.toNat (hsum.symm.trans h0)
    simp only [ridOf, UInt16.toNat_ofNat', UInt16.toNat_zero] at ht
    omega

namespace RoundTrip

def Outstanding (t : RoundTrip) : Prop := t.slot = .empty ∧ t.phase ≠ .returned

instance (t : RoundTrip) : Decidable t.Outstanding := inferInstanceAs (Decidable (_ ∧ _))

end RoundTrip

def ReplyConn.Open (s : ReplyConn) (i : ℕ) : Prop :=
  ((s.trips i).any fun t => t.phase ≠ .returned) = true ∨ ∃ x ∈ s.requests ++ s.replies, x.serial = i

instance (s : ReplyConn) (i : ℕ) : Decidable (s.Open i) := inferInstanceAs (Decidable (_ ∨ _))

/-- A round trip begins while all that are open are among the last 65534. -/
def WithinWindow (s : ReplyConn) : ReplyAct → Prop
  | .roundTrip => ∀ i < s.count, s.Open i → s.count < i + 65535
  | _ => True

instance : ∀ (s : ReplyConn) (a : ReplyAct), Decidable (WithinWindow s a)
  | _, .roundTrip => inferInstanceAs (Decidable (∀ i < _, _))
  | _, .sent .. | _, .sendError _ | _, .answer _ | _, .recv | _, .fault | _, .failNext _ | _, .reconnect =>
    .isTrue trivial

structure ReplyInv (s : ReplyConn) : Prop where
  next : s.nextRid = ridOf s.count
  trips : ∀ i t, s.trips i = some t → i < s.count ∧ t.rid = ridOf i ∧ ∀ j, t.slot = .reply j → j = i
  wire : ∀ x ∈ s.requests ++ s.replies, x.serial < s.count ∧ x.rid = ridOf x.serial
  pending : ∀ r i, s.pending r = some i → ∃ t, s.trips i = some t ∧ t.rid = r ∧ t.Outstanding
  failing : ∀ i, s.failing i = true → (∃ t, s.trips i = some t) ∧ ∀ r, s.pending r ≠ some i
  listed : ∀ i t, s.trips i = some t → t.Outstanding → s.pending t.rid = some i ∨ s.failing i = true
  window : ∀ i, s.Open i → s.count ≤ i + 65535

variable {s s' : ReplyConn} {a : ReplyAct} {i j : ℕ} {t u : RoundTrip}

lemma ReplyConn.open_of_trip (h : s.trips i = some t) (hp : t.phase ≠ .returned) : s.Open i :=
  Or.inl (by rw [h]; exact decide_eq_true hp)

lemma ReplyInv.lt_of_open (h : ReplyInv s) (ho : s.Open i) : i < s.count := by
  rcases ho with ht | ⟨x, hx, rfl⟩
  · obtain ⟨t, ht, -⟩ := (Option.any_eq_true _ _).mp ht
    exact (h.trips i t ht).1
  · exact (h.wire x hx).1

lemma ReplyInv.eq_of_rid (h : ReplyInv s) (hi : s.Open i) (hj : s.Open j) (hr : ridOf i = ridOf j) : i = j := by
  have hmod := ridOf_inj hr
  have hilt := h.lt_of_open hi
  have hjlt := h.lt_of_open hj
  have hiw := h.window i hi
  have hjw := h.window j hj
  omega

lemma ReplyInv.eq_of_trips (h : ReplyInv s) (hi : s.trips i = some t) (hj : s.trips j = some u)
    (ht : t.phase ≠ .returned) (hu : u.phase ≠ .returned) (hr : t.rid = u.rid) : i = j := by
  apply h.eq_of_rid (ReplyConn.open_of_trip hi ht) (ReplyConn.open_of_trip hj hu)
  rw [← (h.trips i t hi).2.1, ← (h.trips j u hj).2.1, hr]

structure Around (s s₀ : ReplyConn) (i : ℕ) (u : RoundTrip) : Prop where
  next : s₀.nextRid = s.nextRid
  count : s₀.count = s.count
  trips : s₀.trips = s.trips
  wire : ∀ x ∈ s₀.requests ++ s₀.replies, x ∈ s.requests ++ s.replies ∨ u.phase ≠ .returned ∧ x = ⟨u.rid, i⟩
  pending : ∀ r j, s₀.pending r = some j → s.pending r = some j
  kept : ∀ r j, j ≠ i → s.pending r = some j → s₀.pending r = some j
  failing : ∀ j, j ≠ i → s₀.failing j = s.failing j
  fail : s₀.failing i = true → s.failing i = true

lemma Around.refl (s : ReplyConn) (i : ℕ) (u : RoundTrip) : Around s s i u :=
  ⟨rfl, rfl, rfl, fun _ hx => Or.inl hx, fun _ _ hp => hp, fun _ _ _ hp => hp, fun _ _ => rfl, fun hf => hf⟩

variable {s₀ : ReplyConn}

lemma ReplyInv.moved (h : ReplyInv s) (ha : Around s s₀ i u) (hi : s.trips i = some u)
    (hrid : t.rid = u.rid) (hphase : u.phase = .returned → t.phase = .returned)
    (hslot : ∀ j, t.slot = .reply j → j = i) {p : UInt16 → Option ℕ}
    (hp : ∀ r j, p r = some j → s₀.pending r = some j ∧ (j = i → t.Outstanding))
    (hk : ∀ r j, j ≠ i → s₀.pending r = some j → p r = some j)
    (hlisted : t.Outstanding → p t.rid = some i ∨ s₀.failing i = true) :
    ReplyInv { s₀ with trips := Function.update s₀.trips i (some t), pending := p } := by
  have hru := (h.trips i u hi).2.1
  have hself : Function.update s₀.trips i (some t) i = some t := Function.update_self ..
  have hne : ∀ j, j ≠ i → Function.update s₀.trips i (some t) j = s.trips j := by
    intro j hj
    rw [Function.update_of_ne hj, ha.trips]
  have hold : ∀ x ∈ s₀.requests ++ s₀.replies, s.Open x.serial ∧ x.rid = ridOf x.serial := by
    intro x hx
    rcases ha.wire x hx with hx | ⟨hu, rfl⟩
    · exact ⟨Or.inr ⟨x, hx, rfl⟩, (h.wire x hx).2⟩
    · exact ⟨ReplyConn.open_of_trip hi hu, hru⟩
  refine ⟨?_, fun j v hv => ?_, fun x hx => ?_, fun r j hr => ?_, fun j hf => ?_, fun j v hv ho => ?_, fun j ho => ?_⟩
  · exact ha.next.trans (h.next.trans (congrArg ridOf ha.count.symm))
  · dsimp only at hv ⊢
    rw [ha.count]
    rcases eq_or_ne j i with rfl | hj
    · cases hself.symm.trans hv
      exact ⟨(h.trips j u hi).1, hrid.trans hru, hslot⟩
    · exact h.trips j v (hne j hj ▸ hv)
  · exact ⟨ha.count ▸ h.lt_of_open (hold x hx).1, (hold x hx).2⟩
  · obtain ⟨hr, ho⟩ := hp r j hr
    obtain ⟨v, hv, hrv, hout⟩ := h.pending r j (ha.pending r j hr)
    rcases eq_or_ne j i with rfl | hj
    · cases hi.symm.trans hv
      exact ⟨t, hself, hrid.trans hrv, ho rfl⟩
    · exact ⟨v, (hne j hj).trans hv, hrv, hout⟩
  · have hf' : s.failing j = true := by
      rcases eq_or_ne j i with rfl | hj
      · exact ha.fail hf
      · exact ha.failing j hj ▸ hf
    obtain ⟨⟨v, hv⟩, hoff⟩ := h.failing j hf'
    refine ⟨?_, fun r hr => hoff r (ha.pending r j (hp r j hr).1)⟩
    rcases eq_or_ne j i with rfl | hj
    · exact ⟨t, hself⟩
    · exact ⟨v, (hne j hj).trans hv⟩
  · rcases eq_or_ne j i with rfl | hj
    · cases hself.symm.trans hv
      exact hlisted ho
    · dsimp only
      rw [ha.failing j hj]
      exact (h.listed j v (hne j hj ▸ hv) ho).imp_left fun hr => hk _ j hj (ha.kept _ j hj hr)
  · dsimp only
    rw [ha.count]
    apply h.window j
    rcases ho with ht | ⟨x, hx, rfl⟩
    · obtain ⟨v, hv, hph⟩ := (Option.any_eq_true _ _).mp ht
      rcases eq_or_ne j i with rfl | hj
      · cases hself.symm.trans hv
        exact ReplyConn.open_of_trip hi fun hret => of_decide_eq_true hph (hphase hret)
      · exact ReplyConn.open_of_trip (hne j hj ▸ hv) (of_decide_eq_true hph)
    · exact (hold x hx).1

lemma ReplyInv.complete (h : ReplyInv s) (ha : Around s s₀ i u) (hi : s.trips i = some u) (hu : u.phase ≠ .returned)
    (hrid : t.rid = u.rid) (hslot : ∀ j, t.slot = .reply j → j = i) : ReplyInv (s₀.complete i t) := by
  have hown : ∀ r j, s.pending r = some j → (r = t.rid ↔ j = i) := by
    intro r j hr
    obtain ⟨v, hv, hrv, -, hph⟩ := h.pending r j hr
    constructor
    · intro hrt
      exact h.eq_of_trips hv hi hph hu (hrv.trans (hrt.trans hrid))
    · rintro rfl
      cases hi.symm.trans hv
      exact hrv.symm.trans hrid.symm
  refine h.moved (t := { t with phase := .returned }) ha hi hrid (fun _ => rfl) hslot (fun r j hr => ?_)
    (fun r j hj hr => ?_) fun ho => absurd rfl ho.2
  · rw [Function.update_apply] at hr
    split_ifs at hr with hrt
    exact ⟨hr, fun hj => absurd ((hown r j (ha.pending r j hr)).mpr hj) hrt⟩
  · rw [Function.update_of_ne, hr]
    exact fun hrt => hj ((hown r j (ha.pending r j hr)).mp hrt)

lemma ReplyInv.fill {x : Landing} (h : ReplyInv s) (ha : Around s s₀ i u) (hi : s.trips i = some u)
    (hoff : ∀ r, s₀.pending r ≠ some i) (hx : x ≠ .empty) (hslot : ∀ j, x = .reply j → j = i) :
    ReplyInv (s₀.fill i x) := by
  have hi₀ : s₀.trips i = some u := ha.trips ▸ hi
  simp only [ReplyConn.fill, hi₀]
  split_ifs with hw
  · exact h.complete ha hi (by rw [hw]; nofun) rfl hslot
  · refine h.moved (t := { u with slot := x }) ha hi rfl id hslot (fun r j hr => ⟨hr, fun hj => ?_⟩)
      (fun _ _ _ hr => hr) fun ho => absurd ho.1 hx
    exact absurd (hj ▸ hr) (hoff r)

lemma ReplyInv.of_wire (h : ReplyInv s) {requests replies : List Tag}
    (hw : ∀ x ∈ requests ++ replies, x ∈ s.requests ++ s.replies) (pump : Bool) :
    ReplyInv { s with requests := requests, replies := replies, pump := pump } :=
  { h with
    wire := fun x hx => h.wire x (hw x hx)
    window := fun i ho => h.window i (ho.imp_right fun ⟨x, hx, hi⟩ => ⟨x, hw x hx, hi⟩) }

lemma ReplyInv.register (h : ReplyInv s) (hw : WithinWindow s .roundTrip) : ReplyInv s.register := by
  have hself : s.register.trips s.count = some ⟨s.nextRid, .empty, .sending⟩ := Function.update_self ..
  have hne : ∀ j, j ≠ s.count → s.register.trips j = s.trips j := fun j hj => Function.update_of_ne hj _ _
  have hfree : ∀ j v, s.trips j = some v → v.phase ≠ .returned → v.rid ≠ s.nextRid := by
    intro j v hv hph hr
    have hlt := (h.trips j v hv).1
    have hjw := hw j hlt (ReplyConn.open_of_trip hv hph)
    have hmod := ridOf_inj ((h.trips j v hv).2.1.symm.trans (hr.trans h.next))
    omega
  refine ⟨?_, fun j v hv => ?_, fun x hx => ?_, fun r j hr => ?_, fun j hf => ?_, fun j v hv ho => ?_, fun j ho => ?_⟩
  · simp only [ReplyConn.register, h.next]
    exact ridOf_succ s.count
  · rcases eq_or_ne j s.count with rfl | hj
    · cases hself.symm.trans hv
      exact ⟨Nat.lt_succ_self _, h.next, nofun⟩
    · exact ⟨Nat.lt_succ_of_lt (h.trips j v (hne j hj ▸ hv)).1, (h.trips j v (hne j hj ▸ hv)).2⟩
  · exact ⟨Nat.lt_succ_of_lt (h.wire x hx).1, (h.wire x hx).2⟩
  · simp only [ReplyConn.register, Function.update_apply] at hr
    split_ifs at hr with hn
    · cases hr
      exact ⟨_, hself, hn.symm, rfl, nofun⟩
    · obtain ⟨v, hv, hrv, ho⟩ := h.pending r j hr
      exact ⟨v, (hne j (h.trips j v hv).1.ne).trans hv, hrv, ho⟩
  · obtain ⟨⟨v, hv⟩, hoff⟩ := h.failing j hf
    have hlt := (h.trips j v hv).1
    refine ⟨⟨v, (hne j hlt.ne).trans hv⟩, fun r hr => ?_⟩
    simp only [ReplyConn.register, Function.update_apply] at hr
    split_ifs at hr with hn
    · exact hlt.ne' (Option.some.inj hr)
    · exact hoff r hr
  · rcases eq_or_ne j s.count with rfl | hj
    · cases hself.symm.trans hv
      exact Or.inl (Function.update_self ..)
    · rw [hne j hj] at hv
      exact (h.listed j v hv ho).imp_left fun hr => (Function.update_of_ne (hfree j v hv ho.2) _ _).trans hr
  · rcases eq_or_ne j s.count with rfl | hj
    · exact Nat.add_le_add_left (by decide) _
    · have ho : s.Open j := ho.imp_left fun ht => hne j hj ▸ ht
      exact hw j (h.lt_of_open ho) ho

lemma ReplyInv.fault (h : ReplyInv s) :
    ReplyInv { s with
      pump := false
      pending := fun _ => none
      failing := fun i => s.failing i || (s.trips i).any fun t => s.pending t.rid = some i
      requests := []
      replies := [] } := by
  refine ⟨h.next, h.trips, nofun, nofun, fun j hf => ⟨?_, nofun⟩, fun j v hv ho => Or.inr ?_, fun j ho => ?_⟩
  · rcases Bool.or_eq_true_iff.mp hf with hf | ht
    · exact (h.failing j hf).1
    · obtain ⟨v, hv, -⟩ := (Option.any_eq_true _ _).mp ht
      exact ⟨v, hv⟩
  · apply Bool.or_eq_true_iff.mpr
    rcases h.listed j v hv ho with hr | hf
    · exact Or.inr ((Option.any_eq_true _ _).mpr ⟨v, hv, decide_eq_true hr⟩)
    · exact Or.inl hf
  · exact h.window j (Or.inl (ho.resolve_right nofun))

lemma ReplyInv.recv {x : Tag} {rest : List Tag} (h : ReplyInv s) (hx : s.replies = x :: rest)
    (hj : s.pending x.rid = some j) :
    ReplyInv ({ s with replies := rest, pending := Function.update s.pending x.rid none }.fill j
      (.reply x.serial)) := by
  obtain ⟨u, hu, hr, ho⟩ := h.pending x.rid j hj
  have hmem : x ∈ s.requests ++ s.replies := by simp [hx]
  have hown : x.serial = j := by
    apply h.eq_of_rid (Or.inr ⟨x, hmem, rfl⟩) (ReplyConn.open_of_trip hu ho.2)
    rw [← (h.wire x hmem).2, ← hr, (h.trips j u hu).2.1]
  have hnone : ∀ r, Function.update s.pending x.rid none r ≠ some j := by
    intro r hp
    rw [Function.update_apply] at hp
    split_ifs at hp with hrx
    obtain ⟨v, hv, hrv, -⟩ := h.pending r j hp
    cases hu.symm.trans hv
    exact hrx (hrv.symm.trans hr)
  refine h.fill (u := u) ⟨rfl, rfl, rfl, fun y hy => Or.inl ?_, fun r k hp => ?_, fun r k hk hp => ?_, fun _ _ => rfl,
    id⟩ hu hnone nofun fun k hk => (Landing.reply.inj hk).symm.trans hown
  · rw [hx]
    exact List.mem_append.mpr ((List.mem_append.mp hy).imp_right (List.mem_cons_of_mem x))
  · dsimp only at hp
    rw [Function.update_apply] at hp
    split_ifs at hp
    exact hp
  · refine (Function.update_of_ne (fun hrx => hk ?_) _ _).trans hp
    exact Option.some.inj (hp.symm.trans (hrx ▸ hj))

lemma ReplyInv.failNext (h : ReplyInv s) (hf : s.failing i = true) :
    ReplyInv ({ s with failing := Function.update s.failing i false }.fill i .failed) := by
  obtain ⟨⟨u, hu⟩, hoff⟩ := h.failing i hf
  exact h.fill ⟨rfl, rfl, rfl, fun _ hx => Or.inl hx, fun _ _ hp => hp, fun _ _ _ hp => hp,
    fun j hj => Function.update_of_ne hj _ _, fun _ => hf⟩ hu hoff nofun nofun

lemma Around.sent (hu : u.phase ≠ .returned) (reached : Bool) :
    Around s (if reached then { s with requests := s.requests ++ [⟨u.rid, i⟩] } else s) i u := by
  cases reached with
  | false => exact .refl s i u
  | true =>
    refine { Around.refl s i u with wire := fun x hx => ?_ }
    simp only [if_true, List.append_assoc, List.mem_append, List.mem_singleton] at hx ⊢
    tauto

lemma ReplyInv.sent {rid : UInt16} {x : Landing} (h : ReplyInv s) (ha : Around s s₀ i ⟨rid, x, .sending⟩)
    (hp : s₀.pending = s.pending) (hf : s₀.failing = s.failing) (hi : s.trips i = some ⟨rid, x, .sending⟩) :
    ReplyInv (if x = .empty then { s₀ with trips := Function.update s.trips i (some ⟨rid, x, .waiting⟩) }
      else s₀.complete i ⟨rid, x, .sending⟩) := by
  have hslot := (h.trips i _ hi).2.2
  split_ifs with hx
  · have ho : RoundTrip.Outstanding ⟨rid, x, .waiting⟩ := ⟨hx, nofun⟩
    rw [← ha.trips]
    refine h.moved (t := ⟨rid, x, .waiting⟩) ha hi rfl nofun hslot (fun r j hr => ⟨hr, fun _ => ho⟩)
      (fun _ _ _ hr => hr) fun _ => ?_
    have hl := h.listed i _ hi ⟨hx, nofun⟩
    rwa [hp, hf]
  · exact h.complete ha hi nofun rfl hslot

lemma ReplyInv.step (h : ReplyInv s) (hw : WithinWindow s a) (hs : replyStep s a = some s') : ReplyInv s' := by
  cases a with
  | roundTrip =>
    cases hs
    exact h.register hw
  | sent i reached =>
    simp only [replyStep] at hs
    split at hs
    next rid x hi =>
      cases hs
      have hu : (⟨rid, x, .sending⟩ : RoundTrip).phase ≠ .returned := nofun
      exact h.sent (.sent hu reached) (by cases reached <;> rfl) (by cases reached <;> rfl) hi
    next => cases hs
  | sendError i =>
    simp only [replyStep] at hs
    split at hs
    next rid x hi =>
      cases hs
      exact h.complete (.refl s i _) hi nofun rfl (h.trips i _ hi).2.2
    next => cases hs
  | answer x =>
    simp only [replyStep] at hs
    split_ifs at hs with hx
    cases hs
    refine h.of_wire (fun y hy => ?_) s.pump
    simp only [List.mem_append, List.mem_singleton] at hy ⊢
    rcases hy with hy | hy | rfl
    · exact Or.inl (List.mem_of_mem_erase hy)
    · exact Or.inr hy
    · exact Or.inl hx
  | recv =>
    simp only [replyStep] at hs
    split at hs
    next x rest hp hx =>
      cases hs
      cases hj : s.pending x.rid with
      | none =>
        refine h.of_wire (fun y hy => ?_) s.pump
        rw [hx]
        exact List.mem_append.mpr ((List.mem_append.mp hy).imp_right (List.mem_cons_of_mem x))
      | some j => exact h.recv hx hj
    next => cases hs
  | fault =>
    simp only [replyStep] at hs
    split_ifs at hs
    cases hs
    exact h.fault
  | failNext i =>
    simp only [replyStep] at hs
    split_ifs at hs with hf
    cases hs
    exact h.failNext hf
  | reconnect =>
    cases hs
    exact h.of_wire (fun _ hx => absurd hx List.not_mem_nil) true

lemma ReplyInv.new : ReplyInv .new :=
  ⟨rfl, nofun, nofun, nofun, nofun, nofun, fun _ ho => ho.elim nofun nofun⟩

structure OneWaits (s : ReplyConn) (k : ℕ) : Prop where
  next : s.nextRid = ridOf (k + 2)
  count : s.count = k + 2
  stuck : s.trips 1 = some ⟨2, .empty, .waiting⟩
  pump : s.pump = true
  requests : s.requests = [⟨2, 1⟩]
  replies : s.replies = []

structure BothWait (s : ReplyConn) (k : ℕ) : Prop where
  next : s.nextRid = ridOf (k + 3)
  count : s.count = k + 3
  stuck : s.trips 1 = some ⟨2, .empty, .waiting⟩
  last : s.trips (k + 2) = some ⟨ridOf (k + 2), .empty, .waiting⟩
  pending : s.pending (ridOf (k + 2)) = some (k + 2)
  pump : s.pump = true
  requests : s.requests = [⟨2, 1⟩, ⟨ridOf (k + 2), k + 2⟩]
  replies : s.replies = []

variable {k : ℕ}

lemma replyStep_sent {rid : UInt16} (hi : s.trips i = some ⟨rid, .empty, .sending⟩) :
    replyStep s (.sent i true) = some { s with
      requests := s.requests ++ [⟨rid, i⟩]
      trips := Function.update s.trips i (some ⟨rid, .empty, .waiting⟩) } := by
  simp [replyStep, hi]

lemma replyStep_recv {rid : UInt16} {x : Tag} {rest : List Tag} (hp : s.pump = true) (hx : s.replies = x :: rest)
    (hi : s.pending x.rid = some i) (ht : s.trips i = some ⟨rid, .empty, .waiting⟩) :
    replyStep s .recv = some { s with
      replies := rest
      pending := Function.update (Function.update s.pending x.rid none) rid none
      trips := Function.update s.trips i (some ⟨rid, .reply x.serial, .returned⟩) } := by
  simp [replyStep, ReplyConn.fill, ReplyConn.complete, hp, hx, hi, ht]

lemma OneWaits.sends (h : OneWaits s k) : ∃ t, Reach replyStep free s t ∧ BothWait t k := by
  have hlast : s.register.trips (k + 2) = some ⟨ridOf (k + 2), .empty, .sending⟩ := by
    rw [← h.next, ← h.count]
    exact Function.update_self ..
  have hstuck : s.register.trips 1 = some ⟨2, .empty, .waiting⟩ := by
    rw [← h.stuck]
    exact Function.update_of_ne (by rw [h.count]; omega) _ _
  refine ⟨_, (Reach.next (a := .roundTrip) .refl trivial rfl).next trivial (replyStep_sent hlast), ?_⟩
  refine ⟨?_, congrArg Nat.succ h.count, ?_, Function.update_self .., ?_, h.pump, ?_, h.replies⟩
  · simp only [ReplyConn.register, h.next]
    exact ridOf_succ (k + 2)
  · dsimp only
    rw [Function.update_of_ne (by omega : 1 ≠ k + 2), hstuck]
  · rw [← h.next, ← h.count]
    exact Function.update_self ..
  · exact congrArg (· ++ _) h.requests

lemma BothWait.answers {x : Tag} (h : BothWait s k) (hx : x ∈ s.requests) (hr : x.rid = ridOf (k + 2)) :
    ∃ t, Reach replyStep free s t ∧ t.nextRid = s.nextRid ∧ t.count = s.count ∧ t.pump = s.pump ∧
      t.requests = s.requests.erase x ∧ t.replies = [] ∧
      t.trips = Function.update s.trips (k + 2) (some ⟨x.rid, .reply x.serial, .returned⟩) := by
  have hi : s.pending x.rid = some (k + 2) := hr ▸ h.pending
  have ht : s.trips (k + 2) = some ⟨x.rid, .empty, .waiting⟩ := hr ▸ h.last
  have hq : s.replies ++ [x] = [x] := by rw [h.replies, List.nil_append]
  have ha : replyStep s (.answer x) = some { s with
      requests := s.requests.erase x
      replies := s.replies ++ [x] } := if_pos hx
  refine ⟨_, (Reach.next .refl trivial ha).next trivial (replyStep_recv (x := x) ?_ hq hi ht), ?_⟩
  · exact h.pump
  exact ⟨rfl, rfl, rfl, rfl, rfl, rfl⟩

lemma OneWaits.succ (h : OneWaits s k) : ∃ t, Reach replyStep free s t ∧ OneWaits t (k + 1) := by
  obtain ⟨t, hst, ht⟩ := h.sends
  obtain ⟨u, htu, hn, hc, hp, hq, hr, hu⟩ := ht.answers (x := ⟨ridOf (k + 2), k + 2⟩) (by simp [ht.requests]) rfl
  refine ⟨u, hst.trans htu, hn.trans ht.next, hc.trans ht.count, ?_, hp.trans ht.pump, ?_, hr⟩
  · rw [hu, Function.update_of_ne (by omega : 1 ≠ k + 2), ht.stuck]
  · simp [hq, ht.requests]

end CraftClient.Net
