import CraftClient.Status
import CraftClient.Tracker.Steps

/-! Failed writes and the resolution rounds they ask for. -/

namespace CraftClient.Client

open Tracker

inductive Writer (n : ℕ)
  | idle
  | reserving (d : ℤ)
  | inFlight (d : ℤ)
  | resolving (d : ℤ) (oc : SlotOutcome)
  | noteLoad (d : ℤ)
  | noteCas (d w : ℤ)
  | fire (rest : List (Fin n))
  deriving DecidableEq

inductive RoundLeg
  | peek
  | requested (want : ℤ)
  | retiring (upto : ℤ)
  | clearLoad (upto : ℤ)
  | clearCas (upto w : ℤ)
  | ending
  | recheck
  | tryBegin
  | failed
  deriving DecidableEq

/-- `want` is `resolve_want_` and `inflight` the flags `rr_inflight_`. -/
structure WantSys (ω lg : Type) (n : ℕ) where
  sys : Sys (ω ⊕ lg)
  want : ℤ
  inflight : Fin n → Bool
  writers : ω → Writer n
  legs : lg → Option (Fin n × RoundLeg)

inductive WantAct (ω lg : Type)
  | write (i : ω) (addr len : UInt64)
  | complete (i : ω) (oc : SlotOutcome)
  | go (k : ω ⊕ lg) (weak : Bool)
  | note (i : ω) (weak : Bool)
  | fire (i : ω) (j : lg)
  | leg (j : lg) (weak : Bool)
  | reply (j : lg) (res : Option ResolutionResult)

variable {ω lg : Type} {n : ℕ}

namespace WantSys

def login (n : ℕ) (maxInflight : UInt32) (L : ℤ) (lbaSize : UInt32) : WantSys ω lg n :=
  ⟨.start (resetAt maxInflight L lbaSize), -1, fun _ => false, fun _ => .idle, fun _ => none⟩

variable [DecidableEq ω] [DecidableEq lg]

def setWriter (s : WantSys ω lg n) (i : ω) (w : Writer n) : WantSys ω lg n :=
  { s with writers := Function.update s.writers i w }

def setLeg (s : WantSys ω lg n) (j : lg) (l : Option (Fin n × RoundLeg)) : WantSys ω lg n :=
  { s with legs := Function.update s.legs j l }

def setFlag (s : WantSys ω lg n) (m : Fin n) (b : Bool) : WantSys ω lg n :=
  { s with inflight := Function.update s.inflight m b }

def returned (s : WantSys ω lg n) : ω ⊕ lg → WantSys ω lg n
  | .inl i =>
    match s.writers i with
    | .reserving d => s.setWriter i (.inFlight d)
    | .resolving d oc => s.setWriter i (if oc = .failed then .noteLoad d else .idle)
    | _ => s
  | .inr j =>
    match s.legs j with
    | some (m, .retiring upto) => s.setLeg j (some (m, .clearLoad upto))
    | _ => s

variable [Fintype ω] [Fintype lg]

def call (s : WantSys ω lg n) (k : ω ⊕ lg) (c : Call) : Option (WantSys ω lg n) :=
  (step false s.sys (.call k c)).map fun sys => { s with sys := sys }

end WantSys

def noteStep (s : WantSys ω lg n) (weak : Bool) : Writer n → Option (ℤ × Writer n)
  | .noteLoad d => some (s.want, .noteCas d s.want)
  | .noteCas d w =>
    if d ≤ w then some (s.want, .fire (List.finRange n))
    else if weak ∨ s.want ≠ w then some (s.want, .noteCas d s.want)
    else some (d, .fire (List.finRange n))
  | _ => none

variable [DecidableEq ω] [DecidableEq lg]

def roundLegStep (s : WantSys ω lg n) (j : lg) (weak : Bool) (m : Fin n) : RoundLeg → Option (WantSys ω lg n)
  | .peek => some (s.setLeg j (some (m, if s.want < 0 then .ending else .requested s.want)))
  | .clearLoad upto => some (s.setLeg j (some (m, .clearCas upto s.want)))
  | .clearCas upto w =>
    if w < 0 ∨ upto < w then some (s.setLeg j (some (m, .peek)))
    else if weak ∨ s.want ≠ w then some (s.setLeg j (some (m, .clearCas upto s.want)))
    else some { s.setLeg j (some (m, .peek)) with want := -1 }
  | .ending => some ((s.setFlag m false).setLeg j (some (m, .recheck)))
  | .recheck => some (s.setLeg j (if s.want < 0 then none else some (m, .tryBegin)))
  | .tryBegin =>
    if s.inflight m then some (s.setLeg j none) else some ((s.setFlag m true).setLeg j (some (m, .peek)))
  | .failed => some ((s.setFlag m false).setLeg j none)
  | .requested _ | .retiring _ => none

variable [Fintype ω] [Fintype lg]

def wantStep (s : WantSys ω lg n) : WantAct ω lg → Option (WantSys ω lg n)
  | .write i addr len =>
    if s.writers i = .idle then
      (s.call (.inl i) (.reserve addr len)).map (·.setWriter i (.reserving s.sys.trk.nextDlsn))
    else none
  | .complete i oc =>
    match s.writers i with
    | .inFlight d =>
      if oc = .inFlight then none
      else (s.call (.inl i) (.resolve d oc)).map (·.setWriter i (.resolving d oc))
    | _ => none
  | .go k weak =>
    (step false s.sys (.go k weak)).map fun sys =>
      if sys.threads k = .idle then { s with sys := sys }.returned k else { s with sys := sys }
  | .note i weak =>
    (noteStep s weak (s.writers i)).map fun x => { s.setWriter i x.2 with want := x.1 }
  | .fire i j =>
    match s.writers i with
    | .fire [] => some (s.setWriter i .idle)
    | .fire (m :: rest) =>
      if s.inflight m then some (s.setWriter i (.fire rest))
      else if (s.legs j).isSome then none
      else some (((s.setFlag m true).setLeg j (some (m, .peek))).setWriter i (.fire rest))
    | _ => none
  | .leg j weak =>
    match s.legs j with
    | some (m, l) => roundLegStep s j weak m l
    | none => none
  | .reply j res =>
    match s.legs j with
    | some (m, .requested _) =>
      match res with
      | none => some (s.setLeg j (some (m, .failed)))
      | some r => (s.call (.inr j) (.retireUpto r.resolvedUpto r.emptySlots)).map
          (·.setLeg j (some (m, .retiring r.resolvedUpto)))
    | _ => none

end CraftClient.Client
