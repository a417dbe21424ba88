import CraftClient.Lib.StreamTracker
import CraftClient.Lib.IntervalMap
import Mathlib.Data.Fintype.Card
import Mathlib.Data.List.Sort

/-! `read_route_map`: which member may serve a read. -/

namespace CraftClient.Router

variable {n : ℕ}

structure RouteSlot (n : ℕ) where
  dlsn : ℤ
  addr : UInt64
  len : UInt64
  holders : Finset (Fin n)
  completed : Finset (Fin n)
  verdict : Bool
  deriving DecidableEq

structure PendingMiss (n : ℕ) where
  dlsn : ℤ
  held : Finset (Fin n)
  addr : UInt64
  len : UInt64
  deriving DecidableEq

abbrev MissingMap := IntervalMap ℕ ℤ

structure RouteMap (n : ℕ) where
  loginDlsn : ℤ
  overlay : StreamTracker (RouteSlot n)
  miss : Fin n → MissingMap
  synced : Fin n → ℤ
  allCommitted : ℤ
  pending : List (PendingMiss n)
  pendingHint : ℤ
  folded : ℤ
  lastTrunc : ℤ

def kNever : ℤ := 2 ^ 63 - 1
def kTruncBatch : ℤ := 512
def kUnsynced : ℤ := -1

def quorum (n : ℕ) : ℕ := n / 2 + 1

def overlaps (a₀ l₀ a₁ l₁ : UInt64) : Bool := a₀ < a₁ + l₁ && a₁ < a₀ + l₀

/-- The ends of `byte_ivl(a, l)`: the interval `[a, a + l)` with the sum taken in 64 bits. -/
def ivlLo (a : UInt64) : ℕ := a.toNat
def ivlHi (a l : UInt64) : ℕ := (a + l).toNat

namespace RouteSlot

def durable (s : RouteSlot n) : Bool := decide (quorum n ≤ s.holders.card) || s.verdict

def miss (s : RouteSlot n) : PendingMiss n := ⟨s.dlsn, s.holders, s.addr, s.len⟩

def answer (s : RouteSlot n) (idx : Fin n) (acked : Bool) : RouteSlot n :=
  { s with
    holders := if acked then insert idx s.holders else s.holders
    completed := insert idx s.completed }

end RouteSlot

namespace RouteMap

def reset (n : ℕ) (loginDlsn : ℤ) : RouteMap n where
  loginDlsn := loginDlsn
  overlay := .emplace loginDlsn
  miss _ := .empty
  synced _ := kUnsynced
  allCommitted := kUnsynced
  pending := []
  pendingHint := kNever
  folded := loginDlsn
  lastTrunc := loginDlsn

variable (r : RouteMap n)

def create (d : ℤ) (addr len : UInt64) : RouteMap n :=
  { r with overlay := r.overlay.create d ⟨d, addr, len, ∅, ∅, false⟩ }

def pushMiss (e : PendingMiss n) : RouteMap n :=
  { r with pending := r.pending ++ [e], pendingHint := min e.dlsn r.pendingHint }

def recordCompletion (d : ℤ) (idx : Fin n) (acked : Bool) : RouteMap n :=
  match r.overlay.find d with
  | none => r
  | some s =>
    let s' := s.answer idx acked
    let r' := { r with overlay := r.overlay.modify d fun _ => s' }
    if s'.completed ≠ Finset.univ then r'
    else
      let r'' := if quorum n ≤ s'.holders.card ∧ s'.holders ≠ Finset.univ then r'.pushMiss s'.miss
        else r'
      { r'' with overlay := r''.overlay.complete d }

def advanceFolded (target : ℤ) : RouteMap n := { r with folded := max r.folded target }

def maybeTruncate (target : ℤ) : RouteMap n :=
  if kTruncBatch ≤ target - r.lastTrunc then
    { r with lastTrunc := target, overlay := r.overlay.truncate target }
  else r

def batch (target : ℤ) : List (PendingMiss n) := r.pending.filter fun e => e.dlsn ≤ target

def drain (target : ℤ) : RouteMap n :=
  let keep := r.pending.filter fun e => ¬ e.dlsn ≤ target
  { r with
    pending := keep
    pendingHint := keep.foldl (fun h e => min h e.dlsn) kNever }

def applyMiss (miss : Fin n → MissingMap) (e : PendingMiss n) (i : Fin n) : MissingMap :=
  if i ∈ e.held then (miss i).erase (ivlLo e.addr) (ivlHi e.addr e.len)
  else (miss i).set (ivlLo e.addr) (ivlHi e.addr e.len) e.dlsn

def sortBatch (b : List (PendingMiss n)) : List (PendingMiss n) :=
  b.insertionSort fun x y => x.dlsn ≤ y.dlsn

def applyBatch (b : List (PendingMiss n)) : RouteMap n :=
  { r with miss := (sortBatch b).foldl applyMiss r.miss }

def foldTarget (F : ℤ) : ℤ := min F (r.overlay.completedUpto (r.folded + 1))

def foldTo (F : ℤ) : RouteMap n :=
  let target := r.foldTarget F
  if F ≤ r.folded ∨ target ≤ r.folded then r
  else if target < r.pendingHint then (r.advanceFolded target).maybeTruncate target
  else (((r.drain target).applyBatch (r.batch target)).advanceFolded target).maybeTruncate target

def holdsOrSkips (idx : Fin n) (addr len : UInt64) (d : ℤ) : Bool :=
  (r.overlay.find d).all fun s =>
    !s.durable || !(overlaps addr len s.addr s.len && decide (idx ∉ s.holders))

def overlayOk (idx : Fin n) (addr len : UInt64) (Hmax : ℤ) : Bool :=
  (List.range (Hmax - r.folded).toNat).all fun k =>
    r.holdsOrSkips idx addr len (r.folded + 1 + k)

def eligible (idx : Fin n) (addr len : UInt64) (Hmax : ℤ) : Bool :=
  decide (r.loginDlsn ≤ r.synced idx) &&
    !(r.miss idx).intersects (ivlLo addr) (ivlHi addr len) && r.overlayOk idx addr len Hmax

def noteFilled (d : ℤ) (leader : Fin n) : RouteMap n :=
  match r.overlay.find d with
  | none => r
  | some s =>
    let s' := { s with holders := insert leader s.holders, verdict := true }
    let r' := { r with overlay := r.overlay.modify d fun _ => s' }
    if s'.holders ≠ Finset.univ then r'.pushMiss s'.miss else r'

def advanceSynced [NeZero n] (idx : Fin n) (C : ℤ) : RouteMap n :=
  if C ≤ r.synced idx then r
  else
    let synced := Function.update r.synced idx C
    { r with
      synced := synced
      allCommitted := (List.finRange n).foldl (fun floor i => min floor (synced i)) (synced 0)
      miss := Function.update r.miss idx ((r.miss idx).eraseIf fun v => v ≤ C) }

end RouteMap

end CraftClient.Router
