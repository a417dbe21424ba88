import CraftClient.Router.Eligible

/-! The route map's operations cut where they publish; `pending_mu_` and `map_mu_` each guard a single step. -/

namespace CraftClient.Router

variable {n : ℕ} {ι κ : Type}

inductive TierThread (n : ℕ)
  | idle
  | holders (d : ℤ) (idx : Fin n) (acked : Bool) | completed (d : ℤ) (idx : Fin n)
  | push (d : ℤ) | mark (d : ℤ)
  | foldLoad (F : ℤ) | foldScan (F cur : ℤ) | foldHint (F target : ℤ)
  | foldLock (F : ℤ) | foldReload (F : ℤ) | foldRescan (F cur : ℤ)
  | foldDrain (target : ℤ) | foldApply (batch : List (PendingMiss n)) (target : ℤ)
  | advance (target : ℤ) (locked : Bool) | truncate (target : ℤ) (locked : Bool)
  | syncLoad (idx : Fin n) (C : ℤ) | syncLock (idx : Fin n) (C : ℤ)
  | syncStore (idx : Fin n) (C : ℤ) | syncErase (idx : Fin n) (C : ℤ)
  deriving DecidableEq

inductive EligiblePc
  | synced | missMap | overlay | result (ok : Bool)
  deriving DecidableEq, Repr

structure EligibleCall (n : ℕ) where
  idx : Fin n
  addr : UInt64
  len : UInt64
  Hmax : ℤ
  startDone : Finset ℤ
  pc : EligiblePc

/-- The map between two steps. `mapped` is the target of the last batch that was applied, `drained` the
batch that has left `pending` and is not applied yet; the code keeps neither. -/
structure Tiers (n : ℕ) where
  route : RouteMap n
  mapped : ℤ
  drained : List (PendingMiss n)

structure TierSys (ι κ : Type) (n : ℕ) where
  tiers : Tiers n
  foldMu : Option ι
  threads : ι → TierThread n
  started : Finset (ℤ × Fin n)
  calls : κ → Option (EligibleCall n)

def TierSys.reset (n : ℕ) (L : ℤ) : TierSys ι κ n :=
  ⟨⟨.reset n L, L, []⟩, none, fun _ => .idle, ∅, fun _ => none⟩

namespace RouteMap

variable (r : RouteMap n)

def addHolder (d : ℤ) (idx : Fin n) : RouteMap n :=
  { r with overlay := r.overlay.modify d fun s => { s with holders := insert idx s.holders } }

def addCompleted (d : ℤ) (idx : Fin n) : RouteMap n :=
  { r with overlay := r.overlay.modify d fun s => { s with completed := insert idx s.completed } }

def pushSlot (s : RouteSlot n) : RouteMap n :=
  if quorum n ≤ s.holders.card ∧ s.holders ≠ Finset.univ then r.pushMiss s.miss else r

def markComplete (d : ℤ) : RouteMap n := { r with overlay := r.overlay.complete d }

def storeSynced [NeZero n] (idx : Fin n) (C : ℤ) : RouteMap n :=
  let synced := Function.update r.synced idx C
  { r with
    synced := synced
    allCommitted := (List.finRange n).foldl (fun floor i => min floor (synced i)) (synced 0) }

def eraseApplied (idx : Fin n) (C : ℤ) : RouteMap n :=
  { r with miss := Function.update r.miss idx ((r.miss idx).eraseIf fun v => v ≤ C) }

end RouteMap

variable [NeZero n]

structure TierMove (ι : Type) (n : ℕ) where
  tiers : Tiers n
  foldMu : Option ι
  thread : TierThread n

def Tiers.on (t : Tiers n) (f : RouteMap n → RouteMap n) : Tiers n := { t with route := f t.route }

def tierMove (t : Tiers n) (mu : Option ι) (i : ι) : TierThread n → Option (TierMove ι n)
  | .idle => none
  | .holders d idx acked =>
    if (t.route.overlay.find d).isNone then some ⟨t, mu, .idle⟩
    else some ⟨if acked then t.on (·.addHolder d idx) else t, mu, .completed d idx⟩
  | .completed d idx =>
    let t' := t.on (·.addCompleted d idx)
    some ⟨t', mu,
      if (t'.route.overlay.data d).any fun s => s.completed = Finset.univ then .push d else .idle⟩
  | .push d => (t.route.overlay.data d).map fun s => ⟨t.on (·.pushSlot s), mu, .mark d⟩
  | .mark d => some ⟨t.on (·.markComplete d), mu, .idle⟩
  | .foldLoad F => some ⟨t, mu, if F ≤ t.route.folded then .idle else .foldScan F t.route.folded⟩
  | .foldScan F cur =>
    let target := min F (t.route.overlay.completedUpto (cur + 1))
    some ⟨t, mu, if target ≤ cur then .idle else .foldHint F target⟩
  | .foldHint F target =>
    some ⟨t, mu, if target < t.route.pendingHint then .advance target false else .foldLock F⟩
  | .foldLock F => if mu.isNone then some ⟨t, some i, .foldReload F⟩ else none
  | .foldReload F => some ⟨t, mu, .foldRescan F t.route.folded⟩
  | .foldRescan F cur =>
    let target := min F (t.route.overlay.completedUpto (cur + 1))
    if target ≤ cur then some ⟨t, none, .idle⟩ else some ⟨t, mu, .foldDrain target⟩
  | .foldDrain target =>
    some ⟨{ t with route := t.route.drain target, drained := t.route.batch target }, mu,
      .foldApply (t.route.batch target) target⟩
  | .foldApply batch target =>
    some ⟨⟨t.route.applyBatch batch, target, []⟩, mu, .advance target true⟩
  | .advance target locked => some ⟨t.on (·.advanceFolded target), mu, .truncate target locked⟩
  | .truncate target locked =>
    some ⟨t.on (·.maybeTruncate target), if locked then none else mu, .idle⟩
  | .syncLoad idx C => some ⟨t, mu, if C ≤ t.route.synced idx then .idle else .syncLock idx C⟩
  | .syncLock idx C => if mu.isNone then some ⟨t, some i, .syncStore idx C⟩ else none
  | .syncStore idx C =>
    if C ≤ t.route.synced idx then some ⟨t, none, .idle⟩
    else some ⟨t.on (·.storeSynced idx C), mu, .syncErase idx C⟩
  | .syncErase idx C => some ⟨t.on (·.eraseApplied idx C), none, .idle⟩

def lookStep (r : RouteMap n) (c : EligibleCall n) : Option EligiblePc :=
  match c.pc with
  | .synced => some (if r.synced c.idx < r.loginDlsn then .result false else .missMap)
  | .missMap =>
    some (if (r.miss c.idx).intersects (ivlLo c.addr) (ivlHi c.addr c.len) then .result false
      else .overlay)
  | .overlay => some (.result (r.overlayOk c.idx c.addr c.len c.Hmax))
  | .result _ => none

inductive TierAct (ι κ : Type) (n : ℕ)
  | create (d : ℤ) (addr len : UInt64)
  | recordCompletion (i : ι) (d : ℤ) (idx : Fin n) (acked : Bool)
  | foldTo (i : ι) (F : ℤ)
  | advanceSynced (i : ι) (idx : Fin n) (C : ℤ)
  | go (i : ι)
  | eligible (k : κ) (idx : Fin n) (addr len : UInt64) (Hmax : ℤ)
  | look (k : κ)

variable [DecidableEq ι] [DecidableEq κ]

def TierSys.spawn (s : TierSys ι κ n) (i : ι) (th : TierThread n) : Option (TierSys ι κ n) :=
  if s.threads i = .idle then some { s with threads := Function.update s.threads i th } else none

def tierStep (s : TierSys ι κ n) : TierAct ι κ n → Option (TierSys ι κ n)
  | .create d addr len =>
    if s.tiers.route.loginDlsn < d ∧ (s.tiers.route.overlay.data d).isNone then
      some { s with tiers := s.tiers.on (·.create d addr len) }
    else none
  | .recordCompletion i d idx acked =>
    if (s.tiers.route.overlay.data d).isSome ∧ (d, idx) ∉ s.started then
      (s.spawn i (.holders d idx acked)).map fun s' =>
        { s' with started := insert (d, idx) s.started }
    else none
  | .foldTo i F => s.spawn i (.foldLoad F)
  | .advanceSynced i idx C => s.spawn i (.syncLoad idx C)
  | .go i =>
    (tierMove s.tiers s.foldMu i (s.threads i)).map fun m =>
      { s with
        tiers := m.tiers
        foldMu := m.foldMu
        threads := Function.update s.threads i m.thread }
  | .eligible k idx addr len Hmax =>
    if (s.calls k).isNone then
      some { s with calls := Function.update s.calls k (some
        ⟨idx, addr, len, Hmax, s.tiers.route.overlay.completed, .synced⟩) }
    else none
  | .look k => do
    let c ← s.calls k
    let pc ← lookStep s.tiers.route c
    some { s with calls := Function.update s.calls k (some { c with pc := pc }) }

end CraftClient.Router
