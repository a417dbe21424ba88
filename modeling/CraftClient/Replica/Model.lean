import CraftClient.Lib.OrdMap
import CraftClient.Status

/-! `MemCraftReplica`. Every operation runs under the replica's mutex, so it is one step. -/

namespace CraftClient.Replica

structure MemJournalSlot where
  term : UInt64
  lba : UInt64
  len : UInt32
  allZeros : Bool
  isEmpty : Bool
  bytes : Option (List UInt8)
  deriving DecidableEq

/-- The write that last set a block. A zero write erases the entry of the source's index; here it leaves a
cell without a buffer, so that the block still names its write. -/
structure IndexCell where
  dlsn : ℤ
  buf : Option (List UInt8)
  off : ℕ

structure MemReplica where
  pageSize : UInt32
  commitLsn : ℤ
  lastAppendLsn : ℤ
  clientToken : UInt64
  term : UInt64
  journal : OrdMap ℤ MemJournalSlot
  index : UInt64 → Option IndexCell

def MemReplica.new (pageSize : UInt32) : MemReplica :=
  ⟨pageSize, -1, -1, 0, 0, .empty, fun _ => none⟩

def emptySlot (term : UInt64) : MemJournalSlot := ⟨term, 0, 0, false, true, none⟩

structure Block where
  src : Option ℤ
  page : List UInt8
  hole : Bool
  deriving DecidableEq

structure IoExtent where
  addr : UInt64
  len : UInt64
  hole : Bool
  deriving DecidableEq

structure ReadResult where
  blocks : List Block
  extents : List IoExtent
  lsns : LsnPair
  deriving DecidableEq

def MemJournalSlot.covers (s : MemJournalSlot) (x : UInt64) : Bool :=
  s.lba ≤ x && x < s.lba + s.len.toUInt64

namespace MemReplica

variable (r : MemReplica)

def blockSize : UInt64 := r.pageSize.toUInt64

def peekLsns : LsnPair := ⟨r.commitLsn, r.lastAppendLsn⟩

def cellOf (d : ℤ) (s : MemJournalSlot) (i : ℕ) : IndexCell :=
  ⟨d, if s.allZeros then none else s.bytes, i * r.pageSize.toNat⟩

def applySlot (d : ℤ) (s : MemJournalSlot) : MemReplica :=
  { r with index := (List.range s.len.toNat).foldl (fun index i =>
      Function.update index (s.lba + .ofNat i) (some (r.cellOf d s i))) r.index }

def applyNext (s : MemJournalSlot) : MemReplica :=
  let d := r.commitLsn + 1
  { (if s.isEmpty then r else r.applySlot d s) with commitLsn := d }

def applyLoop : ℕ → MemReplica → MemReplica
  | 0, r => r
  | k + 1, r =>
    match r.journal.find (r.commitLsn + 1) with
    | none => r
    | some s => applyLoop k (r.applyNext s)

def applyUpTo (target : ℤ) : MemReplica := applyLoop (target - r.commitLsn).toNat r

def append (d : ℤ) (s : MemJournalSlot) : MemReplica :=
  { r with journal := r.journal.insert d s, lastAppendLsn := max r.lastAppendLsn d }

def misaligned (addr len : UInt64) : Bool :=
  addr % r.blockSize != 0 || len % r.blockSize != 0 || len == 0

def writeSlot (hdr : ClientHdr) (addr len : UInt64) (bytes : Option (List UInt8)) : MemJournalSlot :=
  ⟨hdr.term, addr / r.blockSize, (len / r.blockSize).toUInt32, bytes.isNone, false, bytes⟩

def doWrite (hdr : ClientHdr) (dlsn : ℤ) (addr len : UInt64) (bytes : Option (List UInt8)) :
    Except ErrorCond (LsnPair × MemReplica) :=
  if r.misaligned addr len then .error .invalidArgument
  else if bytes.any fun b => b.length ≠ len.toNat then .error .invalidArgument
  else if hdr.term ≠ r.term then .error (.craft .staleTerm)
  else if (r.journal.find dlsn).any MemJournalSlot.isEmpty then .error .invalidArgument
  else
    let r' := (r.append dlsn (r.writeSlot hdr addr len bytes)).applyUpTo hdr.commitLsn
    .ok (r'.peekLsns, r')

def highestLoop (commitLsn : ℤ) (x : UInt64) :
    List (ℤ × MemJournalSlot) → Option (ℤ × MemJournalSlot)
  | [] => none
  | (d, s) :: rest =>
    if d ≤ commitLsn then none
    else if s.isEmpty then highestLoop commitLsn x rest
    else if s.covers x then some (d, s)
    else highestLoop commitLsn x rest

def highestSlotLe (x : UInt64) (H : ℤ) : Option (ℤ × MemJournalSlot) :=
  highestLoop r.commitLsn x (r.journal.entries.takeWhile fun e => e.1 ≤ H).reverse

def pageAt (bytes : Option (List UInt8)) (off : ℕ) : List UInt8 :=
  ((bytes.getD []).drop off).take r.pageSize.toNat

def hole (src : Option ℤ) : Block := ⟨src, List.replicate r.pageSize.toNat 0, true⟩

def dataPage (d : ℤ) (bytes : Option (List UInt8)) (off : ℕ) : Block :=
  let page := r.pageAt bytes off
  if page.all fun b => b = 0 then r.hole (some d) else ⟨some d, page, false⟩

def indexBlock (x : UInt64) : Block :=
  match r.index x with
  | some c => r.dataPage c.dlsn c.buf c.off
  | none => r.hole none

def readBlock (H : ℤ) (x : UInt64) : Block :=
  match r.highestSlotLe x H with
  | some (d, s) =>
    if s.allZeros then r.hole (some d)
    else r.dataPage d s.bytes ((x - s.lba).toNat * r.pageSize.toNat)
  | none => r.indexBlock x

def pushExtent (layout : List IoExtent) (addr len : UInt64) (hole : Bool) : List IoExtent :=
  match layout.getLast? with
  | some e =>
    if e.hole = hole ∧ e.addr + e.len = addr then
      layout.dropLast ++ [{ e with len := e.len + len }]
    else layout ++ [⟨addr, len, hole⟩]
  | none => [⟨addr, len, hole⟩]

def readRange (H : ℤ) (addr len : UInt64) : List Block × List IoExtent :=
  let lba0 := addr / r.blockSize
  let nblk := (len / r.blockSize).toUInt32
  let xs := (List.range nblk.toNat).map fun i => lba0 + .ofNat i
  (xs.map (r.readBlock H),
    xs.foldl (fun layout x =>
      pushExtent layout (x * r.blockSize) r.blockSize (r.readBlock H x).hole) [])

def doRead (hdr : ClientHdr) (readLsn : ℤ) (addr len destSize : UInt64) :
    Except ErrorCond (ReadResult × MemReplica) :=
  if r.misaligned addr len then .error .invalidArgument
  else if destSize < len then .error .invalidArgument
  else if hdr.term ≠ r.term then .error (.craft .staleTerm)
  else
    let r' := r.applyUpTo hdr.commitLsn
    let (blocks, extents) := r'.readRange readLsn addr len
    .ok (⟨blocks, extents, r'.peekLsns⟩, r')

def doKeepAlive (hdr : ClientHdr) : Except ErrorCond (LsnPair × MemReplica) :=
  if hdr.term ≠ r.term then .error (.craft .staleTerm)
  else
    let r' := r.applyUpTo hdr.commitLsn
    .ok (r'.peekLsns, r')

def dlsns (a b : ℤ) : List ℤ := (List.range (b - a).toNat).map fun k : ℕ => a + 1 + (k : ℤ)

def resolveSlot (term : UInt64) (st : OrdMap ℤ MemJournalSlot × List ℤ) (d : ℤ) :
    OrdMap ℤ MemJournalSlot × List ℤ :=
  match st.1.find d with
  | none => (st.1.insert d (emptySlot term), st.2 ++ [d])
  | some s => if s.isEmpty then (st.1, st.2 ++ [d]) else st

def doResolveLocal (hdr : ClientHdr) (upto : ℤ) : Except ErrorCond (ResolutionResult × MemReplica) :=
  if hdr.term ≠ r.term then .error (.craft .staleTerm)
  else
    let (journal, empties) := (dlsns r.commitLsn upto).foldl (resolveSlot r.term) (r.journal, [])
    .ok (⟨upto, empties⟩,
      { r with journal := journal, lastAppendLsn := max r.lastAppendLsn upto }.applyUpTo upto)

def coldApplySync (rsCommitLsn : ℤ) : MemReplica := r.applyUpTo rsCommitLsn

def coldApplyLogin (clientToken term : UInt64) : MemReplica :=
  { r with clientToken := clientToken, term := term }

def coldApplyLogout : MemReplica := { r with clientToken := 0, term := 0 }

def coldTruncateAbove (rsCommitLsn : ℤ) : MemReplica :=
  { r with
    journal := r.journal.truncateAbove rsCommitLsn
    lastAppendLsn := min r.lastAppendLsn rsCommitLsn }

def peekSlot (d : ℤ) : Option MemJournalSlot := r.journal.find d

def coldInstallSlot (d : ℤ) (s : MemJournalSlot) : MemReplica :=
  if (r.journal.find d).isSome then r else r.append d s

def coldMarkEmpty (d : ℤ) : MemReplica := r.append d (emptySlot r.term)

def peekEmpties (upto : ℤ) : List ℤ :=
  ((r.journal.entries.takeWhile fun e => e.1 ≤ upto).filter fun e => e.2.isEmpty).map Prod.fst

end MemReplica

end CraftClient.Replica
