import CraftClient.Lib.Bytes
import CraftClient.Replica.Model

/-! The destination of a read: a scatter list that `read_range` fills page by page. -/

namespace CraftClient.Replica

open Bytes

structure SgList where
  size : UInt64
  iovs : List (List UInt8)
  deriving DecidableEq

/-- The scatter writer of `read_range`: the iovecs before it, its offset in the current one, and those from the current
one on. -/
structure SgCursor where
  before : List (List UInt8)
  iovOff : ℕ
  iovs : List (List UInt8)
  deriving DecidableEq

def sgWrite (before : List (List UInt8)) (iovOff : ℕ) : List (List UInt8) → List UInt8 → SgCursor
  | iovs, [] => ⟨before, iovOff, iovs⟩
  | [], _ => ⟨before, iovOff, []⟩
  | iov :: rest, src =>
    let toWrite := min src.length (iov.length - iovOff)
    let iov' := overwrite iov iovOff (src.take toWrite)
    if iovOff + toWrite = iov.length then sgWrite (before ++ [iov']) 0 rest (src.drop toWrite)
    -- all of `src` went into this iovec
    else ⟨before, iovOff + toWrite, iov' :: rest⟩

namespace SgCursor

def write (c : SgCursor) (src : List UInt8) : SgCursor := sgWrite c.before c.iovOff c.iovs src

def done (c : SgCursor) : List UInt8 := c.before.flatten ++ c.iovs.flatten.take c.iovOff

def todo (c : SgCursor) : List UInt8 := c.iovs.flatten.drop c.iovOff

def Valid (c : SgCursor) : Prop := c.iovOff ≤ (c.iovs.headD []).length

structure Writes (c c' : SgCursor) (src : List UInt8) : Prop where
  valid : c'.Valid
  done : c'.done = c.done ++ src
  todo : c'.todo = c.todo.drop src.length
  shape : (c'.before ++ c'.iovs).map List.length = (c.before ++ c.iovs).map List.length

lemma writes_nil {c : SgCursor} (h : c.Valid) : Writes c c [] :=
  ⟨h, (List.append_nil _).symm, rfl, rfl⟩

lemma Writes.trans {c c' c'' : SgCursor} {s t : List UInt8} (h : Writes c c' s) (h' : Writes c' c'' t) :
    Writes c c'' (s ++ t) := by
  refine ⟨h'.valid, ?_, ?_, h'.shape.trans h.shape⟩
  · rw [h'.done, h.done, List.append_assoc]
  · rw [h'.todo, h.todo, List.drop_drop, List.length_append]

lemma writes_head {before rest : List (List UInt8)} {iov src : List UInt8} {off : ℕ}
    (h : off + src.length ≤ iov.length) :
    Writes ⟨before, off, iov :: rest⟩ ⟨before, off + src.length, overwrite iov off src :: rest⟩ src := by
  have hlen := length_overwrite h
  have hdone : (overwrite iov off src).take (off + src.length) = iov.take off ++ src := by
    rw [overwrite, List.take_left']
    rw [List.length_append, List.length_take]
    omega
  have htodo : (overwrite iov off src).drop (off + src.length) = iov.drop (off + src.length) := by
    rw [overwrite, List.drop_left']
    rw [List.length_append, List.length_take]
    omega
  refine ⟨?_, ?_, ?_, ?_⟩
  · rw [Valid, List.headD_cons, hlen]
    exact h
  · simp only [SgCursor.done, List.flatten_cons]
    rw [List.take_append_of_le_length (by omega), List.take_append_of_le_length (by omega), hdone,
      List.append_assoc]
  · simp only [SgCursor.todo, List.flatten_cons, List.drop_drop]
    rw [List.drop_append_of_le_length (by omega), List.drop_append_of_le_length h, htodo]
  · simp [hlen]

lemma writes_next {before rest : List (List UInt8)} {iov : List UInt8} :
    Writes ⟨before, iov.length, iov :: rest⟩ ⟨before ++ [iov], 0, rest⟩ [] := by
  refine ⟨Nat.zero_le _, ?_, ?_, ?_⟩ <;> simp [SgCursor.done, SgCursor.todo]

lemma writes_sgWrite {before iovs : List (List UInt8)} {off : ℕ} {src : List UInt8}
    (hv : (⟨before, off, iovs⟩ : SgCursor).Valid) (hs : src.length ≤ (iovs.flatten.drop off).length) :
    Writes ⟨before, off, iovs⟩ (sgWrite before off iovs src) src := by
  induction iovs generalizing before off src with
  | nil =>
    obtain rfl : src = [] := by
      apply List.eq_nil_of_length_eq_zero
      simpa using hs
    exact writes_nil hv
  | cons iov rest ih =>
    cases src with
    | nil => exact writes_nil hv
    | cons b bs =>
      have hv' : off ≤ iov.length := hv
      generalize hsrc : b :: bs = src at hs ⊢
      have hne : src ≠ [] := by rw [← hsrc]; exact List.cons_ne_nil _ _
      rw [sgWrite.eq_3 _ _ _ _ _ hne]
      simp only [List.flatten_cons, List.length_drop, List.length_append] at hs
      split_ifs with hfull
      · set k := min src.length (iov.length - off)
        have hk : (src.take k).length = k := by rw [List.length_take]; omega
        have h₁ : Writes ⟨before, off, iov :: rest⟩
            ⟨before, off + (src.take k).length, overwrite iov off (src.take k) :: rest⟩ (src.take k) :=
          writes_head (by omega)
        have hlen : (overwrite iov off (src.take k)).length = iov.length := length_overwrite (by omega)
        rw [hk, hfull, ← hlen] at h₁
        have h₂ : Writes ⟨before ++ [overwrite iov off (src.take k)], 0, rest⟩
            (sgWrite (before ++ [overwrite iov off (src.take k)]) 0 rest (src.drop k)) (src.drop k) :=
          ih (Nat.zero_le _) (by rw [List.length_drop, List.drop_zero]; omega)
        have h₃ := (h₁.trans writes_next).trans h₂
        rwa [List.append_nil, List.take_append_drop] at h₃
      · have hk : min src.length (iov.length - off) = src.length := by omega
        rw [hk, List.take_length]
        exact writes_head (by omega)

lemma writes_write {c : SgCursor} {src : List UInt8} (hv : c.Valid) (hs : src.length ≤ c.todo.length) :
    Writes c (c.write src) src := writes_sgWrite hv hs

lemma writes_foldl {c : SgCursor} (pages : List (List UInt8)) (hv : c.Valid)
    (hs : pages.flatten.length ≤ c.todo.length) : Writes c (pages.foldl write c) pages.flatten := by
  induction pages generalizing c with
  | nil => exact writes_nil hv
  | cons page pages ih =>
    rw [List.flatten_cons, List.length_append] at hs
    have h₁ := writes_write hv (Nat.le_of_add_right_le hs)
    refine h₁.trans (ih h₁.valid ?_)
    rw [h₁.todo, List.length_drop]
    omega

end SgCursor

namespace SgList

def fill (dest : SgList) (pages : List (List UInt8)) : SgList :=
  let c := pages.foldl SgCursor.write ⟨[], 0, dest.iovs⟩
  { dest with iovs := c.before ++ c.iovs }

def bytes (dest : SgList) : List UInt8 := dest.iovs.flatten

lemma bytes_fill (dest : SgList) {pages : List (List UInt8)} (h : pages.flatten.length ≤ dest.bytes.length) :
    (dest.fill pages).bytes = pages.flatten ++ dest.bytes.drop pages.flatten.length ∧
      (dest.fill pages).iovs.map List.length = dest.iovs.map List.length := by
  have hw := SgCursor.writes_foldl (c := ⟨[], 0, dest.iovs⟩) pages (Nat.zero_le _) h
  refine ⟨?_, hw.shape⟩
  have hdone := hw.done
  have htodo := hw.todo
  simp only [SgCursor.done, SgCursor.todo, List.flatten_nil, List.take_zero, List.nil_append, List.drop_zero]
    at hdone htodo
  simp only [fill, bytes, List.flatten_append]
  rw [← List.take_append_drop (pages.foldl SgCursor.write ⟨[], 0, dest.iovs⟩).iovOff
    (pages.foldl SgCursor.write ⟨[], 0, dest.iovs⟩).iovs.flatten, ← List.append_assoc, hdone, htodo]

end SgList

def MemReplica.doReadInto (r : MemReplica) (hdr : ClientHdr) (readLsn : ℤ) (addr len : UInt64) (dest : SgList) :
    Except ErrorCond (ReadResult × SgList × MemReplica) :=
  (r.doRead hdr readLsn addr len dest.size).map fun (res, r') => (res, dest.fill (res.blocks.map Block.page), r')

lemma MemReplica.doReadInto_ok {r r' : MemReplica} {hdr : ClientHdr} {readLsn : ℤ} {addr len : UInt64}
    {dest dest' : SgList} {res : ReadResult} (h : r.doReadInto hdr readLsn addr len dest = .ok (res, dest', r')) :
    r.doRead hdr readLsn addr len dest.size = .ok (res, r') ∧ dest' = dest.fill (res.blocks.map Block.page) := by
  rw [doReadInto] at h
  cases hr : r.doRead hdr readLsn addr len dest.size with
  | error e =>
    rw [hr] at h
    cases h
  | ok out =>
    rw [hr] at h
    cases h
    exact ⟨rfl, rfl⟩

end CraftClient.Replica
