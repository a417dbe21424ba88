import CraftClient.Net.Replies
import CraftClient.Replica.Delivery
import CraftClient.Replica.Sized
import CraftClient.Wire.Stream

/-! A read over the wire: the server drops the holes and packs the data, and the client puts both back. -/

namespace CraftClient.Net

open Bytes Replica Wire
open Client (NetError netToError)

section Client

/-- `k_max_tx` of `wire_client`: the bound on a reply's body, for any volume. -/
def kMaxTx : UInt32 := framedBodyMax kDefaultMaxTx 512

def pieceOf (reqAddr : UInt64) (e : IoExtent) : ℕ × ℕ := ((e.addr - reqAddr).toNat, e.len.toNat)

def planScatter (reqAddr reqLen : UInt64) : List IoExtent → Option (List (ℕ × ℕ) × List (ℕ × ℕ))
  | [] => some ([], [])
  | e :: es =>
    let eEnd := e.addr + e.len
    if eEnd < e.addr ∨ e.addr < reqAddr ∨ reqAddr + reqLen < eEnd then none
    else (planScatter reqAddr reqLen es).map fun (data, holes) =>
      if e.hole then (data, pieceOf reqAddr e :: holes) else (pieceOf reqAddr e :: data, holes)

def scatterData (packed dest : List UInt8) : List (ℕ × ℕ) → Option (List UInt8)
  | [] => some dest
  | (off, n) :: rest =>
    if packed.length < n then none else scatterData (packed.drop n) (overwrite dest off (packed.take n)) rest

def zeroHoles (dest : List UInt8) (holes : List (ℕ × ℕ)) : List UInt8 :=
  holes.foldl (fun dest p => overwrite dest p.1 (List.replicate p.2 0)) dest

structure ReadReply where
  status : UInt8
  lsns : LsnPair
  extents : List IoExtent
  deriving DecidableEq

/-- The end of `wire_client::read` and `craft_async_conn::read`: the reply into a buffer of the length asked for. -/
def clientRead (reply : List UInt8) (bound : UInt32) (addr len : UInt64) (dest : List UInt8) :
    Except NetError (ReadReply × List UInt8) :=
  match parseMessage reply bound {} with
  | .error _ => .error .malformed
  | .ok m =>
    if m.hdr.op ≠ Op.readRsp.code then .error .malformed
    else
      let lsns : LsnPair := ⟨decodeI64 m.opHeader 0, decodeI64 m.opHeader 8⟩
      let count := (decodeU32 m.opHeader 16).toNat
      if m.hdr.status ≠ Wire.ok then .ok (⟨m.hdr.status, lsns, []⟩, dest)
      else match decodeExtents m.body count with
        | none => .error .malformed
        | some extents =>
          match planScatter addr len extents with
          | none => .error .malformed
          | some (data, holes) =>
            match scatterData (m.body.drop (count * 24)) dest data with
            | none => .error .malformed
            | some dest' => .ok (⟨m.hdr.status, lsns, extents⟩, zeroHoles dest' holes)

def scatterIovs : List UInt8 → List (List UInt8) → List (List UInt8)
  | _, [] => []
  | scratch, iov :: rest =>
    let n := min iov.length scratch.length
    let iov' := overwrite iov 0 (scratch.take n)
    if scratch.length ≤ n then iov' :: rest else iov' :: scatterIovs (scratch.drop n) rest

def tcpRead (reply : List UInt8) (bound : UInt32) (addr len : UInt64) (dest : SgList) :
    Except ErrorCond (ReadReply × SgList) :=
  let head := dest.iovs.headD []
  let inplace := dest.iovs.length = 1 ∧ len.toNat ≤ head.length
  let d := if inplace then head.take len.toNat else List.replicate len.toNat 0
  match clientRead reply bound addr len d with
  | .error e => .error (netToError e)
  | .ok (rsp, d') =>
    if rsp.status ≠ Wire.ok then .error (statusToError rsp.status)
    else if inplace then .ok (rsp, { dest with iovs := [d' ++ head.drop len.toNat] })
    else .ok (rsp, { dest with iovs := scatterIovs d' dest.iovs })

end Client

section Holes

variable {P a b : ℕ} {layout : List IoExtent} {blocks : List Block} {e : IoExtent}

lemma flatten_zero_pages (h : ∀ blk ∈ blocks, blk.page = List.replicate P 0) :
    (blocks.map Block.page).flatten = List.replicate (blocks.length * P) 0 := by
  induction blocks with
  | nil => simp
  | cons blk blocks ih =>
    rw [List.map_cons, List.flatten_cons, h blk List.mem_cons_self, ih fun blk hb => h blk (List.mem_cons_of_mem _ hb),
      List.length_cons, Nat.succ_mul, Nat.add_comm, List.replicate_add]

lemma length_pages (h : ∀ blk ∈ blocks, blk.page.length = P) :
    (blocks.map Block.page).flatten.length = blocks.length * P := by
  rw [← List.flatMap_def]
  exact length_flatMap_const blocks h

lemma slice_hole (htiles : Tiles a layout b) (hdvd : ∀ e ∈ layout, P ∣ e.len.toNat)
    (hholes : layout.flatMap (fun e => List.replicate (e.len.toNat / P) e.hole) = blocks.map Block.hole)
    (hlen : ∀ blk ∈ blocks, blk.page.length = P)
    (hzero : ∀ blk ∈ blocks, blk.hole = true → blk.page = List.replicate P 0) (he : e ∈ layout)
    (hh : e.hole = true) :
    slice (blocks.map Block.page).flatten (e.addr.toNat - a) e.len.toNat = List.replicate e.len.toNat 0 := by
  induction layout generalizing a blocks with
  | nil => cases he
  | cons f es ih =>
    obtain ⟨hf, -, hrest⟩ := htiles
    set k := f.len.toNat / P with hk
    have hfk : k * P = f.len.toNat := Nat.div_mul_cancel (hdvd f List.mem_cons_self)
    rw [List.flatMap_cons] at hholes
    have hk' : (List.replicate k f.hole).length = k := List.length_replicate
    have hfirst : (blocks.take k).map Block.hole = List.replicate k f.hole := by
      rw [List.map_take, ← hholes, List.take_left' hk']
    have hlater : (blocks.drop k).map Block.hole = es.flatMap fun e => List.replicate (e.len.toNat / P) e.hole := by
      rw [List.map_drop, ← hholes, List.drop_left' hk']
    have htake : (blocks.take k).length = k := by
      have hl := congrArg List.length hfirst
      rwa [List.length_map, hk'] at hl
    have hsplit : (blocks.map Block.page).flatten =
        ((blocks.take k).map Block.page).flatten ++ ((blocks.drop k).map Block.page).flatten := by
      rw [← List.flatten_append, ← List.map_append, List.take_append_drop]
    have hfront : ((blocks.take k).map Block.page).flatten.length = f.len.toNat := by
      rw [length_pages fun blk hb => hlen blk (List.mem_of_mem_take hb), htake, hfk]
    rw [hsplit]
    rcases List.mem_cons.mp he with rfl | he
    · have hpages : ∀ blk ∈ blocks.take k, blk.page = List.replicate P 0 := by
        intro blk hb
        apply hzero blk (List.mem_of_mem_take hb)
        have hmem : blk.hole ∈ (blocks.take k).map Block.hole := List.mem_map_of_mem hb
        rw [hfirst] at hmem
        rw [List.eq_of_mem_replicate hmem, hh]
      rw [hf, Nat.sub_self, slice, List.drop_zero, List.take_left' hfront, flatten_zero_pages hpages, htake, hfk]
    · have hin := tiles_mem hrest he
      have hoff : e.addr.toNat - a =
          ((blocks.take k).map Block.page).flatten.length + (e.addr.toNat - (a + f.len.toNat)) := by omega
      rw [hoff, slice_append_add]
      exact ih hrest (fun e he => hdvd e (List.mem_cons_of_mem _ he)) hlater.symm
        (fun blk hb => hlen blk (List.mem_of_mem_drop hb)) (fun blk hb => hzero blk (List.mem_of_mem_drop hb)) he

end Holes

section Scatter

variable {addr len : UInt64} {T d : List UInt8} {es : List IoExtent}

lemma planScatter_eq (hend : addr.toNat + len.toNat < 2 ^ 64)
    (h : ∀ e ∈ es, addr.toNat ≤ e.addr.toNat ∧ e.addr.toNat + e.len.toNat ≤ addr.toNat + len.toNat) :
    planScatter addr len es =
      some ((es.filter fun e => !e.hole).map (pieceOf addr), (es.filter IoExtent.hole).map (pieceOf addr)) := by
  induction es with
  | nil => rfl
  | cons e es ih =>
    obtain ⟨h₁, h₂⟩ := h e List.mem_cons_self
    have hin : ¬ (e.addr + e.len < e.addr ∨ e.addr < addr ∨ addr + len < e.addr + e.len) := by
      simp only [UInt64.lt_iff_toNat_lt, UInt64.toNat_add]
      rw [Nat.mod_eq_of_lt (show e.addr.toNat + e.len.toNat < 2 ^ 64 by omega), Nat.mod_eq_of_lt hend]
      omega
    rw [planScatter, if_neg hin, ih fun e he => h e (List.mem_cons_of_mem _ he)]
    cases hh : e.hole <;> simp [hh]

lemma scatterData_eq (h : ∀ e ∈ es, (pieceOf addr e).1 + (pieceOf addr e).2 ≤ T.length) :
    scatterData (es.flatMap fun e => slice T (pieceOf addr e).1 (pieceOf addr e).2) d (es.map (pieceOf addr)) =
      some (restore T d (es.map (pieceOf addr))) := by
  induction es generalizing d with
  | nil => rfl
  | cons e es ih =>
    have hlen := length_slice (h e List.mem_cons_self)
    rw [List.map_cons, List.flatMap_cons, scatterData, if_neg, List.drop_left' hlen, List.take_left' hlen,
      ih fun e he => h e (List.mem_cons_of_mem _ he)]
    · rfl
    · rw [List.length_append, hlen]
      omega

lemma zeroHoles_eq {holes : List (ℕ × ℕ)} (h : ∀ p ∈ holes, slice T p.1 p.2 = List.replicate p.2 0) :
    zeroHoles d holes = restore T d holes := by
  induction holes generalizing d with
  | nil => rfl
  | cons p holes ih =>
    rw [zeroHoles, restore, List.foldl_cons, List.foldl_cons, h p List.mem_cons_self]
    exact ih fun q hq => h q (List.mem_cons_of_mem _ hq)

lemma flatMap_data (es : List IoExtent) (f : IoExtent → List UInt8) :
    (es.flatMap fun e => if e.hole then [] else f e) = (es.filter fun e => !e.hole).flatMap f := by
  induction es with
  | nil => rfl
  | cons e es ih =>
    rw [List.flatMap_cons, ih]
    cases hh : e.hole <;> simp [hh]

lemma scatterIovs_eq {iovs : List (List UInt8)} {scratch : List UInt8} (h : scratch.length ≤ iovs.flatten.length) :
    (scatterIovs scratch iovs).flatten = scratch ++ iovs.flatten.drop scratch.length ∧
      (scatterIovs scratch iovs).map List.length = iovs.map List.length := by
  induction iovs generalizing scratch with
  | nil =>
    obtain rfl : scratch = [] := List.eq_nil_of_length_eq_zero (by simpa using h)
    exact ⟨rfl, rfl⟩
  | cons iov rest ih =>
    rw [List.flatten_cons, List.length_append] at h
    rw [scatterIovs]
    split_ifs with hle
    · have htake : scratch.take (min iov.length scratch.length) = scratch := List.take_of_length_le hle
      have hlen : (overwrite iov 0 scratch).length = iov.length := length_overwrite (by omega)
      constructor
      · rw [htake, List.flatten_cons, List.flatten_cons, overwrite, List.take_zero, List.nil_append, Nat.zero_add,
          List.drop_append_of_le_length (by omega), List.append_assoc]
      · rw [htake, List.map_cons, hlen, List.map_cons]
    · have hmin : min iov.length scratch.length = iov.length := by omega
      have htake : (scratch.take iov.length).length = iov.length := List.length_take_of_le (by omega)
      have hrest : (scratch.drop iov.length).length ≤ rest.flatten.length := by
        rw [List.length_drop]
        omega
      obtain ⟨hflat, hshape⟩ := ih hrest
      have hover : overwrite iov 0 (scratch.take iov.length) = scratch.take iov.length := by
        rw [overwrite, List.take_zero, List.nil_append, Nat.zero_add, htake, List.drop_length, List.append_nil]
      rw [hmin, hover]
      constructor
      · rw [List.flatten_cons, hflat, ← List.append_assoc, List.take_append_drop, List.flatten_cons, List.drop_append,
          List.drop_eq_nil_of_le (show iov.length ≤ scratch.length by omega), List.nil_append, List.length_drop]
      · rw [List.map_cons, htake, hshape, List.map_cons]

end Scatter

section Read

variable {r : MemReplica} {hdr : ClientHdr} {H : ℤ} {addr len : UInt64} {dest : SgList}

def readRequest (hdr : ClientHdr) (H : ℤ) (addr len : UInt64) : ReadReq :=
  ⟨⟨hdr.commitLsn, hdr.allCommittedLsn⟩, H, addr, len⟩

def wireRead (r : MemReplica) (hdr : ClientHdr) (H : ℤ) (addr len : UInt64) (dest : SgList) (bound : UInt32)
    (requestId : UInt16) : Except ErrorCond (ReadReply × SgList) :=
  tcpRead ((readReply r hdr (readRequest hdr H addr len)).1.bytes requestId) bound addr len dest

def rangeBytes (r : MemReplica) (H : ℤ) (addr len : UInt64) : List UInt8 :=
  ((r.readRange H addr len).1.map Block.page).flatten

lemma length_rangeBytes (h : Sized r) (hm : r.misaligned addr len = false)
    (hn : len.toNat / r.pageSize.toNat < 2 ^ 32) : (rangeBytes r H addr len).length = len.toNat := by
  obtain ⟨-, -, hdvd, -⟩ := MemReplica.aligned hm
  have hpages : ∀ blk ∈ (r.readRange H addr len).1, blk.page.length = r.pageSize.toNat := by
    intro blk hb
    rw [MemReplica.readRange_blocks] at hb
    obtain ⟨i, -, rfl⟩ := List.mem_map.mp hb
    exact h.length_readBlock H _
  rw [rangeBytes, length_pages hpages, MemReplica.readRange_blocks, List.length_map, List.length_range,
    MemReplica.blocksOf_eq, Nat.mod_eq_of_lt hn, Nat.div_mul_cancel hdvd]

lemma page_of_hole (r : MemReplica) (H : ℤ) (x : UInt64) (h : Sized r) (hh : (r.readBlock H x).hole = true) :
    (r.readBlock H x).page = List.replicate r.pageSize.toNat 0 := by
  rw [MemReplica.readBlock_hole] at hh
  apply List.eq_replicate_iff.mpr
  exact ⟨h.length_readBlock H x, fun b hb => of_decide_eq_true (List.all_eq_true.mp hh b hb)⟩

lemma restored (h : Sized r) (hm : r.misaligned addr len = false) (hend : addr.toNat + len.toNat < 2 ^ 64)
    (hn : len.toNat / r.pageSize.toNat < 2 ^ 32) {d : List UInt8} (hd : d.length = len.toNat) :
    ∃ data holes d', planScatter addr len (r.readRange H addr len).2 = some (data, holes) ∧
      scatterData ((readBody (r.readRange H addr len).2 (rangeBytes r H addr len) addr).drop
        ((r.readRange H addr len).2.length * 24)) d data = some d' ∧
      zeroHoles d' holes = rangeBytes r H addr len := by
  set es := (r.readRange H addr len).2
  set T := rangeBytes r H addr len
  obtain ⟨-, -, hdvd, -⟩ := MemReplica.aligned hm
  have hT : T.length = len.toNat := length_rangeBytes h hm hn
  have hlayout := MemReplica.layout_readRange (H := H) hm hend.le
  have htiles : Tiles addr.toNat es (addr.toNat + len.toNat) := by
    have ht := hlayout.tiles
    rwa [List.length_map, MemReplica.readRange_blocks, List.length_map, List.length_range, MemReplica.blocksOf_eq,
      Nat.mod_eq_of_lt hn, Nat.div_mul_cancel hdvd] at ht
  have hoff : ∀ e ∈ es, (pieceOf addr e).1 = e.addr.toNat - addr.toNat := fun e he =>
    UInt64.toNat_sub_of_le _ _ (UInt64.le_iff_toNat_le.mpr (tiles_mem htiles he).1)
  have hin : ∀ e ∈ es, (pieceOf addr e).1 + (pieceOf addr e).2 ≤ T.length := by
    intro e he
    have hmem := tiles_mem htiles he
    rw [hoff e he, hT, pieceOf]
    simp only
    omega
  refine ⟨_, _, restore T d ((es.filter fun e => !e.hole).map (pieceOf addr)),
    planScatter_eq hend fun e he => tiles_mem htiles he, ?_, ?_⟩
  · rw [readBody, List.drop_left' (length_encodeExtents es), flatMap_data]
    exact scatterData_eq fun e he => hin e (List.mem_of_mem_filter he)
  · have hzero : ∀ p ∈ (es.filter IoExtent.hole).map (pieceOf addr), slice T p.1 p.2 = List.replicate p.2 0 := by
      intro p hp
      obtain ⟨e, he, rfl⟩ := List.mem_map.mp hp
      obtain ⟨he, hh⟩ := List.mem_filter.mp he
      rw [hoff e he]
      apply slice_hole htiles hlayout.pages hlayout.holes _ _ he hh
      · intro blk hb
        rw [MemReplica.readRange_blocks] at hb
        obtain ⟨i, -, rfl⟩ := List.mem_map.mp hb
        exact h.length_readBlock H _
      · intro blk hb
        rw [MemReplica.readRange_blocks] at hb
        obtain ⟨i, -, rfl⟩ := List.mem_map.mp hb
        exact page_of_hole r H _ h
    rw [zeroHoles_eq hzero, restore, restore, ← List.foldl_append, ← restore]
    apply restore_eq (hd.trans hT.symm)
    · intro p hp
      rcases List.mem_append.mp hp with hp | hp <;>
      · obtain ⟨e, he, rfl⟩ := List.mem_map.mp hp
        exact hin e (List.mem_of_mem_filter he)
    · intro i hi
      obtain ⟨e, he, h₁, h₂⟩ := tiles_cover htiles (Nat.le_add_right addr.toNat i) (by omega)
      refine ⟨pieceOf addr e, ?_, ?_⟩
      · cases hh : e.hole with
        | false =>
          apply List.mem_append_left
          exact List.mem_map_of_mem (List.mem_filter.mpr ⟨he, by rw [hh]; rfl⟩)
        | true =>
          apply List.mem_append_right
          exact List.mem_map_of_mem (List.mem_filter.mpr ⟨he, hh⟩)
      · have hmem := tiles_mem htiles he
        rw [hoff e he, pieceOf]
        simp only
        omega

lemma misaligned_applyUpTo (r : MemReplica) (target : ℤ) (addr len : UInt64) :
    (r.applyUpTo target).misaligned addr len = r.misaligned addr len := by
  rw [MemReplica.misaligned, MemReplica.blockSize, (MemReplica.applies_applyUpTo r target).pageSize]
  rfl

lemma readReply_ok {res : ReadResult} {dest' : SgList} {r' : MemReplica}
    (h : r.doReadInto hdr H addr len ⟨len, [List.replicate len.toNat 0]⟩ = .ok (res, dest', r')) :
    (readReply r hdr (readRequest hdr H addr len)).1 =
      ⟨.readRsp, Wire.ok, ReadRsp.encode ⟨res.lsns, .ofNat res.extents.length⟩,
        readBody res.extents dest'.bytes addr⟩ := by
  simp only [readReply, readRequest, h]

lemma fill_range (h : Sized r) (hm : r.misaligned addr len = false) (hn : len.toNat / r.pageSize.toNat < 2 ^ 32)
    (hb : len.toNat ≤ dest.bytes.length) (H : ℤ) :
    (dest.fill ((r.readRange H addr len).1.map Block.page)).bytes =
        rangeBytes r H addr len ++ dest.bytes.drop len.toNat ∧
      (dest.fill ((r.readRange H addr len).1.map Block.page)).iovs.map List.length = dest.iovs.map List.length := by
  have hlen := length_rangeBytes (H := H) h hm hn
  rw [rangeBytes] at hlen
  have hfill := dest.bytes_fill (hlen.trans_le hb)
  rwa [hlen] at hfill

lemma readReply_eq (h : Sized r) (hm : r.misaligned addr len = false) (ht : hdr.term = r.term)
    (hn : len.toNat / r.pageSize.toNat < 2 ^ 32) (H : ℤ) :
    (readReply r hdr (readRequest hdr H addr len)).1 =
      ⟨.readRsp, Wire.ok, ReadRsp.encode ⟨(r.applyUpTo hdr.commitLsn).peekLsns,
          .ofNat ((r.applyUpTo hdr.commitLsn).readRange H addr len).2.length⟩,
        readBody ((r.applyUpTo hdr.commitLsn).readRange H addr len).2
          (rangeBytes (r.applyUpTo hdr.commitLsn) H addr len) addr⟩ := by
  have ha := MemReplica.applies_applyUpTo r hdr.commitLsn
  have hbuf : (SgList.mk len [List.replicate len.toNat 0]).bytes.length = len.toNat := by simp [SgList.bytes]
  obtain ⟨hbytes, -⟩ := fill_range (h.applyUpTo hdr.commitLsn) (by rw [misaligned_applyUpTo]; exact hm)
    (by rwa [ha.pageSize]) hbuf.ge H
  have hdrop : (SgList.mk len [List.replicate len.toNat 0]).bytes.drop len.toNat = [] :=
    List.drop_eq_nil_of_le hbuf.le
  rw [hdrop, List.append_nil] at hbytes
  have hsize : len ≤ (SgList.mk len [List.replicate len.toNat 0]).size := UInt64.le_iff_toNat_le.mpr le_rfl
  rw [readReply_ok (MemReplica.doReadInto_eq hm ht hsize H), hbytes]

lemma clientRead_eq (h : Sized r) (hm : r.misaligned addr len = false) (hend : addr.toNat + len.toNat < 2 ^ 64)
    (ht : hdr.term = r.term) (hn : len.toNat / r.pageSize.toNat < 2 ^ 32) {bound : UInt32}
    (hfits : (readReply r hdr (readRequest hdr H addr len)).1.body.length ≤ bound.toNat) (requestId : UInt16)
    {d : List UInt8} (hd : d.length = len.toNat) : ∃ lsns,
    clientRead ((readReply r hdr (readRequest hdr H addr len)).1.bytes requestId) bound addr len d =
      .ok (⟨Wire.ok, lsns, ((r.applyUpTo hdr.commitLsn).readRange H addr len).2⟩,
        rangeBytes (r.applyUpTo hdr.commitLsn) H addr len) := by
  have ha := MemReplica.applies_applyUpTo r hdr.commitLsn
  obtain ⟨data, holes, d', hplan, hdata, hzero⟩ := restored (H := H) (h.applyUpTo hdr.commitLsn)
    (by rw [misaligned_applyUpTo]; exact hm) hend (by rwa [ha.pageSize]) hd
  rw [readReply_eq h hm ht hn] at hfits ⊢
  generalize hes : ((r.applyUpTo hdr.commitLsn).readRange H addr len).2 = es at hplan hdata hfits ⊢
  generalize rangeBytes (r.applyUpTo hdr.commitLsn) H addr len = T at hdata hzero hfits ⊢
  generalize (r.applyUpTo hdr.commitLsn).peekLsns = lsns at hfits ⊢
  have hcount : es.length * 24 < 2 ^ 32 := by
    have hlt := bound.toNat_lt
    have hle : es.length * 24 ≤ (readBody es T addr).length := by
      rw [readBody, List.length_append, length_encodeExtents]
      exact Nat.le_add_right _ _
    simp only at hfits
    omega
  -- the message that the parser returns is the one that was framed
  let out : Outgoing bound := ⟨.readRsp, Wire.ok, requestId, ReadRsp.encode ⟨lsns, .ofNat es.length⟩,
    readBody es T addr, by rw [ReadRsp.length_encode]; rfl, fun _ => rfl, hfits⟩
  have hparse : parseMessage (Reply.bytes ⟨.readRsp, Wire.ok, ReadRsp.encode ⟨lsns, .ofNat es.length⟩,
      readBody es T addr⟩ requestId) bound {} = .ok (out.message {}) := out.parseMessage_frame {}
  have hdec : (decodeU32 (ReadRsp.encode ⟨lsns, .ofNat es.length⟩) 16).toNat = es.length := by
    have hslice : slice (ReadRsp.encode ⟨lsns, .ofNat es.length⟩) 16 4 = encodeU32 (.ofNat es.length) := by
      rw [ReadRsp.encode, ← length_encodeLsns lsns, slice_append_right]
      exact List.take_left' (length_encodeU32 _)
    rw [decodeU32, hslice, ofNat_decodeLe_encodeU32, UInt32.toNat_ofNat_of_lt' (by simp only [UInt32.size]; omega)]
  have hext : decodeExtents (readBody es T addr) es.length = some es := decodeExtents_encode es _
  refine ⟨⟨decodeI64 (ReadRsp.encode ⟨lsns, .ofNat es.length⟩) 0,
    decodeI64 (ReadRsp.encode ⟨lsns, .ofNat es.length⟩) 8⟩, ?_⟩
  simp only [clientRead, hparse, Outgoing.message, Outgoing.hdr, out, hdec, hext, hplan, hdata, hzero, ne_eq,
    not_true_eq_false, if_false]

lemma clientRead_refused {e : ErrorCond} (hread : r.doReadInto hdr H addr len ⟨len, [List.replicate len.toNat 0]⟩ =
      .error e) (bound : UInt32) (requestId : UInt16) (d : List UInt8) : ∃ lsns,
    clientRead ((readReply r hdr (readRequest hdr H addr len)).1.bytes requestId) bound addr len d =
      .ok (⟨toWireStatus e, lsns, []⟩, d) := by
  have hreply : (readReply r hdr (readRequest hdr H addr len)).1 =
      ⟨.readRsp, toWireStatus e, ReadRsp.encode ⟨r.peekLsns, 0⟩, []⟩ := by
    simp only [readReply, readRequest, hread]
  let out : Outgoing bound := ⟨.readRsp, toWireStatus e, requestId, ReadRsp.encode ⟨r.peekLsns, 0⟩, [],
    by rw [ReadRsp.length_encode]; rfl, fun hne => absurd rfl hne, Nat.zero_le _⟩
  have hparse : parseMessage (Reply.bytes ⟨.readRsp, toWireStatus e, ReadRsp.encode ⟨r.peekLsns, 0⟩, []⟩ requestId)
      bound {} = .ok (out.message {}) := out.parseMessage_frame {}
  rw [hreply]
  refine ⟨⟨decodeI64 (ReadRsp.encode ⟨r.peekLsns, 0⟩) 0, decodeI64 (ReadRsp.encode ⟨r.peekLsns, 0⟩) 8⟩, ?_⟩
  simp only [clientRead, hparse, Outgoing.message, Outgoing.hdr, out, ne_eq, not_true_eq_false, if_false,
    toWireStatus_ne_ok, not_false_eq_true, if_true]

lemma tcpRead_eq {reply : List UInt8} {bound : UInt32} {es : List IoExtent} {T : List UInt8}
    (hT : T.length = len.toNat) (hb : len.toNat ≤ dest.bytes.length)
    (h : ∀ d : List UInt8, d.length = len.toNat → ∃ lsns,
      clientRead reply bound addr len d = .ok (⟨Wire.ok, lsns, es⟩, T)) :
    ∃ lsns iovs, tcpRead reply bound addr len dest = .ok (⟨Wire.ok, lsns, es⟩, { dest with iovs := iovs }) ∧
      iovs.flatten = T ++ dest.bytes.drop len.toNat ∧ iovs.map List.length = dest.iovs.map List.length := by
  by_cases hin : dest.iovs.length = 1 ∧ len.toNat ≤ (dest.iovs.headD []).length
  · obtain ⟨iov, hiov⟩ := List.length_eq_one_iff.mp hin.1
    rw [hiov, List.headD_cons] at hin
    obtain ⟨lsns, hread⟩ := h (iov.take len.toNat) (List.length_take_of_le hin.2)
    refine ⟨lsns, [T ++ iov.drop len.toNat], ?_, ?_, ?_⟩
    · have hif : [iov].length = 1 ∧ len.toNat ≤ iov.length := hin
      simp only [tcpRead, hiov, List.headD_cons, if_pos hif, hread]
      simp
    · simp [SgList.bytes, hiov]
    · have hlen : (T ++ iov.drop len.toNat).length = iov.length := by
        rw [List.length_append, List.length_drop, hT]
        omega
      rw [hiov, List.map_singleton, List.map_singleton, hlen]
  · obtain ⟨lsns, hread⟩ := h (List.replicate len.toNat 0) List.length_replicate
    obtain ⟨hflat, hshape⟩ := scatterIovs_eq (hT.trans_le hb)
    refine ⟨lsns, scatterIovs T dest.iovs, ?_, ?_, hshape⟩
    · simp only [tcpRead, if_neg hin, hread]
      simp
    · rw [hflat, hT]
      rfl

theorem wire_read_eq_local {maxTx bound : UInt32} (h : Sized r) (hm : r.misaligned addr len = false)
    (hend : addr.toNat + len.toNat < 2 ^ 64) (hmax : len.toNat ≤ maxTx.toNat) (hsize : len ≤ dest.size)
    (hb : len.toNat ≤ dest.bytes.length)
    (hfits : (readReply r hdr (readRequest hdr H addr len)).1.body.length ≤ bound.toNat) (requestId : UInt16) :
    (wireRead r hdr H addr len dest bound requestId).map (fun out => (out.1.extents, out.2)) =
      (r.doReadInto hdr H addr len dest).map fun out => (out.1.extents, out.2.1) := by
  by_cases ht : hdr.term = r.term
  · have hn : len.toNat / r.pageSize.toNat < 2 ^ 32 :=
      (Nat.div_le_self _ _).trans_lt (hmax.trans_lt maxTx.toNat_lt)
    have ha := MemReplica.applies_applyUpTo r hdr.commitLsn
    have hm' : (r.applyUpTo hdr.commitLsn).misaligned addr len = false := by rwa [misaligned_applyUpTo]
    have hn' : len.toNat / (r.applyUpTo hdr.commitLsn).pageSize.toNat < 2 ^ 32 := by rwa [ha.pageSize]
    obtain ⟨hbytes, hshape⟩ := fill_range (h.applyUpTo hdr.commitLsn) hm' hn' hb H
    obtain ⟨lsns, iovs, hread, hflat, hshape'⟩ := tcpRead_eq
      (length_rangeBytes (h.applyUpTo hdr.commitLsn) hm' hn') hb
      fun d hd => clientRead_eq h hm hend ht hn hfits requestId hd
    -- the same bytes in buffers of the same sizes
    have hiovs : iovs = (dest.fill (((r.applyUpTo hdr.commitLsn).readRange H addr len).1.map Block.page)).iovs := by
      apply List.eq_iff_flatten_eq.mpr
      exact ⟨hflat.trans hbytes.symm, hshape'.trans hshape.symm⟩
    rw [wireRead, hread, MemReplica.doReadInto_eq hm ht hsize, hiovs]
    rfl
  · have hrefused : ∀ dest : SgList, len ≤ dest.size →
        r.doReadInto hdr H addr len dest = .error (.craft .staleTerm) := by
      intro dest hsize
      have hlt : ¬ dest.size < len := by
        rw [UInt64.lt_iff_toNat_lt]
        rw [UInt64.le_iff_toNat_le] at hsize
        omega
      simp [MemReplica.doReadInto, MemReplica.doRead, hm, ht, hlt, Except.map]
    rw [hrefused dest hsize, wireRead]
    have hread := clientRead_refused (hrefused _ (UInt64.le_iff_toNat_le.mpr le_rfl)) bound requestId
    simp only [tcpRead]
    split_ifs with hin
    all_goals
      obtain ⟨lsns, hr⟩ := hread _
      rw [hr]
      rfl

theorem wire_read_eq_local_holes :
    let r := (sessionStart 2 7 1).deliver
      [.write ⟨1, -1, -1, 7⟩ 0 0 2 (some [1, 2]), .write ⟨1, -1, -1, 7⟩ 1 4 2 (some [3, 4])]
    (wireRead r ⟨1, 0, 0, 7⟩ 1 0 6 ⟨6, [[9, 9, 9], [9, 9, 9]]⟩ 1024 5).map (fun out => (out.1.extents, out.2)) =
      (r.doReadInto ⟨1, 0, 0, 7⟩ 1 0 6 ⟨6, [[9, 9, 9], [9, 9, 9]]⟩).map fun out => (out.1.extents, out.2.1) := by
  intro r
  have hnew : Sized (sessionStart 2 7 1) := ⟨fun _ _ _ => nofun, fun _ _ _ => nofun⟩
  have hfirst : Sized ((sessionStart 2 7 1).perform (.write ⟨1, -1, -1, 7⟩ 0 0 2 (some [1, 2]))) :=
    hnew.perform fun _ _ _ h => nomatch h
  have hsized : Sized r := hfirst.perform (a := .write ⟨1, -1, -1, 7⟩ 1 4 2 (some [3, 4])) fun _ _ _ h => nomatch h
  have hmax : (6 : UInt64).toNat ≤ (1024 : UInt32).toNat := by decide
  exact wire_read_eq_local hsized (by decide +kernel) (by decide) hmax (by decide) (by decide) (by decide +kernel) 5

theorem wire_read_differs :
    let dest : SgList := ⟨512, [List.replicate 512 9]⟩
    let last := 2 ^ 64 - 512
    (((sessionStart 512 7 1).doReadInto ⟨1, -1, -1, 7⟩ 0 last 512 dest).toOption.map fun out =>
        (out.1.extents, out.2.1)) = some ([⟨last, 512, true⟩], ⟨512, [List.replicate 512 0]⟩) ∧
      (match wireRead (sessionStart 512 7 1) ⟨1, -1, -1, 7⟩ 0 last 512 dest 1024 5 with
        | .error e => some e
        | .ok _ => none) = some .timedOut ∧
      (match (sessionStart 2 7 1).doReadInto ⟨1, -1, -1, 7⟩ 0 0 4 ⟨2, [[9, 9]]⟩ with
        | .error e => some e
        | .ok _ => none) = some .invalidArgument ∧
      ((wireRead (sessionStart 2 7 1) ⟨1, -1, -1, 7⟩ 0 0 4 ⟨2, [[9, 9]]⟩ 1024 5).toOption.map fun out =>
        (out.1.extents, out.2)) = some ([⟨0, 4, true⟩], ⟨2, [[0, 0]]⟩) := by
  decide +kernel

end Read

end CraftClient.Net
