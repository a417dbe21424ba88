import CraftClient.Net.WireRead

namespace CraftClient.Net

open Bytes Replica Wire
open Client (NetError)

variable {addr len : UInt64} {es : List IoExtent} {packed d d' : List UInt8} {ps : List (ℕ × ℕ)} {i : ℕ}

def InPiece (i : ℕ) (p : ℕ × ℕ) : Prop := p.1 ≤ i ∧ i < p.1 + p.2

instance decidableInPiece (i : ℕ) (p : ℕ × ℕ) : Decidable (InPiece i p) := inferInstanceAs (Decidable (_ ∧ _))

def OnByte (addr : UInt64) (es : List IoExtent) (i k : ℕ) : Prop :=
  ∃ e, es[k]? = some e ∧ InPiece i (pieceOf addr e)

def dataBefore (es : List IoExtent) (k : ℕ) : ℕ :=
  (((es.take k).filter fun e => !e.hole).map fun e => e.len.toNat).sum

def broughtBy (addr : UInt64) (packed : List UInt8) (es : List IoExtent) (k i : ℕ) : Option UInt8 :=
  es[k]?.bind fun e => if e.hole then some 0 else packed[dataBefore es k + (i - (pieceOf addr e).1)]?

lemma planScatter_some {data holes : List (ℕ × ℕ)} (h : planScatter addr len es = some (data, holes)) :
    data = (es.filter fun e => !e.hole).map (pieceOf addr) ∧
      holes = (es.filter IoExtent.hole).map (pieceOf addr) ∧
      ∀ e ∈ es, addr.toNat ≤ e.addr.toNat ∧ (pieceOf addr e).1 + (pieceOf addr e).2 ≤ len.toNat := by
  induction es generalizing data holes with
  | nil =>
    cases h
    exact ⟨rfl, rfl, by simp⟩
  | cons e es ih =>
    rw [planScatter] at h
    by_cases hout : e.addr + e.len < e.addr ∨ e.addr < addr ∨ addr + len < e.addr + e.len
    · rw [if_pos hout] at h
      cases h
    rw [if_neg hout] at h
    obtain ⟨⟨data', holes'⟩, hrest, hpush⟩ := Option.map_eq_some_iff.mp h
    obtain ⟨rfl, rfl, hin⟩ := ih hrest
    simp only [not_or, UInt64.not_lt, UInt64.le_iff_toNat_le, UInt64.toNat_add] at hout
    have he : (pieceOf addr e).1 + (pieceOf addr e).2 ≤ len.toNat := by
      have hsub := UInt64.toNat_sub_of_le e.addr addr (UInt64.le_iff_toNat_le.mpr hout.2.1)
      have h₁ := e.addr.toNat_lt
      have h₂ := e.len.toNat_lt
      have h₃ := Nat.mod_le (addr.toNat + len.toNat) (2 ^ 64)
      simp only [pieceOf, hsub]
      omega
    refine ⟨?_, ?_, List.forall_mem_cons.mpr ⟨⟨hout.2.1, he⟩, hin⟩⟩
    · cases hh : e.hole <;> simp_all
    · cases hh : e.hole <;> simp_all

section Pieces

lemma length_taken {n : ℕ} (h : ¬ packed.length < n) : (packed.take n).length = n :=
  List.length_take_of_le (not_lt.mp h)

lemma scatterData_frame (hin : ∀ p ∈ ps, p.1 + p.2 ≤ d.length) (h : scatterData packed d ps = some d') :
    d'.length = d.length ∧ ∀ i, (∀ p ∈ ps, ¬ InPiece i p) → d'[i]? = d[i]? := by
  induction ps generalizing packed d with
  | nil =>
    cases h
    exact ⟨rfl, fun _ _ => rfl⟩
  | cons p ps ih =>
    rw [scatterData] at h
    split_ifs at h with hshort
    have htake := length_taken hshort
    have hp : p.1 + (packed.take p.2).length ≤ d.length := by
      rw [htake]
      exact hin p List.mem_cons_self
    have hlen := length_overwrite hp
    obtain ⟨hl, hget⟩ := ih (fun q hq => hlen ▸ hin q (List.mem_cons_of_mem _ hq)) h
    refine ⟨hl.trans hlen, fun i hi => ?_⟩
    obtain ⟨hpi, hrest⟩ := List.forall_mem_cons.mp hi
    rw [hget i hrest, getElem?_overwrite hp, htake]
    exact if_neg hpi

lemma scatterData_at {a b : List (ℕ × ℕ)} {p : ℕ × ℕ} (hin : ∀ q ∈ a ++ p :: b, q.1 + q.2 ≤ d.length)
    (h : scatterData packed d (a ++ p :: b) = some d') (hp : InPiece i p) (hb : ∀ q ∈ b, ¬ InPiece i q) :
    d'[i]? = packed[(a.map Prod.snd).sum + (i - p.1)]? := by
  induction a generalizing packed d with
  | nil =>
    rw [List.nil_append, scatterData] at h
    split_ifs at h with hshort
    have htake := length_taken hshort
    have hle : p.1 + (packed.take p.2).length ≤ d.length := by
      rw [htake]
      exact hin p List.mem_cons_self
    have hrest := scatterData_frame (fun q hq => by
      rw [length_overwrite hle]
      exact hin q (List.mem_cons_of_mem _ hq)) h
    obtain ⟨h₁, h₂⟩ := hp
    rw [hrest.2 i hb, getElem?_overwrite hle, htake, if_pos ⟨h₁, h₂⟩, List.getElem?_take_of_lt (by omega)]
    simp
  | cons q a ih =>
    rw [List.cons_append, scatterData] at h
    split_ifs at h with hshort
    have htake := length_taken hshort
    have hle : q.1 + (packed.take q.2).length ≤ d.length := by
      rw [htake]
      exact hin q List.mem_cons_self
    rw [ih (fun q hq => by
      rw [length_overwrite hle]
      exact hin q (List.mem_cons_of_mem _ hq)) h, List.getElem?_drop, List.map_cons, List.sum_cons,
      Nat.add_assoc]

lemma zeroHoles_frame (hin : ∀ p ∈ ps, p.1 + p.2 ≤ d.length) :
    (zeroHoles d ps).length = d.length ∧ (∀ i, (∀ p ∈ ps, ¬ InPiece i p) → (zeroHoles d ps)[i]? = d[i]?) ∧
      ∀ i, (∃ p ∈ ps, InPiece i p) → (zeroHoles d ps)[i]? = some 0 := by
  induction ps generalizing d with
  | nil => exact ⟨rfl, fun _ _ => rfl, by simp⟩
  | cons p ps ih =>
    have hz : (List.replicate p.2 (0 : UInt8)).length = p.2 := List.length_replicate
    have hp : p.1 + (List.replicate p.2 (0 : UInt8)).length ≤ d.length := by
      rw [hz]
      exact hin p List.mem_cons_self
    have hlen := length_overwrite hp
    obtain ⟨hl, hout, hon⟩ := ih (d := overwrite d p.1 (List.replicate p.2 0)) fun q hq =>
      hlen.symm ▸ hin q (List.mem_cons_of_mem _ hq)
    refine ⟨hl.trans hlen, fun i hi => ?_, fun i hi => ?_⟩
    · obtain ⟨hpi, hrest⟩ := List.forall_mem_cons.mp hi
      refine (hout i hrest).trans ?_
      rw [getElem?_overwrite hp, hz]
      exact if_neg hpi
    · by_cases hrest : ∃ q ∈ ps, InPiece i q
      · exact hon i hrest
      · have hpi : InPiece i p := by
          obtain ⟨q, hq, hqi⟩ := hi
          rcases List.mem_cons.mp hq with rfl | hq
          · exact hqi
          · exact absurd ⟨q, hq, hqi⟩ hrest
        refine (hout i fun q hq hqi => hrest ⟨q, hq, hqi⟩).trans ?_
        obtain ⟨h₁, h₂⟩ := hpi
        rw [getElem?_overwrite hp, hz, if_pos ⟨h₁, h₂⟩, List.getElem?_replicate, if_pos (by omega)]

end Pieces

structure Filled (addr len : UInt64) (es : List IoExtent) (packed d d' : List UInt8) : Prop where
  length : d'.length = d.length
  outside : ∀ i, len.toNat ≤ i → d'[i]? = d[i]?
  unnamed : ∀ i, (∀ k, ¬ OnByte addr es i k) → d'[i]? = d[i]?
  named : ∀ i k, OnByte addr es i k → (∀ j, OnByte addr es i j → j = k) →
    d'[i]? = broughtBy addr packed es k i

lemma onByte_of_mem {e : IoExtent} (he : e ∈ es) (hi : InPiece i (pieceOf addr e)) :
    ∃ k, es[k]? = some e ∧ OnByte addr es i k := by
  obtain ⟨k, hk⟩ := List.mem_iff_getElem?.mp he
  exact ⟨k, hk, e, hk, hi⟩

lemma filled {data holes : List (ℕ × ℕ)} {d₁ : List UInt8} (hplan : planScatter addr len es = some (data, holes))
    (hdata : scatterData packed d data = some d₁) (hlen : len.toNat ≤ d.length) :
    Filled addr len es packed d (zeroHoles d₁ holes) := by
  obtain ⟨rfl, rfl, hin⟩ := planScatter_some hplan
  have hind : ∀ p ∈ (es.filter fun e => !e.hole).map (pieceOf addr), p.1 + p.2 ≤ len.toNat := by
    intro p hp
    obtain ⟨e, he, rfl⟩ := List.mem_map.mp hp
    exact (hin e (List.mem_of_mem_filter he)).2
  have hinh : ∀ p ∈ (es.filter IoExtent.hole).map (pieceOf addr), p.1 + p.2 ≤ len.toNat := by
    intro p hp
    obtain ⟨e, he, rfl⟩ := List.mem_map.mp hp
    exact (hin e (List.mem_of_mem_filter he)).2
  obtain ⟨hl₁, hout₁⟩ := scatterData_frame (fun p hp => (hind p hp).trans hlen) hdata
  obtain ⟨hl₂, hout₂, hon₂⟩ := zeroHoles_frame fun p hp => hl₁.symm ▸ (hinh p hp).trans hlen
  have hkeep : ∀ i, (∀ e ∈ es, ¬ InPiece i (pieceOf addr e)) →
      (zeroHoles d₁ ((es.filter IoExtent.hole).map (pieceOf addr)))[i]? = d[i]? := by
    intro i hi
    rw [hout₂, hout₁]
    all_goals
      intro p hp
      obtain ⟨e, he, rfl⟩ := List.mem_map.mp hp
      exact hi e (List.mem_of_mem_filter he)
  refine ⟨hl₂.trans hl₁, fun i hi => hkeep i fun e he hie => ?_, fun i hi => hkeep i fun e he hie => ?_,
    fun i k hk huniq => ?_⟩
  · have hle := (hin e he).2
    have hlt := hie.2
    omega
  · obtain ⟨k, -, hk⟩ := onByte_of_mem he hie
    exact hi k hk
  · obtain ⟨e, he, hie⟩ := hk
    -- any extent on the byte is this one
    have hsame : ∀ f ∈ es, InPiece i (pieceOf addr f) → f = e := by
      intro f hf hif
      obtain ⟨j, hj, hon⟩ := onByte_of_mem hf hif
      rw [huniq j hon, he] at hj
      exact (Option.some.inj hj).symm
    have hbrought : broughtBy addr packed es k i =
        if e.hole then some 0 else packed[dataBefore es k + (i - (pieceOf addr e).1)]? := by
      rw [broughtBy, he]
      rfl
    rw [hbrought]
    split_ifs with hh
    · apply hon₂
      exact ⟨pieceOf addr e, List.mem_map_of_mem (List.mem_filter.mpr ⟨List.mem_of_getElem? he, hh⟩), hie⟩
    · rw [hout₂]
      · obtain ⟨hk, hek⟩ := List.getElem?_eq_some_iff.mp he
        have hsplit : es = es.take k ++ e :: es.drop (k + 1) := by
          rw [← hek, List.cons_getElem_drop_succ, List.take_append_drop]
        have hpieces : (es.filter fun e => !e.hole).map (pieceOf addr) =
            ((es.take k).filter fun e => !e.hole).map (pieceOf addr) ++
              pieceOf addr e :: ((es.drop (k + 1)).filter fun e => !e.hole).map (pieceOf addr) := by
          conv_lhs => rw [hsplit]
          rw [List.filter_append, List.filter_cons_of_pos (by simp [hh]), List.map_append, List.map_cons]
        have hlater : ∀ q ∈ ((es.drop (k + 1)).filter fun e => !e.hole).map (pieceOf addr), ¬ InPiece i q := by
          intro q hq hqi
          obtain ⟨f, hf, rfl⟩ := List.mem_map.mp hq
          obtain ⟨j, hj⟩ := List.mem_iff_getElem?.mp (List.mem_of_mem_filter hf)
          rw [List.getElem?_drop] at hj
          have := huniq _ ⟨f, hj, hqi⟩
          omega
        rw [hpieces] at hdata hind
        rw [scatterData_at (fun q hq => (hind q hq).trans hlen) hdata hie hlater, List.map_map]
        rfl
      · intro p hp hpi
        obtain ⟨f, hf, rfl⟩ := List.mem_map.mp hp
        obtain ⟨hf, hfh⟩ := List.mem_filter.mp hf
        rw [hsame f hf hpi] at hfh
        exact hh hfh

section Client

variable {reply dest : List UInt8} {bound : UInt32} {m : Message} {rsp : ReadReply}

lemma length_decodeExtents {body : List UInt8} {count : ℕ} (h : decodeExtents body count = some es) :
    es.length = count := by
  rw [decodeExtents] at h
  split_ifs at h
  cases h
  clear * -
  induction count generalizing body with
  | zero => rfl
  | succ count ih => rw [takeExtents, List.length_cons, ih]

lemma clientRead_ok (hm : parseMessage reply bound {} = .ok m)
    (h : clientRead reply bound addr len dest = .ok (rsp, d')) (hok : rsp.status = Wire.ok) :
    ∃ data holes d₁, planScatter addr len rsp.extents = some (data, holes) ∧
      scatterData (m.body.drop (rsp.extents.length * 24)) dest data = some d₁ ∧ d' = zeroHoles d₁ holes := by
  simp only [clientRead, hm] at h
  split_ifs at h with hop hstatus
  · cases h
    exact absurd hok hstatus
  cases hext : decodeExtents m.body (decodeU32 m.opHeader 16).toNat with
  | none => simp [hext] at h
  | some es =>
    cases hplan : planScatter addr len es with
    | none => simp [hext, hplan] at h
    | some pieces =>
      obtain ⟨data, holes⟩ := pieces
      cases hdata : scatterData (m.body.drop ((decodeU32 m.opHeader 16).toNat * 24)) dest data with
      | none => simp [hext, hplan, hdata] at h
      | some d₁ =>
        simp only [hext, hplan, hdata] at h
        cases h
        refine ⟨data, holes, d₁, hplan, ?_, rfl⟩
        rw [length_decodeExtents hext]
        exact hdata

def NamedOnce (addr len : UInt64) (es : List IoExtent) : Prop :=
  ∀ i < len.toNat, ∃! k : ℕ, ∃ e, es[k]? = some e ∧ e.addr.toNat ≤ addr.toNat + i ∧
    addr.toNat + i < e.addr.toNat + e.len.toNat

def writtenPieces (addr len : UInt64) (es : List IoExtent) : List (ℕ × ℕ) :=
  ((planScatter addr len es).map fun pieces => pieces.1 ++ pieces.2).getD []

structure FilledOnce (addr len : UInt64) (es : List IoExtent) (packed d d' : List UInt8) : Prop where
  length : d'.length = d.length
  outside : ∀ i, len.toNat ≤ i → d'[i]? = d[i]?
  once : ∀ i < len.toNat, (writtenPieces addr len es).countP (InPiece i ·) = 1
  brought : ∀ i < len.toNat, ∃ k, OnByte addr es i k ∧ d'[i]? = broughtBy addr packed es k i

lemma onByte_iff {pieces : List (ℕ × ℕ) × List (ℕ × ℕ)} (hplan : planScatter addr len es = some pieces) (i k : ℕ) :
    OnByte addr es i k ↔ ∃ e, es[k]? = some e ∧ e.addr.toNat ≤ addr.toNat + i ∧
      addr.toNat + i < e.addr.toNat + e.len.toNat := by
  have hin := (planScatter_some hplan).2.2
  refine exists_congr fun e => and_congr_right fun he => ?_
  have hle := (hin e (List.mem_of_getElem? he)).1
  rw [InPiece, pieceOf, UInt64.toNat_sub_of_le _ _ (UInt64.le_iff_toNat_le.mpr hle)]
  omega

lemma countP_writtenPieces {pieces : List (ℕ × ℕ) × List (ℕ × ℕ)} (hplan : planScatter addr len es = some pieces)
    (i : ℕ) : (writtenPieces addr len es).countP (InPiece i ·) = es.countP fun e => InPiece i (pieceOf addr e) := by
  obtain ⟨hdata, hholes, -⟩ := planScatter_some hplan
  rw [writtenPieces, hplan, Option.map_some, Option.getD_some, hdata, hholes, List.countP_append, List.countP_map,
    List.countP_map, Nat.add_comm, List.countP_eq_countP_filter_add es _ IoExtent.hole]
  rfl

lemma written_once_iff {pieces : List (ℕ × ℕ) × List (ℕ × ℕ)} (hplan : planScatter addr len es = some pieces) :
    (∀ i < len.toNat, (writtenPieces addr len es).countP (InPiece i ·) = 1) ↔ NamedOnce addr len es := by
  refine forall₂_congr fun i _ => ?_
  rw [countP_writtenPieces hplan, countP_eq_one_iff]
  simp only [← onByte_iff hplan, OnByte, decide_eq_true_eq]

theorem successful_read_fills_iff (hm : parseMessage reply bound {} = .ok m)
    (h : clientRead reply bound addr len dest = .ok (rsp, d')) (hok : rsp.status = Wire.ok)
    (hlen : len.toNat ≤ dest.length) :
    FilledOnce addr len rsp.extents (m.body.drop (rsp.extents.length * 24)) dest d' ↔
      NamedOnce addr len rsp.extents := by
  obtain ⟨data, holes, d₁, hplan, hdata, rfl⟩ := clientRead_ok hm h hok
  have hf := filled hplan hdata hlen
  refine ⟨fun hfill => (written_once_iff hplan).mp hfill.once, fun honce => ⟨hf.length, hf.outside,
    (written_once_iff hplan).mpr honce, fun i hi => ?_⟩⟩
  obtain ⟨k, hk, huniq⟩ := honce i hi
  have hk := (onByte_iff hplan i k).mpr hk
  exact ⟨k, hk, hf.named i k hk fun j hj => huniq j ((onByte_iff hplan i j).mp hj)⟩

theorem successful_read_fills_dataAndHole :
    let es : List IoExtent := [⟨0, 2, false⟩, ⟨2, 2, true⟩]
    let reply := Reply.bytes ⟨.readRsp, Wire.ok, ReadRsp.encode ⟨⟨0, 0⟩, 2⟩, es.flatMap encodeExtent ++ [5, 6]⟩ 1
    ∃ m rsp d', parseMessage reply 1024 {} = .ok m ∧ clientRead reply 1024 0 4 [9, 9, 9, 9, 9] = .ok (rsp, d') ∧
      rsp.status = Wire.ok ∧ d' = [5, 6, 0, 0, 9] ∧
      FilledOnce 0 4 rsp.extents (m.body.drop (rsp.extents.length * 24)) [9, 9, 9, 9, 9] d' := by
  intro es reply
  have hm : parseMessage reply 1024 {} =
      .ok ⟨⟨8, 0, 1, 50⟩, ReadRsp.encode ⟨⟨0, 0⟩, 2⟩, es.flatMap encodeExtent ++ [5, 6], 82⟩ := by decide +kernel
  have hread : clientRead reply 1024 0 4 [9, 9, 9, 9, 9] = .ok (⟨Wire.ok, ⟨0, 0⟩, es⟩, [5, 6, 0, 0, 9]) := by
    decide +kernel
  have hplan : planScatter 0 4 es = some ([(0, 2)], [(2, 2)]) := by decide
  have honce : NamedOnce 0 4 es := (written_once_iff hplan).mp (by decide)
  exact ⟨_, _, _, hm, hread, rfl, rfl, (successful_read_fills_iff hm hread rfl (by decide)).mpr honce⟩

theorem read_of_nothing_succeeds :
    let reply := Reply.bytes ⟨.readRsp, Wire.ok, ReadRsp.encode ⟨⟨0, 0⟩, 0⟩, []⟩ 1
    let dest := List.replicate 512 9
    (∃ m, parseMessage reply 548864 {} = .ok m ∧ m.hdr.op = Op.readRsp.code ∧ m.hdr.status = Wire.ok) ∧
      clientRead reply 548864 0 512 dest = .ok (⟨Wire.ok, ⟨0, 0⟩, []⟩, dest) := by
  intro reply dest
  have hm : parseMessage reply 548864 {} = .ok ⟨⟨8, 0, 1, 0⟩, ReadRsp.encode ⟨⟨0, 0⟩, 0⟩, [], 32⟩ := by
    decide +kernel
  exact ⟨⟨_, hm, rfl, rfl⟩, by decide +kernel⟩

end Client

end CraftClient.Net
