import CraftClient.Lib.Runs
import CraftClient.Replica.Follow
import CraftClient.Replica.Layout
import CraftClient.Replica.Scatter

/-! A read is a replay of the journal. -/

namespace CraftClient.Replica

open LastWriter Runs

section Spec

def MemJournalSlot.pageOf (P : ℕ) (s : MemJournalSlot) (x : UInt64) : List UInt8 :=
  match s.bytes with
  | none => List.replicate P 0
  | some bs => (bs.drop ((x.toNat - s.lba.toNat) * P)).take P

def MemJournalSlot.spans (s : MemJournalSlot) (x : UInt64) : Bool :=
  s.lba.toNat ≤ x.toNat && x.toNat < s.lba.toNat + s.len.toNat

lemma MemJournalSlot.length_pageOf {P : ℕ} {s : MemJournalSlot} {x : UInt64} (h : s.Fits P) (hx : s.spans x = true) :
    (s.pageOf P x).length = P := by
  simp only [spans, Bool.and_eq_true, decide_eq_true_eq] at hx
  rw [pageOf]
  cases hb : s.bytes with
  | none => exact List.length_replicate
  | some bs =>
    have hle : (x.toNat - s.lba.toNat + 1) * P ≤ s.len.toNat * P := Nat.mul_le_mul_right _ (by omega)
    rw [Nat.add_mul, Nat.one_mul] at hle
    simp only
    rw [List.length_take, List.length_drop, h.length bs hb]
    omega

namespace MemReplica

variable (r : MemReplica)

def highestCovering (M : ℤ) (x : UInt64) : Option (ℤ × MemJournalSlot) :=
  r.journal.entries.reverse.find? fun e => e.1 ≤ M && !e.2.isEmpty && e.2.spans x

def replayPage (M : ℤ) (x : UInt64) : List UInt8 :=
  match r.highestCovering M x with
  | some (_, s) => s.pageOf r.pageSize.toNat x
  | none => List.replicate r.pageSize.toNat 0

def replayRange (M : ℤ) (addr len : UInt64) : List (List UInt8) :=
  (List.range (len.toNat / r.pageSize.toNat)).map fun i => r.replayPage M (addr / r.blockSize + .ofNat i)

def ReadReplays (hdr : ClientHdr) (H : ℤ) (addr len : UInt64) (dest : SgList) : Prop :=
  let r' := r.applyUpTo hdr.commitLsn
  let pages := r'.replayRange (max H r'.commitLsn) addr len
  ∃ res dest', r.doReadInto hdr H addr len dest = .ok (res, dest', r') ∧
    dest'.bytes = pages.flatten ++ dest.bytes.drop len.toNat ∧
    dest'.iovs.map List.length = dest.iovs.map List.length ∧
    Tiles addr.toNat res.extents (addr.toNat + len.toNat) ∧
    Layout r.pageSize.toNat addr.toNat (pages.map fun page => page.all fun b => b = 0) res.extents

end MemReplica

end Spec

section Machine

inductive ReplicaAct
  | write (hdr : ClientHdr) (d : ℤ) (addr len : UInt64) (bytes : Option (List UInt8))
  | read (hdr : ClientHdr) (H : ℤ) (addr len destSize : UInt64)
  | keepAlive (hdr : ClientHdr)
  | resolveLocal (hdr : ClientHdr) (upto : ℤ)
  | install (d : ℤ) (s : MemJournalSlot)
  | markEmpty (d : ℤ)

def MemReplica.after {α : Type} (r : MemReplica) : Except ErrorCond (α × MemReplica) → MemReplica
  | .ok (_, r') => r'
  | .error _ => r

def MemReplica.perform (r : MemReplica) : ReplicaAct → MemReplica
  | .write hdr d addr len bytes => r.after (r.doWrite hdr d addr len bytes)
  | .read hdr H addr len destSize => r.after (r.doRead hdr H addr len destSize)
  | .keepAlive hdr => r.after (r.doKeepAlive hdr)
  | .resolveLocal hdr upto => r.after (r.doResolveLocal hdr upto)
  | .install d s => r.coldInstallSlot d s
  | .markEmpty d => r.coldMarkEmpty d

def replicaStep (r : MemReplica) (a : ReplicaAct) : Option MemReplica := some (r.perform a)

structure WriteContent where
  addr : UInt64
  len : UInt64
  bytes : Option (List UInt8)
  deriving DecidableEq

def WriteContent.InRange (c : WriteContent) (r : MemReplica) : Prop :=
  c.len.toNat / r.pageSize.toNat < 2 ^ 32 ∧ c.addr.toNat + c.len.toNat < 2 ^ 64

structure CopyOf (r : MemReplica) (c : WriteContent) (s : MemJournalSlot) : Prop where
  aligned : r.misaligned c.addr c.len = false
  length : ∀ bs, c.bytes = some bs → bs.length = c.len.toNat
  range : c.InRange r
  slot : s = r.writeSlot ⟨s.term, -1, -1, 0⟩ c.addr c.len c.bytes

/-- Every dLSN has one content, and a verdict falls above the commit point. -/
def OneContent (content : ℤ → WriteContent) (r : MemReplica) : ReplicaAct → Prop
  | .write _ d addr len bytes => 0 ≤ d ∧ content d = ⟨addr, len, bytes⟩ ∧ (content d).InRange r
  | .install d s => 0 ≤ d ∧ (s.isEmpty = true ∨ CopyOf r (content d) s)
  | .markEmpty d => r.commitLsn < d
  | _ => True

def MemReplica.Accepts (r : MemReplica) (d : ℤ) (c : WriteContent) : Prop :=
  r.misaligned c.addr c.len = false ∧ (∀ bs, c.bytes = some bs → bs.length = c.len.toNat) ∧
    ∀ s, r.journal.find d = some s → s.isEmpty = false

def sessionStart (pageSize : UInt32) (token term : UInt64) : MemReplica :=
  (MemReplica.new pageSize).coldApplyLogin token term

end Machine

namespace MemReplica

variable {r : MemReplica} {hdr : ClientHdr} {d H : ℤ} {addr len : UInt64} {bytes : Option (List UInt8)}

lemma after_doWrite (h : hdr.term = r.term ∧ r.Accepts d ⟨addr, len, bytes⟩) :
    r.after (r.doWrite hdr d addr len bytes) =
      (r.append d (r.writeSlot hdr addr len bytes)).applyUpTo hdr.commitLsn := by
  obtain ⟨ht, ha, hl, hne⟩ := h
  have hb : (bytes.any fun b => b.length ≠ len.toNat) = false := by
    cases bytes with
    | none => rfl
    | some bs => simpa using hl bs rfl
  have he : (r.journal.find d).any MemJournalSlot.isEmpty = false := by
    cases hs : r.journal.find d with
    | none => rfl
    | some s => exact hne s hs
  have ha' : r.misaligned addr len = false := ha
  simp only [doWrite, ha', hb, ht, he, Bool.false_eq_true, if_false, ne_eq, not_true_eq_false]
  rfl

lemma after_doWrite_of_not (h : ¬ (hdr.term = r.term ∧ r.Accepts d ⟨addr, len, bytes⟩)) :
    r.after (r.doWrite hdr d addr len bytes) = r := by
  cases hw : r.doWrite hdr d addr len bytes with
  | error e => rfl
  | ok out =>
    obtain ⟨ha, ht, hne, -⟩ := doWrite_ok hw
    exact absurd ⟨ht, ha, doWrite_length hw, hne⟩ h

lemma after_doRead (r : MemReplica) (hdr : ClientHdr) (H : ℤ) (addr len destSize : UInt64) :
    r.after (r.doRead hdr H addr len destSize) = r ∨
      r.after (r.doRead hdr H addr len destSize) = r.applyUpTo hdr.commitLsn := by
  cases hr : r.doRead hdr H addr len destSize with
  | error e => exact Or.inl rfl
  | ok out => exact Or.inr (doRead_ok hr).2.2.1

lemma after_doKeepAlive (r : MemReplica) (hdr : ClientHdr) :
    r.after (r.doKeepAlive hdr) = if hdr.term = r.term then r.applyUpTo hdr.commitLsn else r := by
  by_cases ht : hdr.term = r.term
  · rw [if_pos ht, doKeepAlive, if_neg (not_not.mpr ht)]
    rfl
  · rw [if_neg ht, doKeepAlive, if_pos ht]
    rfl

end MemReplica

section Copies

variable {r r' : MemReplica} {c : WriteContent} {s s' : MemJournalSlot} {d : ℤ} {x : UInt64}

namespace CopyOf

lemma congr (h : CopyOf r c s) (hp : r'.pageSize = r.pageSize) : CopyOf r' c s := by
  cases r
  cases r'
  cases hp
  exact ⟨h.aligned, h.length, h.range, h.slot⟩

lemma toNat_len (h : CopyOf r c s) : s.len.toNat = c.len.toNat / r.pageSize.toNat := by
  have hl : s.len = (c.len / r.blockSize).toUInt32 := congrArg MemJournalSlot.len h.slot
  rw [hl, ← MemReplica.blocksOf, MemReplica.blocksOf_eq, Nat.mod_eq_of_lt h.range.1]

lemma fits (h : CopyOf r c s) : s.Fits r.pageSize.toNat := by
  obtain ⟨hP, -, hdvd, -⟩ := MemReplica.aligned h.aligned
  have hlba : s.lba = c.addr / r.blockSize := congrArg MemJournalSlot.lba h.slot
  have hbytes : s.bytes = c.bytes := congrArg MemJournalSlot.bytes h.slot
  refine ⟨congrArg MemJournalSlot.isEmpty h.slot, ?_, ?_, ?_⟩
  · rw [hlba, h.toNat_len, UInt64.toNat_div, MemReplica.toNat_blockSize]
    have h₁ := Nat.div_le_self c.addr.toNat r.pageSize.toNat
    have h₂ := Nat.div_le_self c.len.toNat r.pageSize.toNat
    have h₃ := h.range.2
    omega
  · rw [hbytes]
    exact congrArg MemJournalSlot.allZeros h.slot
  · intro bs hbs
    rw [h.toNat_len, Nat.div_mul_cancel hdvd]
    exact h.length bs (hbytes ▸ hbs)

lemma spans_iff (h : CopyOf r c s) : s.spans x = true ↔ s.covers x = true := by
  rw [MemJournalSlot.covers_iff h.fits.end_lt, MemJournalSlot.spans, Bool.and_eq_true, decide_eq_true_eq,
    decide_eq_true_eq]

lemma eq_of_copy (h : CopyOf r c s) (h' : CopyOf r c s') : s' = { s with term := s'.term } := by
  rw [h'.slot, h.slot]
  rfl

end CopyOf

lemma MemReplica.copyOf_writeSlot {hdr : ClientHdr} {addr len : UInt64} {bytes : Option (List UInt8)}
    (ha : r.misaligned addr len = false) (hl : ∀ bs, bytes = some bs → bs.length = len.toNat)
    (hr : (WriteContent.mk addr len bytes).InRange r) : CopyOf r ⟨addr, len, bytes⟩ (r.writeSlot hdr addr len bytes) :=
  ⟨ha, hl, hr, rfl⟩

end Copies

structure Replayed (content : ℤ → WriteContent) (r : MemReplica) : Prop where
  follows : Follows (-1) (fun _ => none) r
  nonneg : ∀ d s, r.journal.find d = some s → 0 ≤ d
  slots : ∀ d s, r.journal.find d = some s → s.isEmpty = true ∨ CopyOf r (content d) s

namespace Replayed

variable {content : ℤ → WriteContent} {r : MemReplica} {d : ℤ} {s : MemJournalSlot} {x : UInt64} {H : ℤ}

lemma copy (h : Replayed content r) (hs : r.journal.find d = some s) (he : s.isEmpty = false) :
    CopyOf r (content d) s := by
  rcases h.slots d s hs with h | h
  · rw [he] at h
    cases h
  · exact h

lemma applyUpTo (h : Replayed content r) (target : ℤ) : Replayed content (r.applyUpTo target) := by
  have ha := MemReplica.applies_applyUpTo r target
  refine ⟨h.follows.applyUpTo target, ?_, ?_⟩
  · rw [ha.journal]
    exact h.nonneg
  · intro d s hs
    rw [ha.journal] at hs
    exact (h.slots d s hs).imp_right fun hc => hc.congr ha.pageSize

lemma rejournal {r' : MemReplica} (h : Replayed content r) (hp : r'.pageSize = r.pageSize)
    (hc : r'.commitLsn = r.commitLsn) (hi : r'.index = r.index)
    (hslots : ∀ e s, r'.journal.find e = some s → 0 ≤ e ∧ (s.isEmpty = true ∨ CopyOf r (content e) s))
    (hw : ∀ e, -1 < e → e ≤ r.commitLsn →
      (r'.journal.find e).isSome ∧ ∀ x, r'.written x e = r.written x e) : Replayed content r' := by
  refine ⟨?_, fun e s hs => (hslots e s hs).1, fun e s hs => ?_⟩
  · apply h.follows.rejournal hc hi
    · intro e s _ hs he
      rcases (hslots e s hs).2 with hemp | hcopy
      · rw [he] at hemp
        cases hemp
      · exact hcopy.fits.end_lt
    · exact fun e h₁ h₂ => (hw e h₁ h₂).1
    · exact fun e h₁ h₂ => (hw e h₁ h₂).2
  · exact (hslots e s hs).2.imp_right fun hcopy => hcopy.congr hp

lemma append (h : Replayed content r) (hd : 0 ≤ d) (hs : s.isEmpty = true ∨ CopyOf r (content d) s)
    (hold : d ≤ r.commitLsn → s.isEmpty = false ∧ ∀ s', r.journal.find d = some s' → s'.isEmpty = false) :
    Replayed content (r.append d s) := by
  have hfind : ∀ e, (r.append d s).journal.find e = if e = d then some s else r.journal.find e :=
    fun e => MemReplica.find_append ..
  apply h.rejournal
  any_goals rfl
  · intro e s' hs'
    rw [hfind] at hs'
    split_ifs at hs' with hed
    · cases hs'
      exact ⟨hed ▸ hd, hed ▸ hs⟩
    · exact ⟨h.nonneg e s' hs', h.slots e s' hs'⟩
  · intro e h₁ h₂
    obtain ⟨s', hs'⟩ := Option.isSome_iff_exists.mp (h.follows.present e h₁ h₂)
    rcases eq_or_ne e d with rfl | hne
    · obtain ⟨he, hold⟩ := hold h₂
      have hcopy := hs.resolve_left (by rw [he]; exact Bool.false_ne_true)
      have hsame := CopyOf.eq_of_copy hcopy (h.copy hs' (hold s' hs'))
      rw [hfind, if_pos rfl]
      refine ⟨rfl, fun x => ?_⟩
      simp only [MemReplica.written, hfind, if_true, hs', Option.bind_some]
      rw [hsame]
      rfl
    · rw [hfind, if_neg hne, hs']
      refine ⟨rfl, fun x => ?_⟩
      simp only [MemReplica.written, hfind, if_neg hne]
      rfl

lemma doResolveLocal (h : Replayed content r) {hdr : ClientHdr} {upto : ℤ} {res : ResolutionResult} {r' : MemReplica}
    (hr : r.doResolveLocal hdr upto = .ok (res, r')) : Replayed content r' := by
  obtain ⟨-, -, hj⟩ := doResolveLocal_ok hr
  simp only [MemReplica.doResolveLocal] at hr
  split_ifs at hr
  cases hr
  simp only [MemReplica.applyUpTo_journal] at hj
  have hle := h.follows.le_commit
  apply Replayed.applyUpTo
  apply h.rejournal
  any_goals rfl
  · intro e s hs
    rw [hj] at hs
    split_ifs at hs with he
    · cases hs
      exact ⟨by omega, Or.inl rfl⟩
    · exact ⟨h.nonneg e s hs, h.slots e s hs⟩
  · intro e h₁ h₂
    have hbelow := (hj e).trans (if_neg fun hab => hab.1.1.not_ge h₂)
    refine ⟨?_, fun x => ?_⟩
    · rw [hbelow]
      exact h.follows.present e h₁ h₂
    · simp only [MemReplica.written, hbelow]
      rfl

lemma perform {a : ReplicaAct} (h : Replayed content r) (hok : OneContent content r a) :
    Replayed content (r.perform a) := by
  cases a with
  | write hdr d addr len bytes =>
    obtain ⟨hd, hc, hr⟩ := hok
    by_cases hacc : hdr.term = r.term ∧ r.Accepts d ⟨addr, len, bytes⟩
    · rw [MemReplica.perform, MemReplica.after_doWrite hacc]
      obtain ⟨-, ha, hl, hne⟩ := hacc
      rw [hc] at hr
      apply Replayed.applyUpTo
      apply h.append hd (Or.inr _) fun _ => ⟨rfl, hne⟩
      rw [hc]
      exact MemReplica.copyOf_writeSlot ha hl hr
    · rw [MemReplica.perform, MemReplica.after_doWrite_of_not hacc]
      exact h
  | read hdr H addr len destSize =>
    rw [MemReplica.perform]
    rcases r.after_doRead hdr H addr len destSize with hr | hr
    · rw [hr]
      exact h
    · rw [hr]
      exact h.applyUpTo _
  | keepAlive hdr =>
    rw [MemReplica.perform, MemReplica.after_doKeepAlive]
    split_ifs
    · exact h.applyUpTo _
    · exact h
  | resolveLocal hdr upto =>
    rw [MemReplica.perform]
    cases hr : r.doResolveLocal hdr upto with
    | error e => exact h
    | ok out => exact h.doResolveLocal hr
  | install d s =>
    obtain ⟨hd, hs'⟩ := hok
    rw [MemReplica.perform, MemReplica.coldInstallSlot]
    split_ifs with hsome
    · exact h
    · apply h.append hd hs'
      intro hle
      exact absurd (h.follows.present d (by omega) hle) hsome
  | markEmpty d =>
    have hlt : r.commitLsn < d := hok
    have hle := h.follows.le_commit
    exact h.append (by omega) (Or.inl rfl) fun hd => absurd hd hlt.not_ge

lemma of_reach {ps : UInt32} {token term : UInt64}
    (h : Reach replicaStep (OneContent content) (sessionStart ps token term) r) : Replayed content r := by
  refine h.invariant ?_ fun r a r' hr hok hs => Option.some.inj hs ▸ hr.perform hok
  exact ⟨Follows.self (r := sessionStart ps token term) fun _ _ _ => nofun, fun _ _ => nofun, fun _ _ => nofun⟩

lemma highestCovering (h : Replayed content r) (H : ℤ) (x : UInt64) :
    r.readBlock H x = match r.highestCovering (max H r.commitLsn) x with
      | some (d, s) => r.slotBlock x d s
      | none => r.hole none := by
  have hpasses : ∀ d s, r.journal.find d = some s →
      (d ≤ max H r.commitLsn && !s.isEmpty && s.spans x) = true →
      -1 < d ∧ d ≤ max H r.commitLsn ∧ (r.written x d).isSome := by
    intro d s hs hp
    simp only [Bool.and_eq_true, decide_eq_true_eq, Bool.not_eq_eq_eq_not, Bool.not_true] at hp
    obtain ⟨⟨hle, he⟩, hx⟩ := hp
    have hw := MemReplica.written_eq_some.mpr ⟨s, hs, he, (h.copy hs he).spans_iff.mp hx, rfl⟩
    have hd := h.nonneg d s hs
    exact ⟨by omega, hle, by rw [hw]; rfl⟩
  rw [MemReplica.readBlock_eq]
  rcases h.follows.readCell H x with ⟨d, c, h₁, h₂, hc, -, hu, hv⟩ | ⟨hu, hv⟩
  · obtain ⟨s, hs, he, hx, rfl⟩ := MemReplica.written_eq_some.mp hc
    have hfound : r.highestCovering (max H r.commitLsn) x = some (d, s) := by
      apply OrdMap.find?_reverse (OrdMap.find_eq_some.mp hs)
      · simp only [Bool.and_eq_true, decide_eq_true_eq, Bool.not_eq_eq_eq_not, Bool.not_true]
        exact ⟨⟨h₂, he⟩, (h.copy hs he).spans_iff.mpr hx⟩
      · intro e hmem hp
        obtain ⟨-, hle, hw⟩ := hpasses e.1 e.2 (OrdMap.find_eq_some.mpr hmem) hp
        obtain ⟨c, hc⟩ := Option.isSome_iff_exists.mp hw
        exact hu.le hle hc trivial
    rw [hv, hfound]
    exact MemReplica.cellBlock_cellOf r d s x
  · have hnone : r.highestCovering (max H r.commitLsn) x = none := by
      apply List.find?_eq_none.mpr
      intro e hmem hp
      obtain ⟨h₁, hle, hw⟩ := hpasses e.1 e.2 (OrdMap.find_eq_some.mpr (List.mem_reverse.mp hmem)) hp
      obtain ⟨c, hc⟩ := Option.isSome_iff_exists.mp hw
      exact hu e.1 c h₁ hle hc trivial
    rw [hv, hnone]
    rfl

lemma readBlock_page (h : Replayed content r) (H : ℤ) (x : UInt64) :
    (r.readBlock H x).page = r.replayPage (max H r.commitLsn) x ∧
      (r.replayPage (max H r.commitLsn) x).length = r.pageSize.toNat := by
  rw [h.highestCovering, MemReplica.replayPage]
  cases hf : r.highestCovering (max H r.commitLsn) x with
  | none => exact ⟨rfl, List.length_replicate⟩
  | some w =>
    obtain ⟨d, s⟩ := w
    have hp := List.find?_some hf
    simp only [Bool.and_eq_true, decide_eq_true_eq, Bool.not_eq_eq_eq_not, Bool.not_true] at hp
    have hs := OrdMap.find_eq_some.mpr (List.mem_reverse.mp (List.mem_of_find?_eq_some hf))
    have hcopy := h.copy hs hp.1.2
    refine ⟨MemReplica.slotBlock_page hcopy.fits (hcopy.spans_iff.mp hp.2), ?_⟩
    exact MemJournalSlot.length_pageOf hcopy.fits hp.2

lemma readRange_eq (h : Replayed content r) (H : ℤ) (addr : UInt64) {len : UInt64}
    (hn : len.toNat / r.pageSize.toNat < 2 ^ 32) :
    (r.readRange H addr len).1.map Block.page = r.replayRange (max H r.commitLsn) addr len ∧
      (r.readRange H addr len).1.map Block.hole =
        (r.replayRange (max H r.commitLsn) addr len).map fun page => page.all fun b => b = 0 := by
  rw [MemReplica.readRange_blocks, MemReplica.blocksOf_eq, Nat.mod_eq_of_lt hn, MemReplica.replayRange]
  simp only [List.map_map]
  constructor
  · exact List.map_congr_left fun i _ => (h.readBlock_page H _).1
  · apply List.map_congr_left
    intro i _
    simp only [Function.comp_apply, ← (h.readBlock_page H _).1]
    exact MemReplica.readBlock_hole r H _

lemma length_replayRange (h : Replayed content r) (H : ℤ) (addr : UInt64) {len : UInt64}
    (hdvd : r.pageSize.toNat ∣ len.toNat) :
    (r.replayRange (max H r.commitLsn) addr len).flatten.length = len.toNat := by
  have hall : ∀ n, ((List.range n).map fun i =>
      r.replayPage (max H r.commitLsn) (addr / r.blockSize + .ofNat i)).flatten.length = n * r.pageSize.toNat := by
    intro n
    induction n with
    | zero => simp
    | succ n ih =>
      rw [List.range_succ, List.map_append, List.flatten_append, List.length_append, ih, Nat.succ_mul]
      simp [(h.readBlock_page H _).2]
  rw [MemReplica.replayRange, hall, Nat.div_mul_cancel hdvd]

end Replayed

section Read

variable {content : ℤ → WriteContent} {r : MemReplica} {hdr : ClientHdr} {addr len : UInt64} {dest : SgList}

lemma MemReplica.doReadInto_eq (hm : r.misaligned addr len = false) (ht : hdr.term = r.term) (hd : len ≤ dest.size)
    (H : ℤ) : r.doReadInto hdr H addr len dest =
      .ok (⟨((r.applyUpTo hdr.commitLsn).readRange H addr len).1, ((r.applyUpTo hdr.commitLsn).readRange H addr len).2,
          (r.applyUpTo hdr.commitLsn).peekLsns⟩,
        dest.fill (((r.applyUpTo hdr.commitLsn).readRange H addr len).1.map Block.page),
        r.applyUpTo hdr.commitLsn) := by
  have hlt : ¬ dest.size < len := by
    rw [UInt64.lt_iff_toNat_lt]
    rw [UInt64.le_iff_toNat_le] at hd
    omega
  simp [doReadInto, doRead, hm, ht, hlt, Except.map]

lemma readReplays (h : Replayed content r) (hm : r.misaligned addr len = false)
    (hend : addr.toNat + len.toNat ≤ 2 ^ 64) (ht : hdr.term = r.term) (hd : len ≤ dest.size)
    (hb : len.toNat ≤ dest.bytes.length) (hn : len.toNat / r.pageSize.toNat < 2 ^ 32) (H : ℤ) :
    r.ReadReplays hdr H addr len dest := by
  obtain ⟨-, -, hdvd, -⟩ := MemReplica.aligned hm
  have ha := MemReplica.applies_applyUpTo r hdr.commitLsn
  have hr := h.applyUpTo hdr.commitLsn
  have hm' : (r.applyUpTo hdr.commitLsn).misaligned addr len = false := by
    rw [MemReplica.misaligned, MemReplica.blockSize, ha.pageSize]
    exact hm
  have hn' : len.toNat / (r.applyUpTo hdr.commitLsn).pageSize.toNat < 2 ^ 32 := by rwa [ha.pageSize]
  obtain ⟨hpages, hholes⟩ := hr.readRange_eq H addr hn'
  have hlen := hr.length_replayRange H addr (ha.pageSize ▸ hdvd)
  have hlayout := MemReplica.layout_readRange (H := H) hm' hend
  rw [hholes] at hlayout
  obtain ⟨hbytes, hshape⟩ := dest.bytes_fill (hlen.trans_le hb)
  refine ⟨_, _, MemReplica.doReadInto_eq hm ht hd H, ?_, ?_, ?_, ?_⟩
  · rw [hpages, hbytes, hlen]
  · rw [hpages, hshape]
  · have htiles := hlayout.tiles
    rwa [List.length_map, MemReplica.replayRange, List.length_map, List.length_range, ha.pageSize,
      Nat.div_mul_cancel hdvd] at htiles
  · rw [ha.pageSize] at hlayout
    exact hlayout

lemma not_readReplays (hm : r.misaligned addr len = false) (hend : addr.toNat + len.toNat ≤ 2 ^ 64)
    (ht : hdr.term = r.term) (hd : len ≤ dest.size) (hn : 2 ^ 32 ≤ len.toNat / r.pageSize.toNat) (H : ℤ) :
    ¬ r.ReadReplays hdr H addr len dest := by
  rintro ⟨res, dest', hread, -, -, htiles, -⟩
  obtain ⟨hP, -, hdvd, -⟩ := MemReplica.aligned hm
  have ha := MemReplica.applies_applyUpTo r hdr.commitLsn
  rw [MemReplica.doReadInto_eq hm ht hd] at hread
  cases hread
  have hm' : (r.applyUpTo hdr.commitLsn).misaligned addr len = false := by
    rw [MemReplica.misaligned, MemReplica.blockSize, ha.pageSize]
    exact hm
  have hshort := (MemReplica.layout_readRange (H := H) hm' hend).tiles
  rw [List.length_map, MemReplica.readRange_blocks, List.length_map, List.length_range, MemReplica.blocksOf_eq,
    ha.pageSize] at hshort
  have hlt : len.toNat / r.pageSize.toNat % 2 ^ 32 < len.toNat / r.pageSize.toNat :=
    (Nat.mod_lt _ (by decide)).trans_le hn
  have hmul := Nat.mul_lt_mul_of_pos_right hlt hP
  rw [Nat.div_mul_cancel hdvd] at hmul
  have heq := tiles_unique hshort htiles
  omega

theorem read_replays_iff {ps : UInt32} {token term : UInt64}
    (h : Reach replicaStep (OneContent content) (sessionStart ps token term) r) (hm : r.misaligned addr len = false)
    (hend : addr.toNat + len.toNat ≤ 2 ^ 64) (ht : hdr.term = r.term) (hd : len ≤ dest.size)
    (hb : len.toNat ≤ dest.bytes.length) (H : ℤ) :
    r.ReadReplays hdr H addr len dest ↔ len.toNat / r.pageSize.toNat < 2 ^ 32 := by
  constructor
  · intro hr
    by_contra hn
    exact not_readReplays hm hend ht hd (not_lt.mp hn) H hr
  · exact fun hn => readReplays (.of_reach h) hm hend ht hd hb hn H

theorem read_replays_scattered : ∃ r : MemReplica,
    Reach replicaStep (OneContent fun _ => ⟨0, 2, some [1, 2]⟩) (sessionStart 2 7 1) r ∧
      r.ReadReplays ⟨1, 0, 0, 7⟩ 1 0 4 ⟨4, [[9], [9, 9, 9]]⟩ := by
  have h : Reach replicaStep (OneContent fun _ => ⟨0, 2, some [1, 2]⟩) (sessionStart 2 7 1) _ :=
    .next (.next .refl (a := .write ⟨1, -1, -1, 7⟩ 1 0 2 (some [1, 2])) ⟨by decide, rfl, by decide, by decide⟩ rfl)
      (a := .resolveLocal ⟨1, -1, -1, 7⟩ 0) trivial rfl
  exact ⟨_, h, (read_replays_iff h (by decide) (by decide) (by decide) (by decide) (by decide) 1).mpr (by decide)⟩

theorem read_loses_range :
    ((sessionStart 4096 7 1).doRead ⟨1, -1, -1, 7⟩ 0 0 (2 ^ 44) (2 ^ 44)).toOption.map (fun out => out.1.extents) =
        some [] ∧
      ¬ (sessionStart 4096 7 1).ReadReplays ⟨1, -1, -1, 7⟩ 0 0 (2 ^ 44) ⟨2 ^ 44, [List.replicate (2 ^ 44) 0]⟩ :=
  ⟨by decide, not_readReplays (by decide) (by decide) rfl (by decide) (by decide) 0⟩

end Read

end CraftClient.Replica
