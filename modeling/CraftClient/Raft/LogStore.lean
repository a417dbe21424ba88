import CraftClient.Lib.IndexedLog
import CraftClient.Lib.Bytes
import CraftClient.Lib.Mealy

/-! The log store that a group keeps its Raft log in. -/

namespace CraftClient.Raft

open Bytes

local instance indexOrder : LinearOrder UInt64 where
  le_refl := UInt64.le_refl
  le_trans _ _ _ := UInt64.le_trans
  le_antisymm _ _ := UInt64.le_antisymm
  le_total := UInt64.le_total
  lt_iff_le_not_ge a b := by
    rw [UInt64.not_le]
    exact ⟨fun h => ⟨UInt64.le_of_lt h, h⟩, And.right⟩
  toDecidableLE := inferInstance
  toDecidableEq := inferInstance
  toDecidableLT := inferInstance

structure LogEntry where
  term : UInt64
  buf : List UInt8
  valType : UInt8
  timestamp : UInt64
  deriving DecidableEq

def makeClone (entry : LogEntry) : LogEntry := ⟨entry.term, entry.buf, entry.valType, entry.timestamp⟩

@[simp] lemma makeClone_eq (entry : LogEntry) : makeClone entry = entry := rfl

def appLog : UInt8 := 1

structure InmemLogStore where
  logs : OrdMap UInt64 LogEntry
  startIdx : UInt64

/-- What the store needs of the library: the integers of a `buffer`, and an entry as it is sent, with what the
reader of it gets. -/
structure Nuraft where
  putInt : Int32 → List UInt8
  getInt : List UInt8 → Option (Int32 × List UInt8)
  serialize : LogEntry → List UInt8
  deserialize : List UInt8 → Option LogEntry
  sent : LogEntry → LogEntry
  getInt_putInt : ∀ n rest, getInt (putInt n ++ rest) = some (n, rest)
  deserialize_serialize : ∀ e, deserialize (serialize e) = some (sent e)

def getEntry (lib : Nuraft) (pack : List UInt8) : Option (LogEntry × List UInt8) := do
  let (bufSize, rest) ← lib.getInt pack
  if bufSize.toInt < 0 ∨ rest.length < bufSize.toInt.toNat then none
  else
    let le ← lib.deserialize (rest.take bufSize.toInt.toNat)
    some (le, rest.drop bufSize.toInt.toNat)

def applyLoop (lib : Nuraft) :
    ℕ → UInt64 → List UInt8 → OrdMap UInt64 LogEntry → OrdMap UInt64 LogEntry × Bool
  | 0, _, _, logs => (logs, true)
  | left + 1, curIdx, pack, logs =>
    match getEntry lib pack with
    | none => (logs, false)
    | some (le, rest) => applyLoop lib left (curIdx + 1) rest (logs.insert curIdx le)

def indices (a b : UInt64) : List UInt64 := (List.range' a.toNat (b.toNat - a.toNat)).map .ofNat

def kMaxEntries : UInt64 := 576460752303423487

namespace InmemLogStore

variable (st : InmemLogStore)

def new (buf : List UInt8) : InmemLogStore := ⟨.insert .empty 0 ⟨0, buf, appLog, 0⟩, 1⟩

def nextSlot : UInt64 := st.startIdx + .ofNat st.logs.entries.length - 1

def lookup (index : UInt64) : Option LogEntry :=
  match st.logs.find index with
  | some entry => some entry
  | none => st.logs.find 0

def lastEntry : Option LogEntry := (st.lookup (st.nextSlot - 1)).map makeClone

def append (entry : LogEntry) : InmemLogStore × UInt64 :=
  let idx := st.startIdx + .ofNat st.logs.entries.length - 1
  ({ st with logs := st.logs.insert idx (makeClone entry) }, idx)

def writeAt (index : UInt64) (entry : LogEntry) : InmemLogStore :=
  { st with logs := (st.logs.eraseFrom index).insert index (makeClone entry) }

/-- The lookup of the two range reads: in a build with assertions a missing entry ends the process. -/
def lookupIn (asserts : Bool) (index : UInt64) : Option LogEntry :=
  match st.logs.find index with
  | some entry => some entry
  | none => if asserts then none else st.logs.find 0

/-- The vector is made of null pointers first; nothing when no vector is that long. -/
def logEntries (asserts : Bool) (start stop : UInt64) : Option (List (Option LogEntry)) :=
  if kMaxEntries < stop - start then none
  else if stop ≤ start then some (List.replicate (stop - start).toNat none)
  else (indices start stop).mapM fun ii => (st.lookupIn asserts ii).map fun src => some (makeClone src)

def logEntriesExtLoop (asserts : Bool) (hint : ℕ) : List UInt64 → ℕ → List LogEntry → Option (List LogEntry)
  | [], _, ret => some ret
  | ii :: rest, accumSize, ret => do
    let src ← st.lookupIn asserts ii
    let ret := ret ++ [makeClone src]
    let accumSize := accumSize + src.buf.length
    if hint ≠ 0 ∧ hint ≤ accumSize then some ret else logEntriesExtLoop asserts hint rest accumSize ret

def logEntriesExt (asserts : Bool) (start stop : UInt64) (batchSizeHintInBytes : Int64) : Option (List LogEntry) :=
  if batchSizeHintInBytes.toInt < 0 then some []
  else st.logEntriesExtLoop asserts batchSizeHintInBytes.toInt.toNat (indices start stop) 0 []

def entryAt (index : UInt64) : Option LogEntry := (st.lookup index).map makeClone

def termAt (index : UInt64) : Option UInt64 := (st.lookup index).map LogEntry.term

/-- Nothing when an entry is missing. A negative count asks for a buffer that is too large, or too small to put
the count. -/
def pack (lib : Nuraft) (index : UInt64) (cnt : Int32) : Option (List UInt8) := do
  let stop := index + .ofNat (cnt.toInt % 2 ^ 64).toNat
  let logs ← (indices index stop).mapM fun ii => (st.logs.find ii).map lib.serialize
  if cnt.toInt < 0 then none
  else some (lib.putInt cnt ++ logs.flatMap fun bb => lib.putInt (.ofNat bb.length) ++ bb)

def applyPack (lib : Nuraft) (index : UInt64) (pack : List UInt8) : InmemLogStore × Bool :=
  match lib.getInt pack with
  | none => (st, false)
  | some (numLogs, rest) =>
    match applyLoop lib numLogs.toInt.toNat index rest st.logs with
    | (logs, false) => ({ st with logs := logs }, false)
    | (logs, true) =>
      match logs.entries.find? fun e => 0 < e.1 with
      | some entry => (⟨logs, entry.1⟩, true)
      | none => (⟨logs, 1⟩, true)

/-- Nothing when the loop does not end: no index is above the highest one. -/
def compact (lastLogIndex : UInt64) : Option InmemLogStore :=
  if lastLogIndex = 18446744073709551615 then none
  else some ⟨(indices st.startIdx (lastLogIndex + 1)).foldl OrdMap.erase st.logs,
    if st.startIdx ≤ lastLogIndex then lastLogIndex + 1 else st.startIdx⟩

def lastDurableIndex : UInt64 := st.nextSlot - 1

end InmemLogStore

inductive LogAct
  | append (entry : LogEntry)
  | writeAt (index : UInt64) (entry : LogEntry)
  | applyPack (index : UInt64) (pack : List UInt8)
  | compact (lastLogIndex : UInt64)
  deriving DecidableEq

inductive LogRet
  | done
  | index (idx : UInt64)
  | threw
  | hangs
  deriving DecidableEq

def InmemLogStore.step (lib : Nuraft) (st : InmemLogStore) : LogAct → LogRet × InmemLogStore
  | .append entry => (.index (st.append entry).2, (st.append entry).1)
  | .writeAt index entry => (.done, st.writeAt index entry)
  | .applyPack index pack =>
    (if (st.applyPack lib index pack).2 then .done else .threw, (st.applyPack lib index pack).1)
  | .compact lastLogIndex =>
    match st.compact lastLogIndex with
    | some st' => (.done, st')
    | none => (.hangs, st)

def decodeEntries (lib : Nuraft) : ℕ → List UInt8 → Option (List LogEntry)
  | 0, _ => some []
  | left + 1, pack => do
    let (le, rest) ← getEntry lib pack
    let les ← decodeEntries lib left rest
    some (le :: les)

def decodePack (lib : Nuraft) (pack : List UInt8) : Option (List LogEntry) := do
  let (numLogs, rest) ← lib.getInt pack
  decodeEntries lib numLogs.toInt.toNat rest

def logStep (lib : Nuraft) (log : IndexedLog LogEntry) : LogAct → LogRet × IndexedLog LogEntry
  | .append entry => (.index (.ofNat log.next), log.append entry)
  | .writeAt index entry => (.done, log.rewriteFrom index.toNat entry)
  | .applyPack index pack => (.done, log.splice index.toNat ((decodePack lib pack).getD []))
  | .compact lastLogIndex => (.done, log.compact lastLogIndex.toNat)

def LogAct.NoGap (lib : Nuraft) (log : IndexedLog LogEntry) : LogAct → Prop
  | .writeAt index _ => log.start ≤ index.toNat ∧ index.toNat ≤ log.next
  | .applyPack index pack => (decodePack lib pack).isSome = true ∧ 0 < index.toNat ∧
      (log.next = log.start ∨ log.start ≤ index.toNat ∧ index.toNat ≤ log.next)
  | _ => True

/-- What the store leaves to its caller: a write overwrites or extends the log without a gap, and so does a pack,
which may start an empty log anywhere; a pack can be decoded; and the next index is one of 64 bits. -/
def LogAct.Ok (lib : Nuraft) (log : IndexedLog LogEntry) (a : LogAct) : Prop :=
  a.NoGap lib log ∧ (logStep lib log a).2.next < 2 ^ 64

instance decidableNoGap (lib : Nuraft) (log : IndexedLog LogEntry) : ∀ a : LogAct, Decidable (a.NoGap lib log)
  | .writeAt .. => inferInstanceAs (Decidable (_ ∧ _))
  | .applyPack .. => inferInstanceAs (Decidable (_ ∧ _ ∧ (_ ∨ _)))
  | .append _ | .compact _ => .isTrue trivial

instance decidableLogActOk (lib : Nuraft) (log : IndexedLog LogEntry) (a : LogAct) : Decidable (a.Ok lib log) :=
  inferInstanceAs (Decidable (_ ∧ _))

section Refinement

variable {lib : Nuraft} {dummy entry : LogEntry} {st : InmemLogStore} {log : IndexedLog LogEntry}
  {index i j : UInt64}

lemma toNat_of_lt {k : ℕ} (h : k < 2 ^ 64) : (UInt64.ofNat k).toNat = k := UInt64.toNat_ofNat_of_lt' h

lemma toNat_succ (h : i.toNat + 1 < 2 ^ 64) : (i + 1).toNat = i.toNat + 1 := by
  rw [UInt64.toNat_add, UInt64.toNat_one, Nat.mod_eq_of_lt h]

lemma mem_indices {a b : UInt64} : i ∈ indices a b ↔ a.toNat ≤ i.toNat ∧ i.toNat < b.toNat := by
  have hb := b.toNat_lt
  rw [indices, List.mem_map]
  constructor
  · rintro ⟨k, hk, rfl⟩
    obtain ⟨h₁, h₂⟩ := List.mem_range'_1.mp hk
    rw [toNat_of_lt (by omega)]
    omega
  · rintro ⟨h₁, h₂⟩
    exact ⟨i.toNat, List.mem_range'_1.mpr (by omega), UInt64.ofNat_toNat⟩

structure Holds (dummy : LogEntry) (st : InmemLogStore) (log : IndexedLog LogEntry) : Prop where
  start : st.startIdx.toNat = log.start
  pos : 0 < log.start
  next_lt : log.next < 2 ^ 64
  find : ∀ i, st.logs.find i = if i = 0 then some dummy else log.get i.toNat

namespace Holds

lemma numbered {logs : OrdMap UInt64 LogEntry} (hpos : 0 < log.start) (hnext : log.next < 2 ^ 64)
    (hfind : ∀ i, logs.find i = if i = 0 then some dummy else log.get i.toNat) :
    logs.entries = (0, dummy) :: log.numbered.map fun e => (.ofNat e.1, e.2) := by
  have hmem : ∀ e ∈ log.numbered, 0 < e.1 ∧ (UInt64.ofNat e.1).toNat = e.1 := by
    rintro ⟨i, e⟩ he
    have hget := IndexedLog.get_isSome.mp (Option.isSome_of_eq_some (IndexedLog.mem_numbered.mp he))
    exact ⟨hpos.trans_le hget.1, toNat_of_lt (hget.2.trans hnext)⟩
  apply OrdMap.entries_eq
  · refine List.pairwise_cons.mpr ⟨?_, List.pairwise_map.mpr (IndexedLog.numbered_sorted.imp_of_mem ?_)⟩
    · intro e he
      obtain ⟨f, hf, rfl⟩ := List.mem_map.mp he
      obtain ⟨h₁, h₂⟩ := hmem f hf
      rwa [UInt64.lt_iff_toNat_lt, h₂]
    · intro e f he hf hlt
      rwa [UInt64.lt_iff_toNat_lt, (hmem e he).2, (hmem f hf).2]
  · intro i e
    rw [hfind, List.mem_cons, Prod.mk.injEq, List.mem_map]
    have hin : log.get i.toNat = some e ↔ ∃ f ∈ log.numbered, (UInt64.ofNat f.1, f.2) = (i, e) := by
      constructor
      · intro hget
        exact ⟨(i.toNat, e), IndexedLog.mem_numbered.mpr hget, by rw [UInt64.ofNat_toNat]⟩
      · rintro ⟨⟨k, e⟩, hf, heq⟩
        cases heq
        rw [(hmem _ hf).2]
        exact IndexedLog.mem_numbered.mp hf
    rw [← hin]
    split_ifs with hi
    · subst hi
      have hnone : log.get (0 : UInt64).toNat = none := IndexedLog.get_of_lt hpos
      rw [hnone]
      simp [eq_comm]
    · simp [hi]

lemma nextSlot (h : Holds dummy st log) : st.nextSlot.toNat = log.next := by
  have hnext := h.next_lt
  rw [IndexedLog.next, ← h.start] at hnext ⊢
  rw [InmemLogStore.nextSlot, numbered h.pos h.next_lt h.find, List.length_cons, List.length_map,
    IndexedLog.length_numbered, UInt64.toNat_sub, UInt64.toNat_add, UInt64.toNat_ofNat']
  simp only [UInt64.toNat_one]
  omega

lemma lookup (h : Holds dummy st log) : st.lookup i = some ((log.get i.toNat).getD dummy) := by
  have hzero : log.get 0 = none := IndexedLog.get_of_lt h.pos
  rw [InmemLogStore.lookup, h.find, h.find, if_pos rfl]
  by_cases hi : i = 0
  · rw [if_pos hi, hi, UInt64.toNat_zero, hzero]
    rfl
  · rw [if_neg hi]
    cases log.get i.toNat <;> rfl

lemma new (buf : List UInt8) : Holds ⟨0, buf, appLog, 0⟩ (.new buf) ⟨1, []⟩ where
  start := rfl
  pos := Nat.one_pos
  next_lt := by decide
  find i := by
    rw [InmemLogStore.new, OrdMap.find_insert, OrdMap.find_empty]
    simp [IndexedLog.get]

lemma append (h : Holds dummy st log) (hnext : (log.append entry).next < 2 ^ 64) :
    Holds dummy (st.append entry).1 (log.append entry) where
  start := h.start
  pos := h.pos
  next_lt := hnext
  find i := by
    have hidx : i = st.nextSlot ↔ i.toNat = log.next := by rw [← UInt64.toNat_inj, h.nextSlot]
    have hpos : 0 < log.next := h.pos.trans_le (Nat.le_add_right _ _)
    have hzero : i = 0 ↔ i.toNat = 0 := UInt64.toNat_inj.symm
    change (st.logs.insert st.nextSlot (makeClone entry)).find i = _
    simp only [IndexedLog.get_append, OrdMap.find_insert, h.find, makeClone_eq, hidx, hzero]
    split_ifs <;> first | rfl | omega

lemma writeAt (h : Holds dummy st log) (h₁ : log.start ≤ index.toNat) (h₂ : index.toNat ≤ log.next)
    (hnext : (log.rewriteFrom index.toNat entry).next < 2 ^ 64) :
    Holds dummy (st.writeAt index entry) (log.rewriteFrom index.toNat entry) where
  start := h.start
  pos := h.pos
  next_lt := hnext
  find i := by
    have hpos := h.pos
    have hzero : i = 0 ↔ i.toNat = 0 := UInt64.toNat_inj.symm
    have hindex : i = index ↔ i.toNat = index.toNat := UInt64.toNat_inj.symm
    simp only [InmemLogStore.writeAt, OrdMap.find_insert, OrdMap.find_eraseFrom, h.find,
      IndexedLog.get_rewriteFrom h₁ h₂, makeClone_eq, UInt64.lt_iff_toNat_lt, hzero, hindex]
    split_ifs <;> first | rfl | omega

lemma compact {last : UInt64} (h : Holds dummy st log) (hnext : (log.compact last.toNat).next < 2 ^ 64) :
    ∃ st', st.compact last = some st' ∧ Holds dummy st' (log.compact last.toNat) := by
  have hpos := h.pos
  have hstart := h.start
  have hlast : last.toNat + 1 < 2 ^ 64 := by
    have hlt := h.next_lt
    rw [IndexedLog.next] at hlt hnext
    rw [IndexedLog.compact] at hnext
    split_ifs at hnext
    · simp only at hnext
      omega
    · omega
  have hsucc := toNat_succ hlast
  have hne : last ≠ 18446744073709551615 := by
    rintro rfl
    exact absurd hlast (by decide)
  refine ⟨_, if_neg hne, ?_, ?_, hnext, fun i => ?_⟩
  · rw [IndexedLog.compact]
    simp only [UInt64.le_iff_toNat_le, hstart]
    split_ifs
    · exact hsucc
    · exact hstart
  · rw [IndexedLog.compact]
    split_ifs
    · exact Nat.succ_pos _
    · exact hpos
  · have hlow : i.toNat < log.start → log.get i.toNat = none := IndexedLog.get_of_lt
    have hzero : i = 0 ↔ i.toNat = 0 := UInt64.toNat_inj.symm
    simp only [OrdMap.find_foldl_erase, h.find, IndexedLog.get_compact, mem_indices, hstart, hsucc, hzero]
    rcases lt_or_ge i.toNat log.start with hi | hi
    · simp [hlow hi, hi.not_ge]
    · split_ifs <;> first | rfl | omega

end Holds

lemma applyLoop_spec {left : ℕ} {pack : List UInt8} {les : List LogEntry} (cur : UInt64)
    (logs : OrdMap UInt64 LogEntry) (h : decodeEntries lib left pack = some les)
    (hcur : cur.toNat + les.length < 2 ^ 64) : ∃ logs', applyLoop lib left cur pack logs = (logs', true) ∧
      ∀ i, logs'.find i = if cur.toNat ≤ i.toNat ∧ i.toNat < cur.toNat + les.length then
        les[i.toNat - cur.toNat]? else logs.find i := by
  induction left generalizing cur pack logs les with
  | zero =>
    cases h
    refine ⟨logs, rfl, fun i => ?_⟩
    rw [if_neg]
    simp
  | succ left ih =>
    obtain ⟨⟨le, rest⟩, he, h⟩ := Option.bind_eq_some_iff.mp h
    obtain ⟨les, hles, h⟩ := Option.bind_eq_some_iff.mp h
    cases h
    rw [List.length_cons] at hcur
    have hsucc : (cur + 1).toNat = cur.toNat + 1 := toNat_succ (by omega)
    obtain ⟨logs', hloop, hfind⟩ := ih (cur + 1) (logs.insert cur le) hles (by omega)
    refine ⟨logs', by rw [applyLoop, he]; exact hloop, fun i => ?_⟩
    rw [hfind, OrdMap.find_insert, List.length_cons, hsucc]
    rcases lt_trichotomy i.toNat cur.toNat with hi | hi | hi
    · have hne : i ≠ cur := fun heq => by simp [heq] at hi
      rw [if_neg hne]
      split_ifs <;> first | rfl | omega
    · rw [if_neg (by omega), if_pos (UInt64.toNat_inj.mp hi), if_pos (by omega), hi, Nat.sub_self]
      rfl
    · have hne : i ≠ cur := fun heq => by simp [heq] at hi
      have hk : i.toNat - cur.toNat = i.toNat - (cur.toNat + 1) + 1 := by omega
      rw [if_neg hne, hk, List.getElem?_cons_succ]
      split_ifs <;> first | rfl | omega

lemma find?_pos_entries {logs : OrdMap UInt64 LogEntry} (hpos : 0 < log.start) (hnext : log.next < 2 ^ 64)
    (hfind : ∀ i, logs.find i = if i = 0 then some dummy else log.get i.toNat) :
    (logs.entries.find? fun e => 0 < e.1).map Prod.fst =
      if log.entries = [] then none else some (UInt64.ofNat log.start) := by
  obtain ⟨start, entries⟩ := log
  rw [Holds.numbered hpos hnext hfind]
  cases entries with
  | nil => rfl
  | cons e es =>
    have hstart : start < 2 ^ 64 := (Nat.le_add_right _ _).trans_lt hnext
    have hlt : (0 : UInt64) < UInt64.ofNat start := by rwa [UInt64.lt_iff_toNat_lt, toNat_of_lt hstart]
    rw [List.find?_cons_of_neg (by simp), IndexedLog.numbered, List.zipIdx_cons, List.map_cons, List.map_cons,
      List.find?_cons_of_pos (by simpa using hlt)]
    rfl

lemma Holds.applyPack {pack : List UInt8} (h : Holds dummy st log) (hok : (LogAct.applyPack index pack).Ok lib log) :
    (st.applyPack lib index pack).2 = true ∧
      Holds dummy (st.applyPack lib index pack).1 (logStep lib log (.applyPack index pack)).2 := by
  obtain ⟨⟨hsome, hindex, hat⟩, hnext⟩ := hok
  obtain ⟨les, hdec⟩ := Option.isSome_iff_exists.mp hsome
  obtain ⟨⟨numLogs, rest⟩, hint, hles⟩ := Option.bind_eq_some_iff.mp hdec
  simp only [logStep, hdec, Option.getD_some] at hnext ⊢
  have hroom : index.toNat + les.length < 2 ^ 64 := by
    have hlt := index.toNat_lt
    rcases IndexedLog.next_splice les hat with hnil | hle
    · rw [hnil, List.length_nil]
      exact hlt
    · exact hle.trans_lt hnext
  obtain ⟨logs, hloop, hfind⟩ := applyLoop_spec index st.logs hles hroom
  simp only [InmemLogStore.applyPack, hint, hloop]
  -- the map that the loop leaves holds the spliced log
  have hget : ∀ i, logs.find i = if i = 0 then some dummy else (log.splice index.toNat les).get i.toNat := by
    intro i
    have hzero : i = 0 ↔ i.toNat = 0 := UInt64.toNat_inj.symm
    simp only [hfind, h.find, IndexedLog.get_splice hat, hzero]
    split_ifs <;> first | rfl | omega
  have hpos : 0 < (log.splice index.toNat les).start := by
    rw [IndexedLog.splice]
    split_ifs
    · exact Nat.one_pos
    · exact hindex
    · exact h.pos
  have hfirst := find?_pos_entries hpos hnext hget
  cases he : logs.entries.find? fun e => 0 < e.1 with
  | some e =>
    rw [he] at hfirst
    split_ifs at hfirst
    · cases hfirst
    · have hstart : e.1.toNat = (log.splice index.toNat les).start := by
        rw [show e.1 = _ from Option.some.inj hfirst]
        exact toNat_of_lt ((Nat.le_add_right _ _).trans_lt hnext)
      exact ⟨rfl, hstart, hpos, hnext, hget⟩
  | none =>
    rw [he] at hfirst
    split_ifs at hfirst with hempty
    · exact ⟨rfl, (IndexedLog.splice_start hempty).symm, hpos, hnext, hget⟩
    · cases hfirst

lemma Holds.step {a : LogAct} (h : Holds dummy st log) (hok : a.Ok lib log) :
    (st.step lib a).1 = (logStep lib log a).1 ∧ Holds dummy (st.step lib a).2 (logStep lib log a).2 := by
  cases a with
  | append entry =>
    have hidx : st.nextSlot = .ofNat log.next := by rw [← h.nextSlot, UInt64.ofNat_toNat]
    exact ⟨congrArg LogRet.index hidx, h.append hok.2⟩
  | writeAt index entry => exact ⟨rfl, h.writeAt hok.1.1 hok.1.2 hok.2⟩
  | applyPack index pack => exact ⟨if_pos (h.applyPack hok).1, (h.applyPack hok).2⟩
  | compact lastLogIndex =>
    obtain ⟨st', hst, hh⟩ := h.compact hok.2
    simp only [InmemLogStore.step, hst]
    exact ⟨rfl, hh⟩

lemma Holds.lookupIn {asserts : Bool} (h : Holds dummy st log) (hget : log.get i.toNat = some entry) :
    st.lookupIn asserts i = some entry := by
  have hi : i ≠ 0 := by
    rintro rfl
    have hle := (IndexedLog.get_eq_some.mp hget).1
    exact absurd h.pos hle.not_gt
  rw [InmemLogStore.lookupIn, h.find, if_neg hi, hget]

lemma Holds.mapM_indices {β : Type} {f : UInt64 → Option β} {g : LogEntry → β} (h : Holds dummy st log)
    (hf : ∀ i a, log.get i.toNat = some a → f i = some (g a)) (h₁ : log.start ≤ i.toNat) (hij : i.toNat ≤ j.toNat)
    (h₂ : j.toNat ≤ log.next) : (indices i j).mapM f = some ((log.between i.toNat j.toNat).map g) := by
  have hlt := h.next_lt
  obtain ⟨k, hk⟩ := Nat.exists_eq_add_of_le hij
  rw [indices, hk, Nat.add_sub_cancel_left, List.mapM_map]
  refine IndexedLog.mapM_range' (fun m a ha => hf _ a ?_) h₁ (by omega)
  have hm := (IndexedLog.get_isSome.mp (Option.isSome_of_eq_some ha)).2
  rwa [toNat_of_lt (by omega)]

lemma toNat_sub_of_le (hij : i.toNat ≤ j.toNat) : (j - i).toNat = j.toNat - i.toNat := by
  have hj := j.toNat_lt
  rw [UInt64.toNat_sub]
  omega

lemma Holds.logEntries {asserts : Bool} (h : Holds dummy st log) (h₁ : log.start ≤ i.toNat)
    (hij : i.toNat ≤ j.toNat) (h₂ : j.toNat ≤ log.next) (hmax : j.toNat - i.toNat ≤ kMaxEntries.toNat) :
    st.logEntries asserts i j = some ((log.between i.toNat j.toNat).map some) := by
  have hsub := toNat_sub_of_le hij
  have hfits : ¬ kMaxEntries < j - i := by
    rw [UInt64.lt_iff_toNat_lt, hsub]
    exact hmax.not_gt
  rw [InmemLogStore.logEntries, if_neg hfits]
  split_ifs with hle
  · rw [UInt64.le_iff_toNat_le] at hle
    have heq : j.toNat = i.toNat := le_antisymm hle hij
    rw [hsub, heq, Nat.sub_self, IndexedLog.between_self]
    rfl
  · exact h.mapM_indices (fun m a ha => by rw [h.lookupIn ha]; rfl) h₁ hij h₂

def bytesOf (es : List LogEntry) : ℕ := (es.map fun e => e.buf.length).sum

def batch (hint : ℕ) : ℕ → List LogEntry → List LogEntry
  | _, [] => []
  | accum, e :: es =>
    if hint ≠ 0 ∧ hint ≤ accum + e.buf.length then [e] else e :: batch hint (accum + e.buf.length) es

lemma Holds.logEntriesExtLoop {asserts : Bool} {hint left accum i : ℕ} {ret : List LogEntry} (h : Holds dummy st log)
    (h₁ : log.start ≤ i) (h₂ : i + left ≤ log.next) :
    st.logEntriesExtLoop asserts hint ((List.range' i left).map .ofNat) accum ret =
      some (ret ++ batch hint accum (log.between i (i + left))) := by
  induction left generalizing i accum ret with
  | zero =>
    rw [Nat.add_zero, IndexedLog.between_self, batch, List.append_nil]
    rfl
  | succ left ih =>
    have hlt := h.next_lt
    obtain ⟨e, he⟩ := IndexedLog.exists_get h₁ (by omega : i < log.next)
    have hlook : st.lookupIn asserts (.ofNat i) = some e := h.lookupIn (by rwa [toNat_of_lt (by omega)])
    rw [List.range'_succ, List.map_cons, InmemLogStore.logEntriesExtLoop, hlook, IndexedLog.between_succ he, batch]
    simp only [Option.bind_eq_bind, Option.bind_some, makeClone_eq]
    split_ifs
    · rfl
    · rw [ih (by omega) (by omega), List.append_assoc]
      rfl

lemma batch_prefix (hint accum : ℕ) (es : List LogEntry) : batch hint accum es <+: es := by
  induction es generalizing accum with
  | nil => exact List.prefix_rfl
  | cons e es ih =>
    rw [batch]
    split_ifs
    · exact List.prefix_cons_inj e |>.mpr List.nil_prefix
    · exact (List.prefix_cons_inj e).mpr (ih _)

lemma batch_full (hint accum : ℕ) (es : List LogEntry) :
    batch hint accum es = es ∨ 0 < hint ∧ hint ≤ accum + bytesOf (batch hint accum es) := by
  induction es generalizing accum with
  | nil => exact Or.inl rfl
  | cons e es ih =>
    rw [batch]
    split_ifs with hfull
    · refine Or.inr ⟨Nat.pos_of_ne_zero hfull.1, ?_⟩
      simpa [bytesOf] using hfull.2
    · rcases ih (accum + e.buf.length) with hall | ⟨hpos, hle⟩
      · exact Or.inl (by rw [hall])
      · refine Or.inr ⟨hpos, ?_⟩
        simpa [bytesOf, Nat.add_assoc] using hle

lemma batch_dropLast {hint accum : ℕ} (haccum : accum < hint) (es : List LogEntry) :
    accum + bytesOf (batch hint accum es).dropLast < hint := by
  induction es generalizing accum with
  | nil => simpa [batch, bytesOf] using haccum
  | cons e es ih =>
    rw [batch]
    split_ifs with hfull
    · simpa [bytesOf] using haccum
    · have hlt : accum + e.buf.length < hint := by omega
      have hrest := ih hlt
      cases hb : batch hint (accum + e.buf.length) es with
      | nil => simpa [bytesOf] using haccum
      | cons e' es' =>
        rw [hb] at hrest
        simpa [bytesOf, Nat.add_assoc] using hrest

section Packs

variable {rest : List UInt8} {cnt : Int32}

lemma getEntry_putEntry {e : LogEntry} (h : (lib.serialize e).length < 2 ^ 31) :
    getEntry lib (lib.putInt (.ofNat (lib.serialize e).length) ++ lib.serialize e ++ rest) =
      some (lib.sent e, rest) := by
  have hlen := Int32.toInt_ofNat_of_lt h
  rw [getEntry, List.append_assoc, lib.getInt_putInt]
  simp only [Option.bind_eq_bind, Option.bind_some, hlen, Int.toNat_natCast, List.take_left, List.drop_left,
    lib.deserialize_serialize]
  rw [if_neg]
  rw [List.length_append]
  omega

lemma decodeEntries_pack {es : List LogEntry} (h : ∀ e ∈ es, (lib.serialize e).length < 2 ^ 31) :
    decodeEntries lib es.length
        ((es.map lib.serialize).flatMap fun bb => lib.putInt (.ofNat bb.length) ++ bb) =
      some (es.map lib.sent) := by
  induction es with
  | nil => rfl
  | cons e es ih =>
    obtain ⟨he, hes⟩ := List.forall_mem_cons.mp h
    rw [List.map_cons, List.flatMap_cons, List.length_cons, decodeEntries, getEntry_putEntry he]
    simp [ih hes]

lemma Holds.pack (h : Holds dummy st log) {k : ℕ} (hcnt : cnt.toInt = k)
    (hsize : ∀ e ∈ log.between index.toNat (index.toNat + k), (lib.serialize e).length < 2 ^ 31)
    (h₁ : log.start ≤ index.toNat) (h₂ : index.toNat + k ≤ log.next) :
    ∃ p, st.pack lib index cnt = some p ∧
      decodePack lib p = some ((log.between index.toNat (index.toNat + k)).map lib.sent) := by
  have hpos := h.pos
  have hlt := h.next_lt
  have hstop : (index + .ofNat (cnt.toInt % 2 ^ 64).toNat).toNat = index.toNat + k := by
    rw [UInt64.toNat_add, UInt64.toNat_ofNat', hcnt]
    omega
  have hlogs := h.mapM_indices (f := fun ii => (st.logs.find ii).map lib.serialize) (g := lib.serialize)
    (i := index) (j := index + .ofNat (cnt.toInt % 2 ^ 64).toNat) (fun i e he => by
      have hi : i ≠ 0 := by
        rintro rfl
        exact absurd hpos (IndexedLog.get_eq_some.mp he).1.not_gt
      simp only [h.find, if_neg hi, he, Option.map_some]) h₁ (by omega) (by omega)
  rw [hstop] at hlogs
  refine ⟨lib.putInt cnt ++ ((log.between index.toNat (index.toNat + k)).map lib.serialize).flatMap fun bb =>
    lib.putInt (.ofNat bb.length) ++ bb, ?_, ?_⟩
  · simp only [InmemLogStore.pack, hlogs, Option.bind_eq_bind, Option.bind_some]
    rw [if_neg (by omega)]
  · have hdec := decodeEntries_pack hsize
    rw [IndexedLog.length_between h₁ h₂, Nat.add_sub_cancel_left] at hdec
    simp only [decodePack, lib.getInt_putInt, Option.bind_eq_bind, Option.bind_some, hcnt, Int.toNat_natCast]
    exact hdec

end Packs

/-- The answers of a store that holds the log: a batch is as much of the range as it takes to get to the hint, and a
pack has the entries as the library sends them. -/
structure Answers (lib : Nuraft) (dummy : LogEntry) (st : InmemLogStore) (log : IndexedLog LogEntry) : Prop where
  start : st.startIdx.toNat = log.start
  next : st.nextSlot.toNat = log.next
  durable : st.lastDurableIndex.toNat + 1 = log.next
  entry : ∀ i, st.entryAt i = some ((log.get i.toNat).getD dummy)
  term : ∀ i, st.termAt i = some ((log.get i.toNat).getD dummy).term
  last : st.lastEntry = some (log.entries.getLast?.getD dummy)
  range : ∀ asserts i j, log.start ≤ i.toNat → i.toNat ≤ j.toNat → j.toNat ≤ log.next →
    j.toNat - i.toNat ≤ kMaxEntries.toNat → st.logEntries asserts i j = some ((log.between i.toNat j.toNat).map some)
  batch : ∀ asserts i j hint, log.start ≤ i.toNat → i.toNat ≤ j.toNat → j.toNat ≤ log.next → 0 ≤ hint.toInt →
    ∃ b, st.logEntriesExt asserts i j hint = some b ∧ b <+: log.between i.toNat j.toNat ∧
      (b = log.between i.toNat j.toNat ∨ 0 < hint.toInt ∧ hint.toInt ≤ bytesOf b) ∧
      (0 < hint.toInt → bytesOf b.dropLast < hint.toInt)
  no_batch : ∀ asserts i j hint, hint.toInt < 0 → st.logEntriesExt asserts i j hint = some []
  pack : ∀ (index : UInt64) (cnt : Int32) (k : ℕ), cnt.toInt = k → log.start ≤ index.toNat →
    index.toNat + k ≤ log.next →
    (∀ e ∈ log.between index.toNat (index.toNat + k), (lib.serialize e).length < 2 ^ 31) →
    ∃ p, st.pack lib index cnt = some p ∧
      decodePack lib p = some ((log.between index.toNat (index.toNat + k)).map lib.sent)

lemma Holds.before_next (h : Holds dummy st log) : (st.nextSlot - 1).toNat = log.next - 1 := by
  have hpos : 0 < log.next := h.pos.trans_le (Nat.le_add_right _ _)
  rw [toNat_sub_of_le (by rw [h.nextSlot]; exact hpos), h.nextSlot]
  rfl

lemma Holds.lastEntry (h : Holds dummy st log) : st.lastEntry = some (log.entries.getLast?.getD dummy) := by
  have hget : log.get (log.next - 1) = log.entries.getLast? := by
    have hpos := h.pos
    rw [List.getLast?_eq_getElem?, IndexedLog.next]
    rcases Nat.eq_zero_or_pos log.entries.length with h₀ | h₀
    · rw [IndexedLog.get_of_lt (by omega), List.getElem?_eq_none (by omega)]
    · rw [IndexedLog.get_of_le (by omega)]
      congr 1
      omega
  rw [InmemLogStore.lastEntry, h.lookup, h.before_next, hget]
  rfl

lemma Holds.answers (h : Holds dummy st log) : Answers lib dummy st log where
  start := h.start
  next := h.nextSlot
  durable := by
    have hpos : 0 < log.next := h.pos.trans_le (Nat.le_add_right _ _)
    rw [InmemLogStore.lastDurableIndex, h.before_next]
    omega
  entry i := by rw [InmemLogStore.entryAt, h.lookup]; rfl
  term i := by rw [InmemLogStore.termAt, h.lookup]; rfl
  last := h.lastEntry
  range asserts i j h₁ hij h₂ hmax := h.logEntries h₁ hij h₂ hmax
  batch asserts i j hint h₁ hij h₂ hpos := by
    obtain ⟨k, hk⟩ := Nat.exists_eq_add_of_le hij
    obtain ⟨m, hm⟩ := Int.eq_ofNat_of_zero_le hpos
    rw [hk, hm]
    refine ⟨_, ?_, batch_prefix m 0 _, ?_, fun hpos => ?_⟩
    · rw [InmemLogStore.logEntriesExt, if_neg (by omega), indices, hk, Nat.add_sub_cancel_left, hm, Int.toNat_natCast,
        h.logEntriesExtLoop h₁ (by omega)]
      rfl
    · rcases batch_full m 0 (log.between i.toNat (i.toNat + k)) with hall | ⟨hm, hle⟩
      · exact Or.inl hall
      · exact Or.inr ⟨by exact_mod_cast hm, by rw [Nat.zero_add] at hle; exact_mod_cast hle⟩
    · have hdrop := batch_dropLast (by exact_mod_cast hpos : 0 < m) (log.between i.toNat (i.toNat + k))
      rw [Nat.zero_add] at hdrop
      exact_mod_cast hdrop
  no_batch asserts i j hint hneg := if_pos hneg
  pack index cnt k hcnt h₁ h₂ hsize := h.pack hcnt hsize h₁ h₂

end Refinement

section Runs

end Runs

end CraftClient.Raft
