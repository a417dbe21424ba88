import CraftClient.Lib.Runs
import CraftClient.Router.RouteMap

namespace CraftClient.Router

open Runs

variable {n : ℕ} {L : ℤ} {holds : Fin n → ℤ → Prop} {r r' : RouteMap n} {d e : ℤ} {x : ℕ}
  {i : Fin n} {s : RouteSlot n}

def RouteSlot.Covers (s : RouteSlot n) (x : ℕ) : Prop :=
  s.addr.toNat ≤ x ∧ x < s.addr.toNat + s.len.toNat

def RouteSlot.Quorate (s : RouteSlot n) : Prop := quorum n ≤ s.holders.card

def PendingMiss.Covers (e : PendingMiss n) (x : ℕ) : Prop :=
  ivlLo e.addr ≤ x ∧ x < ivlHi e.addr e.len

instance (e : PendingMiss n) (x : ℕ) : Decidable (e.Covers x) := inferInstanceAs (Decidable (_ ∧ _))

def Highest (r : RouteMap n) (M : ℤ) (x : ℕ) (d : ℤ) (s : RouteSlot n) : Prop :=
  d ≤ M ∧ r.overlay.data d = some s ∧ s.Covers x ∧ s.Quorate ∧
    ∀ e s', d < e → e ≤ M → r.overlay.data e = some s' → s'.Covers x → ¬ s'.Quorate

structure FoldInv (L : ℤ) (r : RouteMap n) : Prop where
  login : r.loginDlsn = L
  login_le : L ≤ r.folded
  base_le : r.overlay.base ≤ r.folded + 1
  login_lt : ∀ d s, r.overlay.data d = some s → L < d
  dlsn_eq : ∀ d s, r.overlay.data d = some s → s.dlsn = d
  no_verdict : ∀ d s, r.overlay.data d = some s → s.verdict = false
  complete_iff : ∀ d, d ∈ r.overlay.completed ↔
    ∃ s, r.overlay.data d = some s ∧ s.completed = Finset.univ
  completed_of_le : ∀ d, L < d → d ≤ r.folded → d ∈ r.overlay.completed
  pending_spec : ∀ e, e ∈ r.pending ↔ r.folded < e.dlsn ∧ ∃ s, r.overlay.data e.dlsn = some s ∧
    s.completed = Finset.univ ∧ s.Quorate ∧ s.holders ≠ Finset.univ ∧ e = s.miss
  hint_le : ∀ e ∈ r.pending, r.pendingHint ≤ e.dlsn

structure RouteInv (L : ℤ) (holds : Fin n → ℤ → Prop) (r : RouteMap n) : Prop extends FoldInv L r where
  end_lt : ∀ d s, r.overlay.data d = some s → s.addr.toNat + s.len.toNat < 2 ^ 64
  holds_of_acked : ∀ d s i, r.overlay.data d = some s → i ∈ s.holders → holds i d
  missed : ∀ d s i x, Highest r r.folded x d s → i ∉ s.holders →
    (r.miss i).get x = some d ∨ holds i d

namespace RouteMap

lemma foldTo_data (r : RouteMap n) (F : ℤ) : (r.foldTo F).overlay.data = r.overlay.data := by
  simp only [foldTo, maybeTruncate]
  split_ifs <;> rfl

lemma foldTo_synced (r : RouteMap n) (F : ℤ) : (r.foldTo F).synced = r.synced := by
  simp only [foldTo, maybeTruncate]
  split_ifs <;> rfl

lemma advanceSynced_overlay [NeZero n] (r : RouteMap n) (i : Fin n) (C : ℤ) :
    (r.advanceSynced i C).overlay = r.overlay := by
  rw [advanceSynced]
  split_ifs <;> rfl

lemma advanceSynced_synced_le [NeZero n] {c : Fin n → ℤ} {C : ℤ} (h : ∀ j, r.synced j ≤ c j) (hC : C ≤ c i)
    (j : Fin n) : (r.advanceSynced i C).synced j ≤ c j := by
  rw [advanceSynced]
  split_ifs
  · exact h j
  · simp only [Function.update_apply]
    split_ifs with hj
    · rwa [hj]
    · exact h j

lemma recordCompletion_data {acked : Bool} (hs : r.overlay.find d = some s) (e : ℤ) :
    (r.recordCompletion d i acked).overlay.data e =
      if e = d then some (s.answer i acked) else r.overlay.data e := by
  have hd := (StreamTracker.find_eq_some.mp hs).2
  have hmod : (r.overlay.modify d fun _ => s.answer i acked).data e =
      if e = d then some (s.answer i acked) else r.overlay.data e := by
    simp [hd]
  simp only [recordCompletion, hs]
  split_ifs at hmod ⊢ <;> exact hmod

lemma recordCompletion_synced (r : RouteMap n) (d : ℤ) (i : Fin n) (acked : Bool) :
    (r.recordCompletion d i acked).synced = r.synced := by
  simp only [recordCompletion]
  split
  · rfl
  · split_ifs <;> rfl

end RouteMap

lemma foldInv_reset (L : ℤ) : FoldInv L (RouteMap.reset n L) := by
  constructor <;> simp [RouteMap.reset, StreamTracker.emplace]

lemma routeInv_reset (L : ℤ) (holds : Fin n → ℤ → Prop) : RouteInv L holds (RouteMap.reset n L) := by
  refine ⟨foldInv_reset L, ?_, ?_, ?_⟩ <;> simp [RouteMap.reset, StreamTracker.emplace, Highest]

lemma RouteInv.mono {holds' : Fin n → ℤ → Prop} (h : RouteInv L holds r)
    (hle : ∀ i d, holds i d → holds' i d) : RouteInv L holds' r :=
  { h with
    holds_of_acked := fun d s i hs hi => hle i d (h.holds_of_acked d s i hs hi)
    missed := fun d s i x hd hi => (h.missed d s i x hd hi).imp_right (hle i d) }

lemma FoldInv.not_mem_completed (h : FoldInv L r)
    (hn : ∀ s, r.overlay.data d = some s → s.completed ≠ Finset.univ) : d ∉ r.overlay.completed := by
  intro hm
  obtain ⟨s, hs, hc⟩ := (h.complete_iff d).mp hm
  exact hn s hs hc

lemma FoldInv.folded_lt (h : FoldInv L r) (hL : L < d)
    (hn : ∀ s, r.overlay.data d = some s → s.completed ≠ Finset.univ) : r.folded < d :=
  not_le.mp fun hle => h.not_mem_completed hn (h.completed_of_le d hL hle)

lemma open_of_not_mem (hs : r.overlay.data d = some s) (hi : i ∉ s.completed) :
    ∀ s, r.overlay.data d = some s → s.completed ≠ Finset.univ := by
  intro s' hs' hc
  obtain rfl : s = s' := Option.some.inj (hs.symm.trans hs')
  exact hi (hc ▸ Finset.mem_univ i)

lemma open_of_none (hn : r.overlay.data d = none) :
    ∀ s, r.overlay.data d = some s → s.completed ≠ Finset.univ := by
  intro s hs
  rw [hn] at hs
  cases hs

structure SlotChange (r r' : RouteMap n) (d : ℤ) (s : RouteSlot n) : Prop where
  login : r'.loginDlsn = r.loginDlsn
  folded : r'.folded = r.folded
  base : r'.overlay.base = r.overlay.base
  miss : r'.miss = r.miss
  data : ∀ e, r'.overlay.data e = if e = d then some s else r.overlay.data e
  completed : ∀ e, e ∈ r'.overlay.completed ↔
    e = d ∧ s.completed = Finset.univ ∨ e ≠ d ∧ e ∈ r.overlay.completed
  pending : ∀ e, e ∈ r'.pending ↔ e ∈ r.pending ∨
    s.completed = Finset.univ ∧ s.Quorate ∧ s.holders ≠ Finset.univ ∧ e = s.miss
  hint : r'.pendingHint ≤ r.pendingHint ∧
    (s.completed = Finset.univ → s.Quorate → s.holders ≠ Finset.univ → r'.pendingHint ≤ d)

lemma SlotChange.data_cases {s' : RouteSlot n} (hc : SlotChange r r' d s)
    (hs' : r'.overlay.data e = some s') : e = d ∧ s' = s ∨ r.overlay.data e = some s' := by
  rw [hc.data] at hs'
  split_ifs at hs' with he
  · exact Or.inl ⟨he, (Option.some.inj hs').symm⟩
  · exact Or.inr hs'

lemma SlotChange.data_of_ne (hc : SlotChange r r' d s) (he : e ≠ d) :
    r'.overlay.data e = r.overlay.data e := by
  rw [hc.data, if_neg he]

lemma FoldInv.slotChange (h : FoldInv L r) (hc : SlotChange r r' d s) (hL : L < d)
    (hn : ∀ s, r.overlay.data d = some s → s.completed ≠ Finset.univ) (hd : s.dlsn = d)
    (hv : s.verdict = false) : FoldInv L r' := by
  have hF := h.folded_lt hL hn
  have hself : r'.overlay.data d = some s := by rw [hc.data, if_pos rfl]
  refine ⟨hc.login.trans h.login, ?_, ?_, ?_, ?_, ?_, ?_, ?_, ?_, ?_⟩
  · rw [hc.folded]
    exact h.login_le
  · rw [hc.folded, hc.base]
    exact h.base_le
  · intro e s' hs'
    rcases hc.data_cases hs' with ⟨rfl, rfl⟩ | hs'
    · exact hL
    · exact h.login_lt e s' hs'
  · intro e s' hs'
    rcases hc.data_cases hs' with ⟨rfl, rfl⟩ | hs'
    · exact hd
    · exact h.dlsn_eq e s' hs'
  · intro e s' hs'
    rcases hc.data_cases hs' with ⟨rfl, rfl⟩ | hs'
    · exact hv
    · exact h.no_verdict e s' hs'
  · intro e
    rw [hc.completed]
    by_cases he : e = d
    · subst he
      simp [hself]
    · simp only [he, false_and, ne_eq, not_false_eq_true, true_and, false_or, hc.data, if_false]
      exact h.complete_iff e
  · intro e hLe hle
    rw [hc.folded] at hle
    exact (hc.completed e).mpr (Or.inr ⟨by omega, h.completed_of_le e hLe hle⟩)
  · intro e
    rw [hc.pending, h.pending_spec, hc.folded]
    constructor
    · rintro (⟨hlt, s', hs', hcomp, hrest⟩ | ⟨hcomp, hq, hne, rfl⟩)
      · have he : e.dlsn ≠ d := fun he => hn s' (he ▸ hs') hcomp
        exact ⟨hlt, s', (hc.data_of_ne he).trans hs', hcomp, hrest⟩
      · change r.folded < s.dlsn ∧ ∃ s', r'.overlay.data s.dlsn = some s' ∧ _
        rw [hd]
        exact ⟨hF, s, hself, hcomp, hq, hne, rfl⟩
    · rintro ⟨hlt, s', hs', hcomp, hq, hne, he⟩
      rcases hc.data_cases hs' with ⟨-, rfl⟩ | hs'
      · exact Or.inr ⟨hcomp, hq, hne, he⟩
      · exact Or.inl ⟨hlt, s', hs', hcomp, hq, hne, he⟩
  · intro e he
    rcases (hc.pending e).mp he with he | ⟨hcomp, hq, hne, rfl⟩
    · exact hc.hint.1.trans (h.hint_le e he)
    · change _ ≤ s.dlsn
      rw [hd]
      exact hc.hint.2 hcomp hq hne

lemma RouteInv.slotChange (h : RouteInv L holds r) (hc : SlotChange r r' d s) (hL : L < d)
    (hn : ∀ s, r.overlay.data d = some s → s.completed ≠ Finset.univ) (hd : s.dlsn = d)
    (hend : s.addr.toNat + s.len.toNat < 2 ^ 64) (hv : s.verdict = false)
    (hholds : ∀ i ∈ s.holders, holds i d) : RouteInv L holds r' := by
  have hF := h.folded_lt hL hn
  refine ⟨h.toFoldInv.slotChange hc hL hn hd hv, ?_, ?_, ?_⟩
  · intro e s' hs'
    rcases hc.data_cases hs' with ⟨rfl, rfl⟩ | hs'
    · exact hend
    · exact h.end_lt e s' hs'
  · intro e s' i hs' hi
    rcases hc.data_cases hs' with ⟨rfl, rfl⟩ | hs'
    · exact hholds i hi
    · exact h.holds_of_acked e s' i hs' hi
  · intro e s' i x hhi hi
    rw [hc.folded] at hhi
    rw [hc.miss]
    refine h.missed e s' i x ?_ hi
    obtain ⟨hle, hs', hx, hq, htop⟩ := hhi
    refine ⟨hle, (hc.data_cases hs').resolve_left (by omega), hx, hq, fun f s'' hlt hf hs'' => ?_⟩
    exact htop f s'' hlt hf ((hc.data_of_ne (by omega)).trans hs'')

lemma slotChange_create [NeZero n] {addr len : UInt64} (hnot : d ∉ r.overlay.completed) :
    SlotChange r (r.create d addr len) d ⟨d, addr, len, ∅, ∅, false⟩ := by
  have hne : (∅ : Finset (Fin n)) ≠ Finset.univ := fun he => by
    have hm := Finset.mem_univ (0 : Fin n)
    rw [← he] at hm
    cases hm
  refine ⟨rfl, rfl, rfl, rfl, fun e => ?_, fun e => ?_, fun e => ?_, le_rfl, fun hc => absurd hc hne⟩
  · simp [RouteMap.create]
  · simp only [hne, and_false, false_or, ne_eq]
    exact ⟨fun hm => ⟨fun he => hnot (he ▸ hm), hm⟩, fun hm => hm.2⟩
  · simp [hne, RouteMap.create]

lemma slotChange_recordCompletion {acked : Bool} (hfind : r.overlay.find d = some s)
    (hnot : d ∉ r.overlay.completed) (hd : s.dlsn = d) :
    SlotChange r (r.recordCompletion d i acked) d (s.answer i acked) := by
  have hdata : ∀ e, (r.recordCompletion d i acked).overlay.data e =
      if e = d then some (s.answer i acked) else r.overlay.data e := RouteMap.recordCompletion_data hfind
  simp only [RouteMap.recordCompletion, hfind] at hdata ⊢
  split_ifs at hdata ⊢ with hcomp hpush
  · refine ⟨rfl, rfl, rfl, rfl, hdata, fun e => ?_, fun e => ?_, le_rfl, fun hc => absurd hc hcomp⟩
    · simp only [hcomp, and_false, false_or, ne_eq]
      exact ⟨fun hm => ⟨fun he => hnot (he ▸ hm), hm⟩, fun hm => hm.2⟩
    · simp [hcomp]
  · have hcomp := not_not.mp hcomp
    refine ⟨rfl, rfl, rfl, rfl, hdata, fun e => ?_, fun e => ?_, min_le_right _ _, fun _ _ _ => ?_⟩
    · simp only [hcomp, and_true, RouteMap.pushMiss, StreamTracker.mem_complete]
      change e = d ∨ e ∈ r.overlay.completed ↔ _
      by_cases he : e = d <;> simp [he]
    · simp [RouteMap.pushMiss, hcomp, RouteSlot.Quorate, hpush.1, hpush.2]
    · exact (min_le_left _ _).trans_eq hd
  · have hcomp := not_not.mp hcomp
    refine ⟨rfl, rfl, rfl, rfl, hdata, fun e => ?_, fun e => ?_, le_rfl, fun _ hq hne => ?_⟩
    · simp only [hcomp, and_true, StreamTracker.mem_complete]
      change e = d ∨ e ∈ r.overlay.completed ↔ _
      by_cases he : e = d <;> simp [he]
    · simp only [hcomp, true_and]
      refine (or_iff_left fun hh => hpush ⟨hh.1, hh.2.1⟩).symm
    · exact absurd ⟨hq, hne⟩ hpush

lemma FoldInv.find_of_open (h : FoldInv L r) (hs : r.overlay.data d = some s)
    (hi : i ∉ s.completed) : r.overlay.find d = some s := by
  have hF := h.folded_lt (h.login_lt d s hs) (open_of_not_mem hs hi)
  have hb := h.base_le
  exact StreamTracker.find_eq_some.mpr ⟨by omega, hs⟩

lemma FoldInv.slotChange_answer {acked : Bool} (h : FoldInv L r) (hs : r.overlay.data d = some s)
    (hi : i ∉ s.completed) : SlotChange r (r.recordCompletion d i acked) d (s.answer i acked) :=
  slotChange_recordCompletion (h.find_of_open hs hi) (h.not_mem_completed (open_of_not_mem hs hi))
    (h.dlsn_eq d s hs)

lemma RouteInv.create [NeZero n] {addr len : UInt64} (h : RouteInv L holds r) (hL : L < d)
    (hn : r.overlay.data d = none) (hend : addr.toNat + len.toNat < 2 ^ 64) :
    RouteInv L holds (r.create d addr len) :=
  h.slotChange (slotChange_create (h.not_mem_completed (open_of_none hn))) hL (open_of_none hn) rfl hend
    rfl (by simp)

lemma RouteInv.recordCompletion {acked : Bool} (h : RouteInv L holds r)
    (hs : r.overlay.data d = some s) (hi : i ∉ s.completed) (ha : acked = true → holds i d) :
    RouteInv L holds (r.recordCompletion d i acked) := by
  refine h.slotChange (h.slotChange_answer hs hi) (h.login_lt d s hs) (open_of_not_mem hs hi)
    (h.dlsn_eq d s hs) (h.end_lt d s hs) (h.no_verdict d s hs) ?_
  intro j hj
  simp only [RouteSlot.answer] at hj
  split_ifs at hj with hacked
  · rcases Finset.mem_insert.mp hj with rfl | hj
    · exact ha hacked
    · exact h.holds_of_acked d s j hs hj
  · exact h.holds_of_acked d s j hs hj

end CraftClient.Router
