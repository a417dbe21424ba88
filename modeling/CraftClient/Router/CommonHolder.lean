import CraftClient.Router.MissMaps

namespace CraftClient.Router

open Runs

variable {n : ℕ} {L : ℤ} {r : RouteMap n} {i : Fin n} {d : ℤ} {addr len : UInt64} {Hmax : ℤ}

/-- `upTo i`: the highest slot that member `i` has reported once it was folded. -/
structure Heard (n : ℕ) where
  map : RouteMap n
  upTo : Fin n → ℤ

namespace Heard

def start (n : ℕ) (L : ℤ) : Heard n := ⟨.reset n L, fun _ => L⟩

def Serves (s : Heard n) (i : Fin n) (addr len : UInt64) (Hmax : ℤ) : Prop :=
  (∀ x d t, ivlLo addr ≤ x → x < ivlHi addr len → LastMiss s.map x d t → i ∈ t.holders ∨ d ≤ s.upTo i) ∧
    ∀ d t, s.map.folded < d → d ≤ Hmax → s.map.overlay.data d = some t → t.durable = true →
      overlaps addr len t.addr t.len = true → i ∈ t.holders

end Heard

lemma FoldInv.overlayOk_iff (h : FoldInv L r) : r.overlayOk i addr len Hmax = true ↔
    ∀ d t, r.folded < d → d ≤ Hmax → r.overlay.data d = some t → t.durable = true →
      overlaps addr len t.addr t.len = true → i ∈ t.holders := by
  have hb := h.base_le
  constructor
  · intro hok d t hlt hle ht hdur hov
    have hskip := RouteMap.holdsOrSkips_of_overlayOk hok hlt hle
    have hfind : r.overlay.find d = some t := StreamTracker.find_eq_some.mpr ⟨by omega, ht⟩
    simpa [RouteMap.holdsOrSkips, hfind, hdur, hov] using hskip
  · intro hall
    rw [RouteMap.overlayOk, List.all_eq_true]
    intro k hk
    have hk := List.mem_range.mp hk
    rw [RouteMap.holdsOrSkips, Option.all_eq_true]
    intro t hfind
    have ht := (StreamTracker.find_eq_some.mp hfind).2
    have hmem := hall _ t (by omega) (by omega) ht
    by_cases hdur : t.durable = true
    · by_cases hov : overlaps addr len t.addr t.len = true
      · simp [hmem hdur hov]
      · simp [hov]
    · simp [hdur]

lemma MarkInv.eligible_iff {s : Heard n} (h : MarkInv L s.upTo s.map) (hsync : L ≤ s.map.synced i) :
    s.map.eligible i addr len Hmax = true ↔ s.Serves i addr len Hmax := by
  have hmiss : (s.map.miss i).intersects (ivlLo addr) (ivlHi addr len) = false ↔
      ∀ x d t, ivlLo addr ≤ x → x < ivlHi addr len → LastMiss s.map x d t → i ∈ t.holders ∨ d ≤ s.upTo i := by
    rw [Bool.eq_false_iff, ne_eq, IntervalMap.intersects_iff]
    constructor
    · intro hnone x d t hlo hhi ht
      by_contra hnot
      obtain ⟨hi, hd⟩ := not_or.mp hnot
      refine hnone ⟨x, ⟨hlo, hhi⟩, ?_⟩
      rw [h.get_iff.mpr ⟨t, ht, hi, not_le.mp hd⟩]
      rfl
    · rintro hall ⟨x, ⟨hlo, hhi⟩, hget⟩
      obtain ⟨d, hd⟩ := Option.isSome_iff_exists.mp hget
      obtain ⟨t, ht, hi, hlt⟩ := h.get_iff.mp hd
      exact (hall x d t hlo hhi ht).elim hi hlt.not_ge
  rw [RouteMap.eligible, Bool.and_eq_true, Bool.and_eq_true, decide_eq_true_eq, Bool.not_eq_true', hmiss,
    h.fold.overlayOk_iff, h.fold.login]
  exact ⟨fun he => ⟨he.1.2, he.2⟩, fun he => ⟨⟨hsync, he.1⟩, he.2⟩⟩

variable [NeZero n]

def heardStep (s : Heard n) (a : RouteAct n) : Option (Heard n) :=
  (routeStep s.map a).map fun r => ⟨r, s.map.hear s.upTo a⟩

lemma markInv_of_reach {s : Heard n} (h : Reach heardStep free (.start n L) s) : MarkInv L s.upTo s.map := by
  refine h.invariant (P := fun s => MarkInv L s.upTo s.map) (markInv_reset L) fun s a s' hi _ hs => ?_
  obtain ⟨r, hr, rfl⟩ := Option.map_eq_some_iff.mp hs
  exact hi.step hr

theorem common_holder_serves {s : Heard n} (h : Reach heardStep free (.start n L) s)
    (hsync : ∀ i, L ≤ s.map.synced i) (addr len : UInt64) (Hmax : ℤ) :
    (∃ i, s.map.eligible i addr len Hmax = true) ↔ ∃ i, s.Serves i addr len Hmax :=
  exists_congr fun i => (markInv_of_reach h).eligible_iff (hsync i)

def ackedBut (d : ℤ) (addr : UInt64) (skip : Fin 3) : List (RouteAct 3) :=
  .create d addr 4096 :: (List.finRange 3).map fun i => .recordCompletion d i (i != skip)

def hotBlock : List (RouteAct 3) := List.flatten [ackedBut 0 0 0, ackedBut 1 0 1, ackedBut 2 0 2]

theorem common_holder_serves_hotBlock :
    (∃ s : Heard 3, Reach heardStep free (.start 3 (-1)) s ∧ ¬ ∃ i, s.Serves i 0 4096 2) ∧
      ∃ s : Heard 3, Reach heardStep free (.start 3 (-1)) s ∧ (s.map.miss 2).get 0 = some 2 ∧
        (∃ i, s.Serves i 0 4096 2) ∧
        ∃ s' : Heard 3, heardStep s (.advanceSynced 2 2) = some s' ∧ s'.map.eligible 2 0 4096 2 = true := by
  constructor
  · obtain ⟨s, hs, hp⟩ := Reach.exists_of_exec heardStep free (.start 3 (-1)) hotBlock
      (fun s => decide ((∀ i, -1 ≤ s.map.synced i) ∧ ∀ i, s.map.eligible i 0 4096 2 = false)) (by decide +kernel)
    obtain ⟨hsync, hnone⟩ := of_decide_eq_true hp
    refine ⟨s, hs, fun hserves => ?_⟩
    obtain ⟨i, hi⟩ := (common_holder_serves hs hsync 0 4096 2).mpr hserves
    simp [hnone i] at hi
  · obtain ⟨s, hs, hp⟩ := Reach.exists_of_exec heardStep free (.start 3 (-1)) (hotBlock ++ [.foldTo 2])
      (fun s => decide ((∀ i, -1 ≤ s.map.synced i) ∧ s.map.eligible 0 0 4096 2 = true ∧
        (s.map.miss 2).get 0 = some 2) && (heardStep s (.advanceSynced 2 2)).any fun s' =>
          s'.map.eligible 2 0 4096 2)
      (by decide +kernel)
    obtain ⟨hp, hreport⟩ := Bool.and_eq_true_iff.mp hp
    obtain ⟨hsync, h₀, hget⟩ := of_decide_eq_true hp
    obtain ⟨s', hs', he⟩ := (Option.any_eq_true _ _).mp hreport
    exact ⟨s, hs, hget, (common_holder_serves hs hsync 0 4096 2).mp ⟨0, h₀⟩, s', hs', he⟩

def RouteAct.creates : RouteAct n → Option ℤ
  | .create d _ _ => some d
  | _ => none

lemma data_of_creates {H : ℤ} (h : Reach routeStep (fun _ a => ∀ d ∈ a.creates, d ≤ H) (RouteMap.reset n L) r)
    (hs : (r.overlay.data d).isSome) : d ≤ H := by
  refine h.invariant (P := fun r => ∀ d, (r.overlay.data d).isSome → d ≤ H) nofun ?_ d hs
  intro r a r' hi hok hs e he
  cases a with
  | create d addr len =>
    obtain ⟨-, -, rfl⟩ := routeStep_create hs
    simp only [RouteMap.create, StreamTracker.create_data] at he
    split_ifs at he with hed
    · exact hed ▸ hok d rfl
    · exact hi e he
  | recordCompletion d idx acked =>
    obtain ⟨-, -, -, rfl⟩ := routeStep_recordCompletion hs
    rcases hfind : r.overlay.find d with _ | s
    · rw [RouteMap.recordCompletion, hfind] at he
      exact hi e he
    · rw [RouteMap.recordCompletion_data hfind] at he
      split_ifs at he with hed
      · exact hi e (by simp [hed, (StreamTracker.find_eq_some.mp hfind).2])
      · exact hi e he
  | foldTo F =>
    cases hs
    exact hi e (by rwa [RouteMap.foldTo_data] at he)
  | advanceSynced idx C =>
    cases hs
    exact hi e (by rwa [RouteMap.advanceSynced_overlay] at he)

theorem no_server_for_three_blocks :
    ∃ r : RouteMap 3, Reach routeStep free (RouteMap.reset 3 (-1)) r ∧ (∀ i, -1 ≤ r.synced i) ∧
      (∀ d s, r.overlay.data d = some s → s.Quorate) ∧ (∀ i, r.eligible i 0 12288 2 = false) ∧
      ∀ i, (r.foldTo 2).eligible i 0 12288 2 = false := by
  obtain ⟨r, hr, hp⟩ := Reach.exists_of_exec routeStep (fun _ a => ∀ d ∈ a.creates, d ≤ 2)
    (RouteMap.reset 3 (-1)) (List.flatten [ackedBut 0 0 0, ackedBut 1 4096 1, ackedBut 2 8192 2])
    (fun r => decide (((∀ i, -1 ≤ r.synced i) ∧ (∀ i, r.eligible i 0 12288 2 = false) ∧
      ∀ i, (r.foldTo 2).eligible i 0 12288 2 = false) ∧
      ∀ d : Fin 3, (r.overlay.data d).all fun s => 2 ≤ s.holders.card))
    (by decide +kernel)
  obtain ⟨⟨hsync, hbefore, hafter⟩, hquo⟩ := of_decide_eq_true hp
  have hfree : Reach routeStep free (RouteMap.reset 3 (-1)) r := hr.mono fun _ _ _ => trivial
  refine ⟨r, hfree, hsync, fun d s hs => ?_, hbefore, hafter⟩
  have hinv : FoldInv (-1) r := hfree.invariant (foldInv_reset (-1)) fun _ _ _ hi _ hs => hi.step hs
  have hL := hinv.login_lt d s hs
  have hH := data_of_creates hr (d := d) (by simp [hs])
  obtain ⟨k, rfl⟩ : ∃ k : Fin 3, d = k := ⟨⟨d.toNat, by omega⟩, by simp; omega⟩
  have hcard : 2 ≤ s.holders.card := by simpa [hs] using hquo k
  exact hcard

end CraftClient.Router
