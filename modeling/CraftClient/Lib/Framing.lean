import Mathlib.Data.List.Basic
import Mathlib.Tactic

/-! A parser that looks at the front of a growing buffer, and the frames it cuts off. -/

namespace CraftClient.Framing

/-- A parser of the message at the front of a buffer. Until all of the message is there its verdict is
`incomplete`, and any other verdict is final. -/
structure Parser (β μ ε : Type*) where
  parse : List β → Except ε μ
  incomplete : ε
  size : μ → ℕ
  nil : parse [] = .error incomplete
  size_pos : ∀ {buf m}, parse buf = .ok m → 0 < size m
  size_le : ∀ {buf m}, parse buf = .ok m → size m ≤ buf.length
  stable : ∀ {buf} (more : List β), parse buf ≠ .error incomplete → parse (buf ++ more) = parse buf

namespace Parser

variable {β μ ε : Type*} {p : Parser β μ ε} {f rx more : List β} {m : μ}

def Frame (p : Parser β μ ε) (f : List β) (m : μ) : Prop := p.parse f = .ok m ∧ p.size m = f.length

lemma parse_ok_append (more : List β) (h : p.parse rx = .ok m) : p.parse (rx ++ more) = .ok m := by
  rw [p.stable more, h]
  rw [h]
  nofun

lemma Frame.ne_nil (h : p.Frame f m) : f ≠ [] := by
  rintro rfl
  have hpos := p.size_pos h.1
  rw [h.2] at hpos
  exact hpos.false

lemma Frame.parse_take (h : p.Frame f m) {k : ℕ} (hk : k < f.length) :
    p.parse (f.take k) = .error p.incomplete := by
  by_contra hne
  have hst := p.stable (f.drop k) hne
  rw [List.take_append_drop, h.1] at hst
  have hle := p.size_le hst.symm
  rw [h.2, List.length_take] at hle
  omega

lemma Frame.parse_front (h : p.Frame f m) {rest : List β} (hs : rx ++ more = f ++ rest) :
    (∃ rx', rx = f ++ rx' ∧ rx' ++ more = rest ∧ p.parse rx = .ok m) ∨
      rx.length < f.length ∧ p.parse rx = .error p.incomplete := by
  rcases le_or_gt f.length rx.length with hle | hlt
  · left
    obtain ⟨rx', rfl⟩ : f <+: rx := List.prefix_of_prefix_length_le ⟨rest, hs.symm⟩ (List.prefix_append _ _) hle
    rw [List.append_assoc] at hs
    exact ⟨rx', rfl, List.append_cancel_left hs, parse_ok_append rx' h.1⟩
  · right
    have htake : rx = f.take rx.length := by
      have hh := congrArg (List.take rx.length) hs
      rwa [List.take_left, List.take_append_of_le_length hlt.le] at hh
    refine ⟨hlt, ?_⟩
    rw [htake]
    exact h.parse_take hlt

end Parser

end CraftClient.Framing
