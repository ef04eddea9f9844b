import Mathlib.Tactic

/-!
# The nearest point of a set

In an ordered ring, with the smaller point taken on a tie.

* `IsNearest S x r`: `r` is the point of `S` nearest to `x`;
* `IsNearest.mono`: it grows with `x`;
* `IsNearest.eq_of_mem`: a point of `S` is the nearest to itself.
-/

variable {α : Type} [CommRing α] [LinearOrder α] [IsStrictOrderedRing α]

/-- `r` is the point of `S` nearest to `x`, the smaller one on a tie. -/
structure IsNearest (S : Set α) (x r : α) : Prop where
  mem : r ∈ S
  le : ∀ c ∈ S, |x - r| ≤ |x - c|
  first : ∀ c ∈ S, |x - r| = |x - c| → r ≤ c

namespace IsNearest

variable {S : Set α} {x y r r' : α}

/-- **The nearest point grows.** -/
theorem mono (h : IsNearest S x r) (h' : IsNearest S y r') (hxy : x ≤ y) : r ≤ r' := by
  by_contra hlt
  rw [not_le] at hlt
  -- `x` is past the middle of the two points, and `y` is not
  have hx : |x - r| < |x - r'| := by
    refine lt_of_le_of_ne (h.le r' h'.mem) fun heq => ?_
    exact absurd (h.first r' h'.mem heq) (not_le.2 hlt)
  have hy : |y - r'| ≤ |y - r| := h'.le r h.mem
  rw [← sq_lt_sq] at hx
  rw [← sq_le_sq] at hy
  have hpast : 0 < (r - r') * (2 * x - (r + r')) := by linarith
  have hbefore : (r - r') * (2 * y - (r + r')) ≤ 0 := by linarith
  have hpos : 0 < r - r' := sub_pos.2 hlt
  have hx2 : 0 < 2 * x - (r + r') := (pos_iff_pos_of_mul_pos hpast).1 hpos
  have hy2 : 2 * y - (r + r') ≤ 0 := nonpos_of_mul_nonpos_right hbefore hpos
  linarith

theorem unique (h : IsNearest S x r) (h' : IsNearest S x r') : r = r' :=
  le_antisymm (h.mono h' le_rfl) (h'.mono h le_rfl)

theorem refl_of_mem (hx : x ∈ S) : IsNearest S x x where
  mem := hx
  le c _ := by
    rw [sub_self, abs_zero]
    exact abs_nonneg _
  first c _ heq := by
    rw [sub_self, abs_zero, eq_comm, abs_eq_zero, sub_eq_zero] at heq
    exact heq.le

/-- **A point of the set is the nearest to itself.** -/
theorem eq_of_mem (h : IsNearest S x r) (hx : x ∈ S) : r = x := h.unique (refl_of_mem hx)

end IsNearest
