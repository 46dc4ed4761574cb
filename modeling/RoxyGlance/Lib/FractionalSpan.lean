import Mathlib.Algebra.Order.Floor.Ring
import Mathlib.Tactic.Linarith

/-!
# Spans that are placed by fractions

A span of whole units inside a range of `length` units: its size is a fraction of the length, rounded
up, and it starts at a fraction of what the size leaves over, rounded down.
-/

namespace FractionalSpan

variable {K : Type} [Field K] [LinearOrder K] [IsStrictOrderedRing K] [FloorRing K]

/-- The size of the span. -/
def size (w : K) (length : ℤ) : ℤ := ⌈w * length⌉

/-- Where it starts. -/
def offset (x w : K) (length : ℤ) : ℤ := ⌊x * ((length - size w length : ℤ) : K)⌋

variable {x x' w : K} {length : ℤ}

theorem size_nonneg (hw : 0 ≤ w) (hlength : 0 ≤ length) : 0 ≤ size w length :=
  Int.ceil_nonneg (mul_nonneg hw (Int.cast_nonneg hlength))

/-- Rounding up does not leave the range, because the length is whole. -/
theorem size_le (hw : w ≤ 1) (hlength : 0 ≤ length) : size w length ≤ length := by
  refine Int.ceil_le.2 ?_
  exact mul_le_of_le_one_left (Int.cast_nonneg hlength) hw

/-- Something is left over, or nothing. -/
theorem rest_nonneg (hw : w ≤ 1) (hlength : 0 ≤ length) :
    (0 : K) ≤ ((length - size w length : ℤ) : K) := by
  have hsize := size_le hw hlength
  exact Int.cast_nonneg (by omega)

theorem offset_nonneg (hx : 0 ≤ x) (hw : w ≤ 1) (hlength : 0 ≤ length) : 0 ≤ offset x w length :=
  Int.floor_nonneg.2 (mul_nonneg hx (rest_nonneg hw hlength))

theorem offset_zero : offset 0 w length = 0 := by
  rw [offset, zero_mul, Int.floor_zero]

theorem offset_one : offset 1 w length = length - size w length := by
  rw [offset, one_mul, Int.floor_intCast]

theorem offset_mono (hx : x ≤ x') (hw : w ≤ 1) (hlength : 0 ≤ length) :
    offset x w length ≤ offset x' w length :=
  Int.floor_le_floor (mul_le_mul_of_nonneg_right hx (rest_nonneg hw hlength))

/-- **The span ends within the range.** -/
theorem offset_add_size_le (hx : x ≤ 1) (hw : w ≤ 1) (hlength : 0 ≤ length) :
    offset x w length + size w length ≤ length := by
  have hmono := offset_mono hx hw hlength
  rw [offset_one] at hmono
  omega

end FractionalSpan
