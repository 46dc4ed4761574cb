import Mathlib.Data.Rat.Floor
import Mathlib.Tactic.NormNum
import RoxyGlance.Lib.IntType

/-!
# Jitter

`jitter_generator` replaces a delay by a random one that is not longer.  It splits the delay into a
base that is kept and a rest of which a random part is kept.

* `Ratio.random_eq`: for the four ratios that are computed with shifts the two parts add up to the
  delay, whatever is lost when one of them is rounded.
-/

namespace RoxyGlance.Utility

/-- What `std::uniform_int_distribution(0, smax)` takes from the generator. -/
structure Draw where
  value : ℤ → ℤ
  mem : ∀ smax, 0 ≤ smax → 0 ≤ value smax ∧ value smax ≤ smax

/-- The `Ratio` of a `jitter_generator`, where it is computed with shifts. -/
inductive Ratio
  /-- 0.25 -/
  | quarter
  /-- 0.5 -/
  | half
  /-- 0.75 -/
  | threeQuarters
  /-- 1 -/
  | full
  deriving DecidableEq, Repr

namespace Ratio

/-- The ratio as a number. -/
def value : Ratio → ℚ
  | quarter => 0.25
  | half => 0.5
  | threeQuarters => 0.75
  | full => 1

variable (ratio : Ratio) (t : IntType)

/-- The first part of `random`: `base` and `smax`. -/
def split (max : ℤ) : Option (ℤ × ℤ) :=
  match ratio with
  | quarter => do
    let smax := max / 2 ^ 2
    let base ← t.sub max smax
    some (base, smax)
  | half => do
    let smax := max / 2 ^ 1
    let base ← t.sub max smax
    some (base, smax)
  | threeQuarters => do
    let base := max / 2 ^ 2
    let smax ← t.sub max base
    some (base, smax)
  | full => some (0, max)

/-- `jitter_generator::random` -/
def random (max : ℤ) (draw : Draw) : Option ℤ := do
  let (base, smax) ← ratio.split t max
  t.add base (draw.value smax)

/-- How much of a delay `c` may be lost: the ratio of it, rounded down, but for three quarters what a
quarter, rounded down, leaves over. -/
def smax (c : ℤ) : ℤ :=
  match ratio with
  | threeQuarters => c - ⌊(c : ℚ) / 4⌋
  | _ => ⌊ratio.value * c⌋

theorem floor_div (c : ℤ) (n : ℕ) : ⌊(c : ℚ) / n⌋ = c / n := Rat.floor_intCast_div_natCast c n

theorem smax_quarter (c : ℤ) : quarter.smax c = c / 4 := by
  have hvalue : quarter.value * (c : ℚ) = c / (4 : ℕ) := by
    rw [value, div_eq_inv_mul]
    norm_num
  rw [smax, hvalue, floor_div]
  · rfl
  · exact fun h => by cases h

theorem smax_half (c : ℤ) : half.smax c = c / 2 := by
  have hvalue : half.value * (c : ℚ) = c / (2 : ℕ) := by
    rw [value, div_eq_inv_mul]
    norm_num
  rw [smax, hvalue, floor_div]
  · rfl
  · exact fun h => by cases h

theorem smax_threeQuarters (c : ℤ) : threeQuarters.smax c = c - c / 4 := by
  have hfloor := floor_div c 4
  push_cast at hfloor
  rw [smax, hfloor]

theorem smax_full (c : ℤ) : full.smax c = c := by
  simp [smax, value]

/-- What may be lost is a part of the delay. -/
theorem smax_mem {c : ℤ} (hc : 0 ≤ c) : 0 ≤ ratio.smax c ∧ ratio.smax c ≤ c := by
  cases ratio with
  | quarter => rw [smax_quarter]; omega
  | half => rw [smax_half]; omega
  | threeQuarters => rw [smax_threeQuarters]; omega
  | full => rw [smax_full]; omega

variable {t}

/-- **The two parts add up to the delay**, and no difference is out of range. -/
theorem split_eq {c : ℤ} (hc : 0 ≤ c) (hmax : c ≤ t.max) :
    ratio.split t c = some (c - ratio.smax c, ratio.smax c) := by
  cases ratio with
  | quarter =>
    rw [smax_quarter, split, IntType.sub_of_inRange (by omega) (by omega)]
    rfl
  | half =>
    rw [smax_half, split, IntType.sub_of_inRange (by omega) (by omega)]
    rfl
  | threeQuarters =>
    rw [smax_threeQuarters, split, IntType.sub_of_inRange (by omega) (by omega), sub_sub_cancel]
    rfl
  | full =>
    rw [smax_full, split, sub_self]

/-- **A random delay** is the base and the part that was drawn; their sum is in range. -/
theorem random_eq {c : ℤ} (hc : 0 ≤ c) (hmax : c ≤ t.max) (draw : Draw) :
    ratio.random t c draw = some (c - ratio.smax c + draw.value (ratio.smax c)) := by
  obtain ⟨hnonneg, hle⟩ := ratio.smax_mem hc
  obtain ⟨hdraw, hdrawLe⟩ := draw.mem _ hnonneg
  rw [random, split_eq ratio hc hmax]
  exact IntType.add_of_inRange (by omega) (by omega)

end Ratio

end RoxyGlance.Utility
