import Mathlib.Algebra.Order.Ring.Defs
import Mathlib.Order.WithBot

/-!
# Numbers with infinities and a NaN

The values of a floating point type, up to rounding: exact numbers, two infinities, and a NaN, which
is neither less than, nor equal to, nor greater than anything.  A range can be tested in two ways,
by what holds inside it or by what holds outside.

* `mem_iff_not_outside`: the two agree on all values but NaN;
* `exists_finite_of_mem`: a value between two finite ones is finite;
* `add`, `mul`: the special cases of the operations, with exact results for finite operands.
-/

/-- A NaN, an infinity, or an exact number. -/
inductive Ieee (α : Type*)
  | nan
  | negInf
  | posInf
  | finite (a : α)
  deriving DecidableEq

namespace Ieee

variable {α : Type*}

/-- The place among the numbers and the infinities; a NaN has none. -/
def place : Ieee α → Option (WithBot (WithTop α))
  | nan => none
  | negInf => some ⊥
  | posInf => some ((⊤ : WithTop α) : WithBot (WithTop α))
  | finite a => some ((a : WithTop α) : WithBot (WithTop α))

theorem place_isSome {a : Ieee α} (h : a ≠ nan) : ∃ x, a.place = some x := by
  cases a with
  | nan => exact absurd rfl h
  | negInf | posInf | finite a => exact ⟨_, rfl⟩

/-! ### Comparisons -/

section Order

variable [LinearOrder α]

/-- The comparison `a < b`. -/
def lt (a b : Ieee α) : Bool := (Option.map₂ (fun x y => decide (x < y)) a.place b.place).getD false

/-- The comparison `a <= b`. -/
def le (a b : Ieee α) : Bool := (Option.map₂ (fun x y => decide (x ≤ y)) a.place b.place).getD false

/-- The comparison `a != b`. -/
def ne (a b : Ieee α) : Bool := (Option.map₂ (fun x y => decide (x ≠ y)) a.place b.place).getD true

@[simp] theorem lt_nan (a : Ieee α) : lt a nan = false := by cases a <;> rfl

@[simp] theorem nan_lt (a : Ieee α) : lt nan a = false := rfl

@[simp] theorem le_nan (a : Ieee α) : le a nan = false := by cases a <;> rfl

theorem not_lt_of_le {a b : Ieee α} (h : le a b = true) : lt b a = false := by
  unfold le at h
  unfold lt
  cases ha : a.place with
  | none => simp [ha] at h
  | some x =>
    cases hb : b.place with
    | none => simp [hb] at h
    | some y =>
      have hxy : x ≤ y := by simpa [ha, hb] using h
      exact decide_eq_false (not_lt.2 hxy)

theorem le_of_not_lt {a b : Ieee α} (ha : a ≠ nan) (hb : b ≠ nan) (h : lt b a = false) :
    le a b = true := by
  obtain ⟨x, hx⟩ := place_isSome ha
  obtain ⟨y, hy⟩ := place_isSome hb
  unfold lt at h
  unfold le
  have hxy : ¬ y < x := by simpa [hx, hy] using h
  rw [hx, hy]
  exact decide_eq_true (not_lt.1 hxy)

/-- **The two tests of a range**: being inside is not being outside, except for a NaN. -/
theorem mem_iff_not_outside {lo hi x : Ieee α} (hlo : lo ≠ nan) (hhi : hi ≠ nan) :
    (le lo x = true ∧ le x hi = true) ↔ x ≠ nan ∧ lt x lo = false ∧ lt hi x = false := by
  constructor
  · rintro ⟨hlower, hupper⟩
    refine ⟨?_, not_lt_of_le hlower, not_lt_of_le hupper⟩
    rintro rfl
    rw [le_nan] at hlower
    cases hlower
  · rintro ⟨hx, hlower, hupper⟩
    exact ⟨le_of_not_lt hlo hx hlower, le_of_not_lt hx hhi hupper⟩

@[simp] theorem finite_le_finite {a b : α} : le (finite a) (finite b) = true ↔ a ≤ b := by
  simp [le, place]

/-- A value between two finite ones is finite, and between them. -/
theorem exists_finite_of_mem {lo hi : α} {x : Ieee α} (hlo : le (finite lo) x = true)
    (hhi : le x (finite hi) = true) : ∃ a, x = finite a ∧ lo ≤ a ∧ a ≤ hi := by
  cases x with
  | nan => cases hhi
  | negInf => simp [le, place] at hlo
  | posInf => simp [le, place] at hhi
  | finite a => exact ⟨a, rfl, finite_le_finite.1 hlo, finite_le_finite.1 hhi⟩

end Order

/-! ### Operations -/

/-- The function of the finite numbers; the infinities and the NaN stay what they are. -/
def map {β : Type*} (f : α → β) : Ieee α → Ieee β
  | nan => nan
  | negInf => negInf
  | posInf => posInf
  | finite a => finite (f a)

section Ring

variable [CommRing α] [LinearOrder α]

/-- The value with the other sign. -/
def neg : Ieee α → Ieee α
  | nan => nan
  | negInf => posInf
  | posInf => negInf
  | finite a => finite (-a)

/-- The sum; infinities of different sign have none. -/
def add : Ieee α → Ieee α → Ieee α
  | finite a, finite b => finite (a + b)
  | nan, _ | _, nan | posInf, negInf | negInf, posInf => nan
  | posInf, _ | _, posInf => posInf
  | negInf, _ | _, negInf => negInf

/-- The sign of a number; a NaN has none. -/
def sign : Ieee α → ℤ
  | nan => 0
  | negInf => -1
  | posInf => 1
  | finite a => if a < 0 then -1 else if a = 0 then 0 else 1

/-- The product; that of an infinity goes by the signs, and there is none with zero. -/
def mul (a b : Ieee α) : Ieee α :=
  match a, b with
  | finite a, finite b => finite (a * b)
  | a, b =>
    if a.sign * b.sign = 0 then nan else if a.sign * b.sign < 0 then negInf else posInf

end Ring

end Ieee
