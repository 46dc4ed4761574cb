import Mathlib.Algebra.Order.Ring.Int
import Mathlib.Tactic.Linarith

/-!
# Machine integers

Integer types by their signedness and width.  Values are integers; a sum, a difference or a product
that does not fit wraps around when the type is unsigned, and has no outcome, `none`, when it is
signed.  Operands of a type narrower than `int` are promoted to it first.

* `arith_of_inRange`: nothing happens to what fits;
* `add_of_inRange`, `sub_of_inRange`, `mul_of_inRange`, `shiftLeft_of_inRange`: the same for the
  operations, whatever the type is promoted to.
-/

/-- An integer type. -/
structure IntType where
  signed : Bool
  width : ℕ
  deriving DecidableEq, Repr

namespace IntType

variable (t : IntType)

/-- The bits besides the sign. -/
def digits : ℕ := if t.signed then t.width - 1 else t.width

/-- The largest value. -/
def max : ℤ := 2 ^ t.digits - 1

/-- The smallest value. -/
def min : ℤ := if t.signed then -2 ^ t.digits else 0

/-- The value is one of the type. -/
def InRange (n : ℤ) : Prop := t.min ≤ n ∧ n ≤ t.max

instance (n : ℤ) : Decidable (t.InRange n) := inferInstanceAs (Decidable (_ ∧ _))

/-- The value of the type that is congruent. -/
def wrap (n : ℤ) : ℤ := if t.signed then n.bmod (2 ^ t.width) else n % 2 ^ t.width

/-- The outcome of an operation whose exact result is `n`. -/
def arith (n : ℤ) : Option ℤ :=
  if t.signed then if t.InRange n then some n else none
  else some (t.wrap n)

/-- The type that operands are promoted to. -/
def promoted : IntType := if t.width < 32 then ⟨true, 32⟩ else t

/-- A sum that is stored in the type again. -/
def add (a b : ℤ) : Option ℤ := (t.promoted.arith (a + b)).map t.wrap

/-- A difference that is stored in the type again. -/
def sub (a b : ℤ) : Option ℤ := (t.promoted.arith (a - b)).map t.wrap

/-- A product, as a value of the promoted type. -/
def mul (a b : ℤ) : Option ℤ := t.promoted.arith (a * b)

/-- A shift to the left, as a value of the promoted type; it wraps around in both kinds of types. -/
def shiftLeft (a : ℤ) (k : ℕ) : ℤ := t.promoted.wrap (a * 2 ^ k)

variable {t} {n : ℤ}

theorem inRange_of_nonneg (hn : 0 ≤ n) (hmax : n ≤ t.max) : t.InRange n := by
  refine ⟨?_, hmax⟩
  unfold min
  split_ifs
  · exact (neg_nonpos.2 (by positivity)).trans hn
  · exact hn

theorem lt_two_pow_digits (hmax : n ≤ t.max) : n < 2 ^ t.digits := by
  unfold max at hmax
  omega

/-- A number that is not negative and fits is not changed by wrapping. -/
theorem wrap_of_nonneg (hn : 0 ≤ n) (hmax : n ≤ t.max) : t.wrap n = n := by
  have hlt := lt_two_pow_digits hmax
  unfold wrap
  unfold digits at hlt
  split_ifs at hlt ⊢ with hsigned
  · cases hwidth : t.width with
    | zero =>
      rw [hwidth] at hlt
      have hzero : n = 0 := by
        norm_num at hlt
        omega
      rw [hzero]
      decide
    | succ w =>
      rw [hwidth, Nat.add_sub_cancel] at hlt
      apply Int.bmod_eq_of_le
      · have hpos : (0 : ℤ) ≤ ((2 ^ (w + 1) : ℕ) : ℤ) / 2 := by positivity
        omega
      · have hhalf : (((2 ^ (w + 1) : ℕ) : ℤ) + 1) / 2 = 2 ^ w := by
          push_cast
          rw [pow_succ]
          omega
        rw [hhalf]
        exact hlt
  · exact Int.emod_eq_of_lt hn hlt

/-- **What fits is exact.** -/
theorem arith_of_inRange (hn : 0 ≤ n) (hmax : n ≤ t.max) : t.arith n = some n := by
  unfold arith
  split_ifs with hsigned hrange
  · rfl
  · exact absurd (inRange_of_nonneg hn hmax) hrange
  · rw [wrap_of_nonneg hn hmax]

/-! ### Promotion -/

/-- No value is lost. -/
theorem max_le_promoted (t : IntType) : t.max ≤ t.promoted.max := by
  unfold promoted
  split_ifs with hnarrow
  · have hdigits : t.digits ≤ 31 := by
      unfold digits
      split_ifs <;> omega
    have hpow : (2 : ℤ) ^ t.digits ≤ 2 ^ 31 := pow_le_pow_right₀ (by decide) hdigits
    have hint : max ⟨true, 32⟩ = 2 ^ 31 - 1 := rfl
    rw [hint, max]
    omega
  · exact le_rfl

theorem stored_of_inRange (hn : 0 ≤ n) (hmax : n ≤ t.max) :
    (t.promoted.arith n).map t.wrap = some n := by
  rw [arith_of_inRange hn (hmax.trans t.max_le_promoted), Option.map_some, wrap_of_nonneg hn hmax]

variable {a b : ℤ}

theorem add_of_inRange (hn : 0 ≤ a + b) (hmax : a + b ≤ t.max) : t.add a b = some (a + b) :=
  stored_of_inRange hn hmax

theorem sub_of_inRange (hn : 0 ≤ a - b) (hmax : a - b ≤ t.max) : t.sub a b = some (a - b) :=
  stored_of_inRange hn hmax

theorem mul_of_inRange (hn : 0 ≤ a * b) (hmax : a * b ≤ t.max) : t.mul a b = some (a * b) :=
  arith_of_inRange hn (hmax.trans t.max_le_promoted)

theorem shiftLeft_of_inRange {k : ℕ} (hn : 0 ≤ a * 2 ^ k) (hmax : a * 2 ^ k ≤ t.max) :
    t.shiftLeft a k = a * 2 ^ k :=
  wrap_of_nonneg hn (hmax.trans t.max_le_promoted)

end IntType
