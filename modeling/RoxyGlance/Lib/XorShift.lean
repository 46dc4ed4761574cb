import Mathlib.Data.Fintype.EquivFin
import Mathlib.Dynamics.PeriodicPts.Lemmas

/-!
# Xor with a shifted copy

The two stages `x ^ (x << k)` and `x ^ (x >> k)` on words of any width.  Both keep the bits at one
end, from which the others can be recovered one after another, so no information is lost when the
shift is positive.

* `left_injective`, `right_injective`: both stages are injective.
* `exists_period`: an injective step on words is periodic from the start.
-/

namespace XorShift

variable {w : ℕ}

/-- `x ^ (x << k)` -/
def left (k : ℕ) (x : BitVec w) : BitVec w := x ^^^ x <<< k

/-- `x ^ (x >> k)` -/
def right (k : ℕ) (x : BitVec w) : BitVec w := x ^^^ x >>> k

@[simp] theorem left_zero (k : ℕ) : left k (0 : BitVec w) = 0 := by
  simp [left]

@[simp] theorem right_zero (k : ℕ) : right k (0 : BitVec w) = 0 := by
  simp [right]

theorem getLsbD_left (k : ℕ) (x : BitVec w) (i : ℕ) : (left k x).getLsbD i =
    (x.getLsbD i ^^ (decide (i < w) && !decide (i < k) && x.getLsbD (i - k))) := by
  rw [left, BitVec.getLsbD_xor, BitVec.getLsbD_shiftLeft]

theorem getLsbD_right (k : ℕ) (x : BitVec w) (i : ℕ) :
    (right k x).getLsbD i = (x.getLsbD i ^^ x.getLsbD (k + i)) := by
  rw [right, BitVec.getLsbD_xor, BitVec.getLsbD_ushiftRight]

/-- The bits are recovered from the low end upwards. -/
theorem left_injective {k : ℕ} (hk : 0 < k) : Function.Injective (left k : BitVec w → BitVec w) := by
  intro x y h
  apply BitVec.eq_of_getLsbD_eq
  intro i
  induction i using Nat.strong_induction_on with
  | _ i ih =>
    intro hi
    have hbit := congrArg (BitVec.getLsbD · i) h
    simp only [getLsbD_left] at hbit
    by_cases hik : i < k
    · simpa [hik] using hbit
    · rw [ih (i - k) (by omega) (by omega)] at hbit
      exact Bool.xor_left_inj.1 hbit

/-- The bits are recovered from the high end downwards. -/
theorem right_injective {k : ℕ} (hk : 0 < k) :
    Function.Injective (right k : BitVec w → BitVec w) := by
  intro x y h
  apply BitVec.eq_of_getLsbD_eq
  intro i hi
  induction hn : w - i using Nat.strong_induction_on generalizing i with
  | _ n ih =>
    subst hn
    have hbit := congrArg (BitVec.getLsbD · i) h
    simp only [getLsbD_right] at hbit
    by_cases hik : k + i < w
    · rw [ih (w - (k + i)) (by omega) (k + i) hik rfl] at hbit
      exact Bool.xor_left_inj.1 hbit
    · rw [BitVec.getLsbD_of_ge x _ (not_lt.1 hik), BitVec.getLsbD_of_ge y _ (not_lt.1 hik)] at hbit
      simpa using hbit

theorem finite_bitVec : Finite (BitVec w) :=
  Finite.of_injective BitVec.toFin fun _ _ => BitVec.eq_of_toFin_eq

/-- An injective step on words is onto. -/
theorem bijective_of_injective {f : BitVec w → BitVec w} (hf : Function.Injective f) :
    Function.Bijective f :=
  have : Finite (BitVec w) := finite_bitVec
  ⟨hf, Finite.surjective_of_injective hf⟩

/-- **An injective step comes back to where it started.** -/
theorem exists_period {f : BitVec w → BitVec w} (hf : Function.Injective f) (x : BitVec w) :
    ∃ p, 0 < p ∧ f^[p] x = x := by
  have : Finite (BitVec w) := finite_bitVec
  obtain ⟨p, hp, hx⟩ := Function.mem_periodicPts.1 (hf.mem_periodicPts x)
  exact ⟨p, hp, hx⟩

end XorShift
