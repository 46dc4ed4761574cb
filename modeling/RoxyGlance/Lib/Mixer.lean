import Mathlib.Data.Nat.ModEq
import RoxyGlance.Lib.XorShift

/-!
# Mixers

A mixer passes a word of any width through stages: xors with a shifted copy and multiplications by
constants.  A stage is lossless when it shifts by at least one bit or multiplies by an odd constant,
and a mixer of such stages is a bijection.

* `mul_injective`: an odd multiplier is invertible modulo a power of two;
* `mix_injective`: so lossless stages lose nothing together;
* `combine_left_injective`, `combine_right_injective`: neither does mixing two words, one of which is
  first spread by an odd multiplier.
-/

namespace Mixer

variable {w : ℕ}

/-- A stage of a mixer. -/
inductive Stage (w : ℕ)
  | xorShiftLeft (k : ℕ)
  | xorShiftRight (k : ℕ)
  | mul (c : BitVec w)

namespace Stage

/-- What a stage makes of a word. -/
def apply : Stage w → BitVec w → BitVec w
  | xorShiftLeft k, x => XorShift.left k x
  | xorShiftRight k, x => XorShift.right k x
  | mul c, x => x * c

/-- The stage can be undone. -/
def Lossless : Stage w → Prop
  | xorShiftLeft k => 0 < k
  | xorShiftRight k => 0 < k
  | mul c => c.toNat % 2 = 1

instance : DecidablePred (Lossless : Stage w → Prop)
  | xorShiftLeft k => inferInstanceAs (Decidable (0 < k))
  | xorShiftRight k => inferInstanceAs (Decidable (0 < k))
  | mul c => inferInstanceAs (Decidable (c.toNat % 2 = 1))

end Stage

/-- **An odd multiplier loses nothing**: it is coprime to the modulus. -/
theorem mul_injective {c : BitVec w} (hc : c.toNat % 2 = 1) :
    Function.Injective fun x : BitVec w => x * c := by
  intro x y h
  have hcoprime : Nat.Coprime (2 ^ w) c.toNat :=
    Nat.Coprime.pow_left w (Nat.coprime_two_left.2 (Nat.odd_iff.2 hc))
  have hmod : x.toNat * c.toNat ≡ y.toNat * c.toNat [MOD 2 ^ w] := by
    have htoNat := congrArg BitVec.toNat h
    rwa [BitVec.toNat_mul, BitVec.toNat_mul] at htoNat
  have hcancelled := Nat.ModEq.cancel_right_of_coprime hcoprime hmod
  exact BitVec.eq_of_toNat_eq (hcancelled.eq_of_lt_of_lt x.isLt y.isLt)

theorem Stage.apply_injective {stage : Stage w} (h : stage.Lossless) :
    Function.Injective stage.apply := by
  cases stage with
  | xorShiftLeft k => exact XorShift.left_injective h
  | xorShiftRight k => exact XorShift.right_injective h
  | mul c => exact mul_injective h

@[simp] theorem Stage.apply_zero (stage : Stage w) : stage.apply 0 = 0 := by
  cases stage with
  | xorShiftLeft k => exact XorShift.left_zero k
  | xorShiftRight k => exact XorShift.right_zero k
  | mul c => exact BitVec.zero_mul

/-- The stages one after the other. -/
def mix (stages : List (Stage w)) (x : BitVec w) : BitVec w :=
  stages.foldl (fun x stage => stage.apply x) x

@[simp] theorem mix_zero (stages : List (Stage w)) : mix stages 0 = 0 := by
  induction stages with
  | nil => rfl
  | cons stage stages ih =>
    rw [mix, List.foldl_cons, Stage.apply_zero]
    exact ih

/-- **Lossless stages lose nothing together.** -/
theorem mix_injective {stages : List (Stage w)} (h : ∀ stage ∈ stages, stage.Lossless) :
    Function.Injective (mix stages) := by
  induction stages with
  | nil => exact Function.injective_id
  | cons stage stages ih =>
    have hrest := ih fun stage' hmem => h stage' (List.mem_cons_of_mem _ hmem)
    exact hrest.comp (Stage.apply_injective (h stage List.mem_cons_self))

/-! ### Two words -/

/-- Two words mixed into one; the second is spread first. -/
def combine (multiplier : BitVec w) (stages : List (Stage w)) (x y : BitVec w) : BitVec w :=
  mix stages (x ^^^ y * multiplier)

variable {multiplier : BitVec w} {stages : List (Stage w)}

/-- Nothing of the first word is lost. -/
theorem combine_left_injective (h : ∀ stage ∈ stages, stage.Lossless) (y : BitVec w) :
    Function.Injective fun x => combine multiplier stages x y := by
  intro x x' heq
  exact (BitVec.xor_left_inj _).1 (mix_injective h heq)

/-- Nor of the second. -/
theorem combine_right_injective (h : ∀ stage ∈ stages, stage.Lossless)
    (hmultiplier : multiplier.toNat % 2 = 1) (x : BitVec w) :
    Function.Injective (combine multiplier stages x) := by
  intro y y' heq
  exact mul_injective hmultiplier ((BitVec.xor_right_inj _).1 (mix_injective h heq))

end Mixer
