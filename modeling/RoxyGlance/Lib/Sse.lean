import Mathlib.Algebra.BigOperators.Fin
import Mathlib.Tactic.FinCases

/-!
# SSE registers

Registers of 128 bits, by their four lanes of 32 bits, and the instructions on them that programs
use by the names of the intrinsics.  Some instructions look at a register in another way: as two
halves, as words of 16 bits, or as bytes.

* `blendEpi16_eq`: a blend whose mask keeps the words of a lane together picks lanes;
* `movemaskEpi8_cmpeq_iff`, `testzSi128_xor_iff`: two ways to compare registers.
-/

namespace Sse

/-- A lane, as a number in two's complement. -/
abbrev Lane := BitVec 32

/-- `__m128i`, by its `m128i_i32`. -/
abbrev Reg := Fin 4 → Lane

scoped instance neZero_laneCount : NeZero 4 := ⟨by decide⟩

/-! ### Loading and moving -/

/-- `_mm_set_epi32` -/
def setEpi32 (w z y x : Lane) : Reg := ![x, y, z, w]

/-- `_mm_set1_epi32` -/
def set1Epi32 (x : Lane) : Reg := fun _ => x

/-- `_mm_setzero_si128` -/
def setzeroSi128 : Reg := fun _ => 0

/-- `_mm_cvtsi32_si128` -/
def cvtsi32Si128 (x : Lane) : Reg := ![x, 0, 0, 0]

/-- `_mm_unpacklo_epi64` -/
def unpackloEpi64 (a b : Reg) : Reg := ![a 0, a 1, b 0, b 1]

/-- `_mm_unpackhi_epi64` -/
def unpackhiEpi64 (a b : Reg) : Reg := ![a 2, a 3, b 2, b 3]

/-- `_mm_unpacklo_epi32` -/
def unpackloEpi32 (a b : Reg) : Reg := ![a 0, b 0, a 1, b 1]

/-- `_MM_SHUFFLE` -/
def mmShuffle (fp3 fp2 fp1 fp0 : Fin 4) : ℕ :=
  64 * fp3 + 16 * fp2 + 4 * fp1 + fp0

/-- `_mm_shuffle_epi32`: two bits of the mask for each lane. -/
def shuffleEpi32 (a : Reg) (mask : ℕ) : Reg := fun i => a (Fin.ofNat 4 (mask / 4 ^ (i : ℕ)))

/-- `_mm_blend_epi16`: one bit of the mask for each word, two words in a lane. -/
def blendEpi16 (a b : Reg) (mask : ℕ) : Reg := fun i =>
  let word := fun k => if mask.testBit (2 * i + k) then b i else a i
  (word 1).extractLsb' 16 16 ++ (word 0).extractLsb' 0 16

theorem append_words (x : Lane) : x.extractLsb' 16 16 ++ x.extractLsb' 0 16 = x := by
  apply BitVec.eq_of_getLsbD_eq
  intro k hk
  rw [BitVec.getLsbD_append]
  by_cases hlow : k < 16
  · simp [hlow]
  · simp [hlow, show k - 16 < 16 by omega, show 16 + (k - 16) = k by omega]

/-- Lanes are taken from one side or the other when their two words are. -/
theorem blendEpi16_eq (a b : Reg) {mask : ℕ}
    (h : ∀ i : Fin 4, mask.testBit (2 * i + 1) = mask.testBit (2 * i)) :
    blendEpi16 a b mask = fun i : Fin 4 => if mask.testBit (2 * i) then b i else a i := by
  funext i
  simp only [blendEpi16, h i, add_zero, append_words]

/-! The same for `__m128`, whose lanes are the bits of single precision numbers. -/

/-- `_mm_set_ps` -/
def setPs (w z y x : Lane) : Reg := ![x, y, z, w]

/-- `_mm_set_ps1` -/
def setPs1 (x : Lane) : Reg := fun _ => x

/-- `_mm_setzero_ps` -/
def setzeroPs : Reg := fun _ => 0

/-- `_mm_set_ss` -/
def setSs (x : Lane) : Reg := ![x, 0, 0, 0]

/-- `_mm_shuffle_ps`: two lanes of each operand, with two bits of the mask for each of them. -/
def shufflePs (a b : Reg) (mask : ℕ) : Reg := fun i =>
  (if (i : ℕ) < 2 then a else b) (Fin.ofNat 4 (mask / 4 ^ (i : ℕ)))

/-- `_mm_blend_ps`: one bit of the mask for each lane. -/
def blendPs (a b : Reg) (mask : ℕ) : Reg := fun i => if mask.testBit i then b i else a i

/-! ### Computing -/

/-- `_mm_add_epi32` -/
def addEpi32 (a b : Reg) : Reg := fun i => a i + b i

/-- `_mm_sub_epi32` -/
def subEpi32 (a b : Reg) : Reg := fun i => a i - b i

/-- `_mm_mullo_epi32` -/
def mulloEpi32 (a b : Reg) : Reg := fun i => a i * b i

/-- `_mm_and_si128` -/
def andSi128 (a b : Reg) : Reg := fun i => a i &&& b i

/-- `_mm_or_si128` -/
def orSi128 (a b : Reg) : Reg := fun i => a i ||| b i

/-- `_mm_xor_si128` -/
def xorSi128 (a b : Reg) : Reg := fun i => a i ^^^ b i

/-- `_mm_sign_epi32` -/
def signEpi32 (a b : Reg) : Reg := fun i =>
  if (b i).slt 0 then -(a i) else if b i = 0 then 0 else a i

/-- `_mm_sllv_epi32` -/
def sllvEpi32 (a count : Reg) : Reg := fun i => a i <<< (count i).toNat

/-- `_mm_srav_epi32` -/
def sravEpi32 (a count : Reg) : Reg := fun i => (a i).sshiftRight (count i).toNat

/-- The sign of minus one changes the sign. -/
theorem signEpi32_neg_one (a : Reg) : signEpi32 a (set1Epi32 (-1)) = fun i => -(a i) := by
  funext i
  have hneg : (-1 : Lane).slt 0 = true := by decide
  exact if_pos hneg

theorem subEpi32_setzero (a : Reg) : subEpi32 setzeroSi128 a = fun i => -(a i) := by
  funext i
  exact BitVec.zero_sub (a i)

/-! ### Comparing -/

/-- `_mm_cmpeq_epi32`: all ones where the lanes are equal. -/
def cmpeqEpi32 (a b : Reg) : Reg := fun i => if a i = b i then BitVec.allOnes 32 else 0

/-- `_mm_movemask_epi8`: the top bits of the sixteen bytes. -/
def movemaskEpi8 (a : Reg) : ℕ :=
  ∑ k : Fin 16, ((a (Fin.ofNat 4 (k / 4))).getLsbD (8 * (k % 4) + 7)).toNat * 2 ^ (k : ℕ)

/-- `_mm_testz_si128`: no bit is set in both. -/
def testzSi128 (a b : Reg) : ℕ := if ∀ i, a i &&& b i = 0 then 1 else 0

theorem cmpeqEpi32_self (a : Reg) : cmpeqEpi32 a a = fun _ => BitVec.allOnes 32 := by
  funext i
  exact if_pos rfl

/-- All four bytes of a lane tell whether it is equal. -/
theorem movemaskEpi8_cmpeq (a b : Reg) : movemaskEpi8 (cmpeqEpi32 a b) =
    ∑ k : Fin 16, (decide (a (Fin.ofNat 4 (k / 4)) = b (Fin.ofNat 4 (k / 4)))).toNat
      * 2 ^ (k : ℕ) := by
  apply Finset.sum_congr rfl
  intro k _
  congr 2
  have hbit : 8 * ((k : ℕ) % 4) + 7 < 32 := by omega
  unfold cmpeqEpi32
  split_ifs with h
  · rw [decide_eq_true h, BitVec.getLsbD_allOnes, decide_eq_true hbit]
  · rw [decide_eq_false h]
    exact BitVec.getLsbD_zero

/-- All bits are set when all lanes are equal. -/
theorem movemaskEpi8_cmpeq_iff {a b : Reg} : movemaskEpi8 (cmpeqEpi32 a b) = 0xFFFF ↔ a = b := by
  have hbits : ∀ equal : Fin 4 → Bool,
      (∑ k : Fin 16, (equal (Fin.ofNat 4 (k / 4))).toNat * 2 ^ (k : ℕ)) = 0xFFFF ↔
        ∀ i, equal i = true := by decide +kernel
  rw [movemaskEpi8_cmpeq, hbits fun i => decide (a i = b i), funext_iff]
  exact forall_congr' fun i => decide_eq_true_iff

theorem testzSi128_xor_iff {a b : Reg} :
    testzSi128 (xorSi128 a b) (xorSi128 a b) ≠ 0 ↔ a = b := by
  unfold testzSi128
  split_ifs with h
  · refine iff_of_true one_ne_zero ?_
    funext i
    have hi := h i
    rw [BitVec.and_self] at hi
    exact BitVec.xor_eq_zero_iff.1 hi
  · refine iff_of_false (fun h => h rfl) fun heq => h fun i => ?_
    rw [heq, xorSi128, BitVec.xor_self, BitVec.and_self]
    rfl

end Sse
