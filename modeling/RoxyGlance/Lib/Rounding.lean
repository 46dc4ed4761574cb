import Mathlib.Data.Nat.Size
import Mathlib.Tactic.Ring
import Mathlib.Tactic.Linarith

/-!
# Rounding whole numbers to a number of bits

Whole numbers as a binary floating point format holds them: rounded to `p` significant bits, to the
nearest, and to the even one of two that are equally near.  There is no largest exponent.

* `round_eq_self`: numbers of at most `p` bits are exact;
* `le_round`: what is lost is less than one part in `2 ^ p`;
* `round_lt_pow_iff`: which numbers stay below a power of two.
-/

namespace Rounding

/-! ### Multiples of a unit -/

/-- The multiple of `u` that is nearest to `n`; of two, the even one. -/
def toMultiple (u n : ℕ) : ℕ :=
  let q := n / u
  let r := n % u
  (if 2 * r < u then q else if 2 * r = u then q + q % 2 else q + 1) * u

@[simp] theorem toMultiple_one (n : ℕ) : toMultiple 1 n = n := by
  simp [toMultiple, Nat.mod_one]

/-- At most half a unit is lost. -/
theorem le_toMultiple {u : ℕ} (hu : 0 < u) (n : ℕ) : 2 * n ≤ 2 * toMultiple u n + u := by
  have hdiv := Nat.div_add_mod' n u
  have hmod := Nat.mod_lt n hu
  unfold toMultiple
  simp only
  split_ifs with hlow htie
  · omega
  · rw [Nat.add_mul]
    omega
  · rw [Nat.add_mul, one_mul]
    omega

/-- Which numbers stay below an even multiple: the one in the middle of the last unit does not. -/
theorem toMultiple_lt_iff {u m : ℕ} (hu : 0 < u) (hm : m % 2 = 0) {n : ℕ} (hn : n < m * u) :
    toMultiple u n < m * u ↔ 2 * n + u < 2 * (m * u) := by
  have hdiv := Nat.div_add_mod' n u
  have hmod := Nat.mod_lt n hu
  have hq : n / u < m := (Nat.div_lt_iff_lt_mul hu).2 hn
  obtain ⟨d, hd⟩ := Nat.exists_eq_add_of_lt hq
  unfold toMultiple
  simp only
  rw [Nat.mul_lt_mul_right hu]
  rcases Nat.eq_zero_or_pos d with rfl | hpos
  · -- the last unit
    have hmu : m * u = n / u * u + u := by rw [hd]; ring
    split_ifs with hlow htie <;> omega
  · have hmu : m * u = n / u * u + u + d * u := by rw [hd]; ring
    have hdu : u ≤ d * u := Nat.le_mul_of_pos_left u hpos
    refine iff_of_true ?_ (by omega)
    have heven := Nat.mod_lt (n / u) two_pos
    split_ifs with hlow htie <;> omega

theorem toMultiple_mul {u : ℕ} (hu : 0 < u) (k : ℕ) : toMultiple u (k * u) = k * u := by
  unfold toMultiple
  simp only [Nat.mul_div_cancel _ hu, Nat.mul_mod_left, mul_zero, hu, if_true]

/-- A power of two is a multiple of every smaller one. -/
theorem toMultiple_two_pow {k e : ℕ} (h : k ≤ e) : toMultiple (2 ^ k) (2 ^ e) = 2 ^ e := by
  rw [← pow_sub_mul_pow 2 h]
  exact toMultiple_mul (Nat.two_pow_pos k) _

theorem toMultiple_mono {u : ℕ} (hu : 0 < u) {a b : ℕ} (h : a ≤ b) :
    toMultiple u a ≤ toMultiple u b := by
  have ha := Nat.div_add_mod' a u
  have hb := Nat.div_add_mod' b u
  have hmod := Nat.mod_lt b hu
  have hq : a / u ≤ b / u := Nat.div_le_div_right h
  unfold toMultiple
  simp only
  apply Nat.mul_le_mul_right
  rcases Nat.eq_or_lt_of_le hq with heq | hlt
  · rw [heq] at ha ⊢
    split_ifs <;> omega
  · have heven := Nat.mod_lt (a / u) two_pos
    split_ifs <;> omega

/-! ### Significant bits -/

/-- `n` in `p` significant bits. -/
def round (p n : ℕ) : ℕ := toMultiple (2 ^ (n.size - p)) n

/-- **A number of at most `p` bits is exact.** -/
theorem round_eq_self {p n : ℕ} (h : n < 2 ^ p) : round p n = n := by
  have hsize : n.size ≤ p := Nat.size_le.2 h
  rw [round, Nat.sub_eq_zero_of_le hsize, pow_zero, toMultiple_one]

@[simp] theorem round_zero (p : ℕ) : round p 0 = 0 := round_eq_self (Nat.two_pow_pos p)

/-- **The relative error**: at most one part in `2 ^ p` is lost. -/
theorem le_round (p n : ℕ) : 2 ^ p * n ≤ 2 ^ p * round p n + n := by
  by_cases h : n < 2 ^ p
  · rw [round_eq_self h]
    exact Nat.le_add_right _ _
  · have hsize : p < n.size := Nat.lt_size.2 (not_lt.1 h)
    have hlow : 2 ^ (n.size - 1) ≤ n := Nat.lt_size.1 (by omega)
    have hnear := le_toMultiple (Nat.two_pow_pos (n.size - p)) n
    have hpow : 2 ^ p * 2 ^ (n.size - p) = 2 * 2 ^ (n.size - 1) := by
      rw [pow_mul_pow_sub 2 hsize.le, mul_pow_sub_one (by omega)]
    have hscaled := Nat.mul_le_mul_left (2 ^ p) hnear
    rw [Nat.mul_add, hpow] at hscaled
    unfold round
    linarith

/-- A power of two is not left. -/
theorem pow_le_round {p : ℕ} (hp : 0 < p) {e n : ℕ} (h : 2 ^ e ≤ n) : 2 ^ e ≤ round p n := by
  by_cases hsmall : n < 2 ^ p
  · rwa [round_eq_self hsmall]
  · have hsize : p < n.size := Nat.lt_size.2 (not_lt.1 hsmall)
    have hlow : 2 ^ (n.size - 1) ≤ n := Nat.lt_size.1 (by omega)
    have hmono := toMultiple_mono (Nat.two_pow_pos (n.size - p)) hlow
    rw [toMultiple_two_pow (by omega)] at hmono
    have he : e < n.size := Nat.lt_size.2 h
    exact (Nat.pow_le_pow_right two_pos (by omega)).trans hmono

theorem round_le_pow {p e n : ℕ} (h : n < 2 ^ e) : round p n ≤ 2 ^ e := by
  by_cases hsmall : n < 2 ^ p
  · rw [round_eq_self hsmall]
    exact h.le
  · have hmono := toMultiple_mono (Nat.two_pow_pos (n.size - p)) (Nat.lt_size_self n).le
    rw [toMultiple_two_pow (Nat.sub_le _ _)] at hmono
    exact hmono.trans (Nat.pow_le_pow_right two_pos (Nat.size_le.2 h))

/-- **Which numbers stay below a power of two**: those that are more than half of the last unit
below it.  The last unit is one when the power has no more than `p` bits. -/
theorem round_lt_pow_iff {p : ℕ} (hp : 0 < p) (e n : ℕ) :
    round p n < 2 ^ e ↔ 2 * n + 2 ^ (e - p) < 2 * 2 ^ e := by
  rcases Nat.lt_or_ge p e with he | he
  case inr =>
    rw [Nat.sub_eq_zero_of_le he, pow_zero]
    by_cases hlarge : 2 ^ e ≤ n
    · have hround := pow_le_round hp hlarge
      exact iff_of_false (by omega) (by omega)
    · have hexact : round p n = n :=
        round_eq_self ((not_le.1 hlarge).trans_le (Nat.pow_le_pow_right two_pos he))
      rw [hexact]
      exact iff_of_true (not_le.1 hlarge) (by omega)
  have hunit : 2 ^ (e - p) < 2 ^ e := Nat.pow_lt_pow_right (by decide) (by omega)
  have hunitPos := Nat.two_pow_pos (e - p)
  by_cases hlarge : 2 ^ e ≤ n
  · have hround := pow_le_round hp hlarge
    exact iff_of_false (by omega) (by omega)
  · have hhalf : 2 * 2 ^ (e - 1) = 2 ^ e := mul_pow_sub_one (by omega) 2
    by_cases hsmall : n < 2 ^ (e - 1)
    · have hround := round_le_pow (p := p) hsmall
      have hpos := Nat.two_pow_pos (e - 1)
      exact iff_of_true (by omega) (by omega)
    · have hsize : n.size = e := by
        have hle : n.size ≤ e := Nat.size_le.2 (not_le.1 hlarge)
        have hlt : e - 1 < n.size := Nat.lt_size.2 (not_lt.1 hsmall)
        omega
      have hsplit : 2 ^ e = 2 ^ p * 2 ^ (e - p) := (pow_mul_pow_sub 2 he.le).symm
      have heven : 2 ^ p % 2 = 0 := by
        rw [← Nat.succ_pred_eq_of_pos hp, pow_succ]
        exact Nat.mul_mod_left _ _
      rw [round, hsize, hsplit]
      exact toMultiple_lt_iff (Nat.two_pow_pos _) heven (hsplit ▸ not_le.1 hlarge)

/-! ### Integers -/

/-- An integer in `p` significant bits and a sign. -/
def roundInt (p : ℕ) (n : ℤ) : ℤ := n.sign * round p n.natAbs

@[simp] theorem roundInt_natCast (p n : ℕ) : roundInt p n = round p n := by
  rcases Nat.eq_zero_or_pos n with rfl | hn
  · simp [roundInt]
  · rw [roundInt, Int.sign_natCast_of_ne_zero (by omega), one_mul, Int.natAbs_natCast]

end Rounding
