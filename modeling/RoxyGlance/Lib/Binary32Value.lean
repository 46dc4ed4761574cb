import RoxyGlance.Lib.Binary32
import Mathlib.Data.Rat.Floor

/-!
# What single precision results stand for

The two zeros and the many NaNs are told apart by their bits only.  Every operation gives results
that stand for the same number when its operands do.  Whole numbers up to `2 ^ 24` are computed with
exactly.

* `toIeee_add_congr`, `toIeee_sub_congr`, `toIeee_mul_congr`, `toIeee_roundToIntegral_congr`,
  `toInt32_congr`: results depend on the numbers alone;
* `toIeee_ofInt32`, `toIeee_add_whole`, `toIeee_sub_whole`, `toInt32_of_whole`: whole numbers.
-/

namespace Binary32

open Rounding

/-! ### Equal numbers -/

/-- Patterns for the same number are equal, or zeros, or NaNs. -/
theorem cases_of_toIeee_eq {a b : Bits} (h : toIeee a = toIeee b) :
    (infinity < ord a ∧ infinity < ord b) ∨ a = b ∨ (ord a = 0 ∧ ord b = 0) := by
  rcases Nat.lt_trichotomy (ord b) infinity with hb | hb | hb
  · rw [toIeee_of_lt hb, toIeee_eq_finite_iff] at h
    obtain ⟨ha, hunits⟩ := h
    rcases Nat.eq_zero_or_pos (magnitude b) with hzero | hpos
    · have hb0 : units b = 0 := by
        rw [units, hzero]
        cases sign b <;> rfl
      exact Or.inr (Or.inr ⟨ord_eq_zero_of_units (hunits.trans hb0), ord_eq_zero_of_units hb0⟩)
    · -- the sign and the magnitude are those of the units
      have hmag : magnitude a = magnitude b := by
        have habs := congrArg Int.natAbs hunits
        rwa [units, units, natAbs_signed, natAbs_signed] at habs
      have hsign : sign a = sign b := by
        rw [← signed_lt_zero (s := sign a) (n := magnitude a) (by omega),
          ← signed_lt_zero (s := sign b) hpos.ne', ← units, ← units, hunits]
      have hback := ofFrac_magnitude ha
      rw [hsign, hmag, ofFrac_magnitude hb] at hback
      exact Or.inr (Or.inl hback.symm)
  · rcases Nat.lt_trichotomy (ord a) infinity with ha | ha | ha
    · rw [toIeee_of_lt ha, toIeee_of_eq hb] at h
      split_ifs at h
    · refine Or.inr (Or.inl (eq_of_parts ?_ (ha.trans hb.symm)))
      rw [toIeee_of_eq ha, toIeee_of_eq hb] at h
      cases hsa : sign a <;> cases hsb : sign b <;> simp_all
    · rw [toIeee_of_gt ha, toIeee_of_eq hb] at h
      split_ifs at h
  · rcases Nat.lt_trichotomy (ord a) infinity with ha | ha | ha
    · rw [toIeee_of_lt ha, toIeee_of_gt hb] at h
      cases h
    · rw [toIeee_of_eq ha, toIeee_of_gt hb] at h
      split_ifs at h
    · exact Or.inl ⟨ha, hb⟩

theorem toIeee_of_ord_zero {b : Bits} (h : ord b = 0) : toIeee b = .finite 0 := by
  have hfinite : ord b < infinity := by
    rw [h]
    decide
  rw [toIeee_of_lt hfinite, units_of_ord_zero h]

theorem value_infinity_pos : 0 < value 24 infinity := by
  rw [← value_zero 24]
  exact (value_lt_iff 24).2 (by decide)

/-! ### Sums -/

section Sums

variable {a b : Bits}

theorem toIeee_add_nan (h : infinity < ord a ∨ infinity < ord b) : toIeee (add a b) = .nan := by
  rw [add]
  split_ifs with ha hb
  · exact toIeee_quiet ha
  · exact toIeee_quiet hb
  all_goals exact absurd h (by omega)

/-- The sum does not depend on the order, the bits of a NaN apart. -/
theorem toIeee_add_comm (a b : Bits) : toIeee (add a b) = toIeee (add b a) := by
  by_cases hnan : infinity < ord a ∨ infinity < ord b
  · rw [toIeee_add_nan hnan, toIeee_add_nan hnan.symm]
  · obtain ⟨ha, hb⟩ : ¬ infinity < ord a ∧ ¬ infinity < ord b := by tauto
    rw [add, add, if_neg ha, if_neg hb, if_neg hb, if_neg ha, add_comm (units b), Bool.and_comm]
    by_cases hainf : ord a = infinity <;> by_cases hbinf : ord b = infinity
    · by_cases hsign : sign a = sign b
      · rw [eq_of_parts hsign (hainf.trans hbinf.symm)]
      · rw [if_pos hainf, if_pos hbinf, if_pos ⟨hbinf, hsign⟩, if_pos ⟨hainf, Ne.symm hsign⟩]
    · rw [if_pos hainf, if_neg hbinf, if_pos hainf, if_neg (fun h => hbinf h.1)]
    · rw [if_neg hainf, if_pos hbinf, if_pos hbinf, if_neg (fun h => hainf h.1)]
    · rw [if_neg hainf, if_neg hbinf, if_neg hbinf, if_neg hainf]

/-- A sum with zero. -/
theorem toIeee_add_zero (hb : ord b = 0) (a : Bits) : toIeee (add a b) = toIeee a := by
  have hfinite : ord b < infinity := by
    rw [hb]
    decide
  rcases Nat.lt_trichotomy (ord a) infinity with ha | ha | ha
  · have hunits : units a + units b = units a := by rw [units_of_ord_zero hb, add_zero]
    have hmag : (units a).natAbs = magnitude a := natAbs_signed _ _
    rw [toIeee_add ha hfinite, hunits, toIeee_of_lt ha]
    · rw [hunits, hmag]
      exact representable_magnitude a
    · rw [hunits, hmag]
      exact (value_lt_iff 24).2 ha
  · rw [add, if_neg (by omega), if_neg (by omega), if_pos ha, if_neg (by omega)]
  · rw [toIeee_add_nan (Or.inl ha), toIeee_of_gt ha]

theorem toIeee_add_left {a' : Bits} (h : toIeee a = toIeee a') :
    toIeee (add a b) = toIeee (add a' b) := by
  rcases cases_of_toIeee_eq h with ⟨ha, ha'⟩ | rfl | ⟨ha, ha'⟩
  · rw [toIeee_add_nan (Or.inl ha), toIeee_add_nan (Or.inl ha')]
  · rfl
  · rw [toIeee_add_comm a, toIeee_add_comm a', toIeee_add_zero ha, toIeee_add_zero ha']

/-- **Sums** depend on the numbers alone. -/
theorem toIeee_add_congr {a' b' : Bits} (ha : toIeee a = toIeee a') (hb : toIeee b = toIeee b') :
    toIeee (add a b) = toIeee (add a' b') :=
  calc toIeee (add a b)
      = toIeee (add a' b) := toIeee_add_left ha
    _ = toIeee (add b a') := toIeee_add_comm a' b
    _ = toIeee (add b' a') := toIeee_add_left hb
    _ = toIeee (add a' b') := toIeee_add_comm b' a'

theorem toIeee_neg_congr {b' : Bits} (h : toIeee b = toIeee b') : toIeee (neg b) = toIeee (neg b') := by
  rcases cases_of_toIeee_eq h with ⟨hb, hb'⟩ | rfl | ⟨hb, hb'⟩
  · rw [toIeee_of_gt (by rwa [ord_neg]), toIeee_of_gt (by rwa [ord_neg])]
  · rfl
  · rw [toIeee_of_ord_zero (by rwa [ord_neg]), toIeee_of_ord_zero (by rwa [ord_neg])]

theorem toIeee_sub (a b : Bits) : toIeee (sub a b) = toIeee (add a (neg b)) := by
  rw [sub]
  split_ifs with ha hb
  · rw [toIeee_quiet ha, toIeee_add_nan (Or.inl ha)]
  · rw [toIeee_quiet hb, toIeee_add_nan (Or.inr (by rwa [ord_neg]))]
  · rfl

/-- **Differences** depend on the numbers alone. -/
theorem toIeee_sub_congr {a' b' : Bits} (ha : toIeee a = toIeee a') (hb : toIeee b = toIeee b') :
    toIeee (sub a b) = toIeee (sub a' b') := by
  rw [toIeee_sub, toIeee_sub]
  exact toIeee_add_congr ha (toIeee_neg_congr hb)

end Sums

/-! ### Products -/

section Products

variable {a b : Bits}

theorem toIeee_mul_nan (h : infinity < ord a ∨ infinity < ord b) : toIeee (mul a b) = .nan := by
  rw [mul]
  split_ifs with ha hb
  · exact toIeee_quiet ha
  · exact toIeee_quiet hb
  all_goals exact absurd h (by omega)

/-- The product does not depend on the order, the bits of a NaN apart. -/
theorem toIeee_mul_comm (a b : Bits) : toIeee (mul a b) = toIeee (mul b a) := by
  by_cases hnan : infinity < ord a ∨ infinity < ord b
  · rw [toIeee_mul_nan hnan, toIeee_mul_nan hnan.symm]
  · obtain ⟨ha, hb⟩ : ¬ infinity < ord a ∧ ¬ infinity < ord b := by tauto
    rw [mul, mul, if_neg ha, if_neg hb, if_neg hb, if_neg ha, Bool.xor_comm (sign b),
      Nat.mul_comm (magnitude b)]
    simp only [or_comm]

/-- **The product of finite numbers**, when it stays below the infinity. -/
theorem toIeee_mul_rounded (ha : ord a < infinity) (hb : ord b < infinity)
    (h : roundDiv 24 (magnitude a * magnitude b) whole < value 24 infinity) :
    toIeee (mul a b) = .finite
      (signed (sign a ^^ sign b) (roundDiv 24 (magnitude a * magnitude b) whole)) := by
  rw [mul, if_neg (by omega), if_neg (by omega), if_neg (by omega), toIeee_ofFrac _ whole_pos h]

theorem magnitude_of_ord_zero (h : ord a = 0) : magnitude a = 0 := by
  rw [magnitude, h, value_zero]

theorem roundDiv_zero {d : ℕ} (hd : 0 < d) : roundDiv 24 0 d = 0 := by
  have hmul := roundDiv_mul hd (representable_zero 24)
  rwa [Nat.zero_mul] at hmul

/-- Zero times a number. -/
theorem toIeee_mul_zero (ha : ord a = 0) (b : Bits) :
    toIeee (mul a b) = if infinity ≤ ord b then .nan else .finite 0 := by
  have hinf : ord a < infinity := by
    rw [ha]
    decide
  split_ifs with hb
  · rcases Nat.eq_or_lt_of_le hb with heq | hlt
    · rw [mul, if_neg (by omega), if_neg (by omega), if_pos (Or.inr heq.symm), if_pos (Or.inl ha)]
      decide
    · exact toIeee_mul_nan (Or.inr hlt)
  · have hproduct : roundDiv 24 (magnitude a * magnitude b) whole = 0 := by
      rw [magnitude_of_ord_zero ha, Nat.zero_mul, roundDiv_zero whole_pos]
    rw [toIeee_mul_rounded hinf (by omega), hproduct]
    · cases sign a ^^ sign b <;> rfl
    · rw [hproduct]
      exact value_infinity_pos

theorem toIeee_mul_left {a' : Bits} (h : toIeee a = toIeee a') :
    toIeee (mul a b) = toIeee (mul a' b) := by
  rcases cases_of_toIeee_eq h with ⟨ha, ha'⟩ | rfl | ⟨ha, ha'⟩
  · rw [toIeee_mul_nan (Or.inl ha), toIeee_mul_nan (Or.inl ha')]
  · rfl
  · rw [toIeee_mul_zero ha, toIeee_mul_zero ha']

/-- **Products** depend on the numbers alone. -/
theorem toIeee_mul_congr {a' b' : Bits} (ha : toIeee a = toIeee a') (hb : toIeee b = toIeee b') :
    toIeee (mul a b) = toIeee (mul a' b') :=
  calc toIeee (mul a b)
      = toIeee (mul a' b) := toIeee_mul_left ha
    _ = toIeee (mul b a') := toIeee_mul_comm a' b
    _ = toIeee (mul b' a') := toIeee_mul_left hb
    _ = toIeee (mul a' b') := toIeee_mul_comm b' a'

end Products

/-! ### Rounding and converting -/

section Rounding

variable {a b : Bits}

/-- **Rounding to a whole number** depends on the number alone. -/
theorem toIeee_roundToIntegral_congr (dir : Direction) (h : toIeee a = toIeee b) :
    toIeee (roundToIntegral dir a) = toIeee (roundToIntegral dir b) := by
  have hzero : ∀ c : Bits, ord c = 0 → toIeee (roundToIntegral dir c) = .finite 0 := by
    intro c hc
    have hfinite : ord c < infinity := by
      rw [hc]
      decide
    rw [toIeee_roundToIntegral hfinite, magnitude_of_ord_zero hc, toIntegral_of_dvd (dvd_zero _)]
    cases sign c <;> rfl
  rcases cases_of_toIeee_eq h with ⟨ha, hb⟩ | rfl | ⟨ha, hb⟩
  · rw [toIeee_roundToIntegral_of_ge ha.le, toIeee_roundToIntegral_of_ge hb.le, h]
  · rfl
  · rw [hzero a ha, hzero b hb]

/-- **Conversions** depend on the number alone. -/
theorem toInt32_congr (dir : Direction) (h : toIeee a = toIeee b) :
    toInt32 dir a = toInt32 dir b := by
  rcases cases_of_toIeee_eq h with ⟨ha, hb⟩ | rfl | ⟨ha, hb⟩
  · rw [toInt32_of_ge ha.le, toInt32_of_ge hb.le]
  · rfl
  · rw [← toInt32_positiveZero dir a, ← toInt32_positiveZero dir b, positiveZero, positiveZero,
      if_pos ha, if_pos hb]

end Rounding

/-! ### Whole numbers -/

/-- `b` stands for the whole number `n`. -/
def IsWhole (b : Bits) (n : ℤ) : Prop := toIeee b = .finite (n * whole)

section Whole

variable {a b : Bits} {m n : ℤ}

theorem natAbs_mul_whole (n : ℤ) : (n * whole).natAbs = n.natAbs * whole := by
  rw [Int.natAbs_mul, Int.natAbs_natCast]

/-- Up to `2 ^ 24` a whole number needs no rounding. -/
theorem representable_whole {k : ℕ} (h : k ≤ 2 ^ 24) : Representable 24 (k * whole) :=
  representable_mul (by decide) h

theorem whole_lt_infinity {k : ℕ} (h : k ≤ 2 ^ 24) : k * whole < value 24 infinity := by
  have hvalue : value 24 0x4B800000 = 2 ^ 24 * whole := by decide +kernel
  have hlt : value 24 0x4B800000 < value 24 infinity := (value_lt_iff 24).2 (by decide)
  rw [hvalue] at hlt
  exact (Nat.mul_le_mul_right whole h).trans_lt hlt

/-- **An integer is converted exactly.** -/
theorem isWhole_ofInt32 {x : BitVec 32} (h : x.toInt.natAbs ≤ 2 ^ 24) :
    IsWhole (ofInt32 x) x.toInt := by
  have hrep := representable_whole h
  have hlt : roundDiv 24 (x.toInt.natAbs * whole) 1 < value 24 infinity := by
    rw [roundDiv_one, hrep.round_eq]
    exact whole_lt_infinity h
  rw [IsWhole, ofInt32, toIeee_ofFrac _ one_pos hlt, roundDiv_one, hrep.round_eq, Nat.mul_comm,
    signed_mul, signed_decide, mul_comm]

/-- **Sums of whole numbers** up to `2 ^ 24` are exact. -/
theorem IsWhole.add (ha : IsWhole a m) (hb : IsWhole b n) (h : (m + n).natAbs ≤ 2 ^ 24) :
    IsWhole (add a b) (m + n) := by
  obtain ⟨hao, hau⟩ := toIeee_eq_finite_iff.1 ha
  obtain ⟨hbo, hbu⟩ := toIeee_eq_finite_iff.1 hb
  have hsum : units a + units b = (m + n) * whole := by rw [hau, hbu, add_mul]
  have habs : (units a + units b).natAbs = (m + n).natAbs * whole := by
    rw [hsum, natAbs_mul_whole]
  rw [IsWhole, toIeee_add hao hbo (habs ▸ representable_whole h) (habs ▸ whole_lt_infinity h), hsum]

theorem IsWhole.neg (hb : IsWhole b n) : IsWhole (neg b) (-n) := by
  obtain ⟨hbo, hbu⟩ := toIeee_eq_finite_iff.1 hb
  refine toIeee_eq_finite_iff.2 ⟨by rwa [ord_neg], ?_⟩
  rw [units_neg, hbu, neg_mul]

/-- **Differences of whole numbers** up to `2 ^ 24` are exact. -/
theorem IsWhole.sub (ha : IsWhole a m) (hb : IsWhole b n) (h : (m - n).natAbs ≤ 2 ^ 24) :
    IsWhole (sub a b) (m - n) := by
  have hneg := ha.add hb.neg (by rwa [← Int.sub_eq_add_neg])
  rwa [IsWhole, ← toIeee_sub, ← Int.sub_eq_add_neg] at hneg

/-- **A whole number that fits is converted to itself.** -/
theorem IsWhole.toInt32 (hb : IsWhole b n) (hlow : -2 ^ 31 ≤ n) (hhigh : n < 2 ^ 31)
    (dir : Direction) : toInt32 dir b = BitVec.ofInt 32 n := by
  obtain ⟨hbo, hbu⟩ := toIeee_eq_finite_iff.1 hb
  have hmag : magnitude b = n.natAbs * whole := by
    have habs := congrArg Int.natAbs hbu
    rwa [units, natAbs_signed, natAbs_mul_whole] at habs
  have hdvd : whole ∣ magnitude b := by
    rw [hmag]
    exact Nat.dvd_mul_left whole _
  have hint : signed (sign b) (magnitude b / whole) = n := by
    have hpos : (whole : ℤ) ≠ 0 := Int.natCast_ne_zero.2 whole_pos.ne'
    refine mul_right_cancel₀ hpos ?_
    rw [← hbu, units, mul_comm, ← signed_mul, Nat.mul_div_cancel' hdvd]
  rw [Binary32.toInt32, if_neg (by omega), toIntegral_of_dvd hdvd, hint, intOrIndefinite,
    if_pos ⟨hlow, hhigh⟩]

end Whole

/-! ### Rational numbers -/

/-- The number a finite pattern stands for. -/
def toRat (b : Bits) : ℚ := units b / whole

section Rational

variable {a b : Bits} {n : ℤ}

theorem whole_rat_pos : (0 : ℚ) < whole := Nat.cast_pos.2 whole_pos

theorem IsWhole.toRat_eq (h : IsWhole b n) : toRat b = n := by
  rw [toRat, (toIeee_eq_finite_iff.1 h).2, Int.cast_mul, Int.cast_natCast,
    mul_div_cancel_right₀ _ whole_rat_pos.ne']

theorem exists_toIntegral (dir : Direction) (b : Bits) :
    ∃ k : ℤ, signed (sign b) (toIntegral dir (sign b) (magnitude b)) = k * whole := by
  obtain ⟨k, hk⟩ := dvd_toIntegral dir (sign b) (magnitude b)
  exact ⟨signed (sign b) k, by rw [hk, signed_mul, mul_comm]⟩

/-- **Rounding down** is to the greatest whole number below. -/
theorem isWhole_down (h : ord b < infinity) : IsWhole (roundToIntegral .down b) ⌊toRat b⌋ := by
  obtain ⟨k, hk⟩ := exists_toIntegral .down b
  have hbounds : k * (whole : ℤ) ≤ units b ∧ units b < k * whole + whole := by
    rw [← hk]
    exact toward_down (sign b) (magnitude b) whole_pos
  have hfloor : ⌊toRat b⌋ = k := by
    rw [Int.floor_eq_iff, toRat, le_div_iff₀ whole_rat_pos, div_lt_iff₀ whole_rat_pos]
    constructor
    · exact_mod_cast hbounds.1
    · rw [add_mul, one_mul]
      exact_mod_cast hbounds.2
  rw [IsWhole, toIeee_roundToIntegral h, hk, hfloor]

/-- **Rounding up** is to the least whole number above. -/
theorem isWhole_up (h : ord b < infinity) : IsWhole (roundToIntegral .up b) ⌈toRat b⌉ := by
  obtain ⟨k, hk⟩ := exists_toIntegral .up b
  have hbounds : units b ≤ k * (whole : ℤ) ∧ k * (whole : ℤ) < units b + whole := by
    rw [← hk]
    exact toward_up (sign b) (magnitude b) whole_pos
  have hceil : ⌈toRat b⌉ = k := by
    rw [Int.ceil_eq_iff, toRat, div_le_iff₀ whole_rat_pos, lt_div_iff₀ whole_rat_pos, sub_mul,
      one_mul, sub_lt_iff_lt_add]
    constructor
    · exact_mod_cast hbounds.2
    · exact_mod_cast hbounds.1
  rw [IsWhole, toIeee_roundToIntegral h, hk, hceil]

/-- A finite number that is not negative is its magnitude. -/
theorem units_of_nonneg (h : 0 ≤ toRat b) : units b = magnitude b := by
  have hunits : 0 ≤ units b := by
    rw [toRat, le_div_iff₀ whole_rat_pos, zero_mul] at h
    exact_mod_cast h
  rw [← natAbs_signed (sign b) (magnitude b), ← units, Int.natAbs_of_nonneg hunits]

theorem toRat_of_nonneg (h : 0 ≤ toRat b) : toRat b = magnitude b / whole := by
  rw [toRat, units_of_nonneg h, Int.cast_natCast]

theorem sign_of_magnitude_pos (h : 0 ≤ toRat b) (hpos : 0 < magnitude b) : sign b = false := by
  apply sign_of_units_pos
  rw [units_of_nonneg h]
  exact_mod_cast hpos

/-- The units of a product, when neither factor is negative. -/
theorem units_mul (ha : ord a < infinity) (hb : ord b < infinity) (hanonneg : 0 ≤ toRat a)
    (hbnonneg : 0 ≤ toRat b)
    (h : roundDiv 24 (magnitude a * magnitude b) whole < value 24 infinity) :
    ord (mul a b) < infinity ∧
      units (mul a b) = roundDiv 24 (magnitude a * magnitude b) whole := by
  obtain ⟨hord, hunits⟩ := toIeee_eq_finite_iff.1 (toIeee_mul_rounded ha hb h)
  refine ⟨hord, hunits.trans ?_⟩
  rcases Nat.eq_zero_or_pos (magnitude a * magnitude b) with hzero | hpos
  · rw [hzero, roundDiv_zero whole_pos]
    cases sign a ^^ sign b <;> rfl
  · -- both factors are positive, and so is the product
    rw [sign_of_magnitude_pos hanonneg (Nat.pos_of_mul_pos_right hpos),
      sign_of_magnitude_pos hbnonneg (Nat.pos_of_mul_pos_left hpos)]
    rfl

/-- **The product with a whole number** does not pass a whole number. -/
theorem mul_whole {k : ℕ} (ha : ord a < infinity) (hnonneg : 0 ≤ toRat a) (hone : toRat a ≤ 1)
    (hb : IsWhole b k) (hk : k ≤ 2 ^ 24) :
    ord (mul a b) < infinity ∧
      ∀ j : ℕ, j ≤ 2 ^ 24 → (toRat a * k ≤ j → toRat (mul a b) ≤ j) ∧
        (j ≤ toRat a * k → j ≤ toRat (mul a b)) := by
  obtain ⟨hbo, hbu⟩ := toIeee_eq_finite_iff.1 hb
  have hbnonneg : 0 ≤ toRat b := by
    rw [hb.toRat_eq]
    exact_mod_cast k.zero_le
  have hbmag : magnitude b = k * whole := by
    have hcast : (magnitude b : ℤ) = ((k * whole : ℕ) : ℤ) := by
      rw [← units_of_nonneg hbnonneg, hbu, Nat.cast_mul]
    exact_mod_cast hcast
  have hproduct : ∀ j : ℕ, (toRat a * k ≤ j ↔ magnitude a * magnitude b ≤ j * whole * whole) ∧
      (j ≤ toRat a * k ↔ j * whole * whole ≤ magnitude a * magnitude b) := by
    intro j
    have hscale : toRat a * k = (magnitude a * k : ℕ) / whole := by
      rw [toRat_of_nonneg hnonneg, Nat.cast_mul, div_mul_eq_mul_div]
    rw [hscale, div_le_iff₀ whole_rat_pos, le_div_iff₀ whole_rat_pos, hbmag, ← mul_assoc,
      Nat.mul_le_mul_right_iff whole_pos, Nat.mul_le_mul_right_iff whole_pos]
    exact ⟨by exact_mod_cast Iff.rfl, by exact_mod_cast Iff.rfl⟩
  have hle : roundDiv 24 (magnitude a * magnitude b) whole ≤ k * whole := by
    refine roundDiv_le whole_pos (representable_whole hk) ((hproduct k).1.1 ?_)
    exact mul_le_of_le_one_left (by exact_mod_cast k.zero_le) hone
  obtain ⟨hord, hunits⟩ := units_mul ha hbo hnonneg hbnonneg (hle.trans_lt (whole_lt_infinity hk))
  have hvalue : toRat (mul a b) = (roundDiv 24 (magnitude a * magnitude b) whole : ℕ) / whole := by
    rw [toRat, hunits, Int.cast_natCast]
  refine ⟨hord, fun j hj => ⟨fun h => ?_, fun h => ?_⟩⟩
  · have hround := roundDiv_le whole_pos (representable_whole hj) ((hproduct j).1.1 h)
    rw [hvalue, div_le_iff₀ whole_rat_pos]
    exact_mod_cast hround
  · have hround := le_roundDiv whole_pos (representable_whole hj) ((hproduct j).2.1 h)
    rw [hvalue, le_div_iff₀ whole_rat_pos]
    exact_mod_cast hround

end Rational

end Binary32
