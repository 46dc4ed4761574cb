import RoxyGlance.Lib.Ieee
import RoxyGlance.Lib.Directed
import RoxyGlance.Lib.Significand

/-!
# Single precision

IEEE 754 binary32 on bit patterns.  Below the sign bit a pattern counts the magnitudes under it, up
to the infinity; the patterns above are NaNs.  Magnitudes are whole numbers of the least one,
`2 ^ -149`, so that sums and products are exact before they are rounded to 24 significant bits, to
nearest with ties to even.

* `toIeee_ofFrac`: what a rounded result stands for, below the overflow threshold;
* `toIeee_add`: a sum that needs no rounding;
* `toIeee_roundToIntegral`, `representable_toIntegral`: rounding to a whole number is exact.
-/

namespace Binary32

open Rounding

/-- A number, by its 32 bits. -/
abbrev Bits := BitVec 32

/-! ### Sign and magnitude -/

/-- The pattern of the infinity, without its sign. -/
def infinity : ℕ := 0x7F800000

/-- The sign bit. -/
def sign (b : Bits) : Bool := b.msb

/-- The bits below the sign. -/
def ord (b : Bits) : ℕ := b.toNat % 2 ^ 31

/-- A sign and the bits below it. -/
def ofParts (s : Bool) (k : ℕ) : Bits := BitVec.ofNat 32 (cond s (2 ^ 31) 0 + k)

theorem ord_lt (b : Bits) : ord b < 2 ^ 31 := Nat.mod_lt _ (Nat.two_pow_pos 31)

theorem toNat_ofParts (s : Bool) {k : ℕ} (hk : k < 2 ^ 31) :
    (ofParts s k).toNat = cond s (2 ^ 31) 0 + k := by
  rw [ofParts, BitVec.toNat_ofNat]
  apply Nat.mod_eq_of_lt
  cases s <;> simp only [cond_true, cond_false] <;> omega

@[simp] theorem ord_ofParts (s : Bool) {k : ℕ} (hk : k < 2 ^ 31) : ord (ofParts s k) = k := by
  rw [ord, toNat_ofParts s hk]
  cases s <;> simp only [cond_true, cond_false] <;> omega

@[simp] theorem sign_ofParts (s : Bool) {k : ℕ} (hk : k < 2 ^ 31) : sign (ofParts s k) = s := by
  rw [sign, BitVec.msb_eq_decide, toNat_ofParts s hk]
  cases s
  · exact decide_eq_false (by simp only [cond_false]; omega)
  · exact decide_eq_true (by simp only [cond_true]; omega)

/-- A pattern is its sign and the bits below. -/
theorem ofParts_sign_ord (b : Bits) : ofParts (sign b) (ord b) = b := by
  apply BitVec.eq_of_toNat_eq
  rw [toNat_ofParts _ (ord_lt b), sign, BitVec.msb_eq_decide, ord]
  have hlt := b.isLt
  by_cases h : 2 ^ (32 - 1) ≤ b.toNat
  · rw [decide_eq_true h, cond_true]
    omega
  · rw [decide_eq_false h, cond_false]
    omega

theorem eq_of_parts {a b : Bits} (hsign : sign a = sign b) (hord : ord a = ord b) : a = b := by
  rw [← ofParts_sign_ord a, ← ofParts_sign_ord b, hsign, hord]

/-! ### The number that is meant -/

/-- The magnitude of a finite number, in units of `2 ^ -149`. -/
def magnitude (b : Bits) : ℕ := value 24 (ord b)

/-- One, in these units. -/
def whole : ℕ := 2 ^ 149

theorem whole_pos : 0 < whole := Nat.two_pow_pos 149

/-- A finite number, in units of `2 ^ -149`. -/
def units (b : Bits) : ℤ := signed (sign b) (magnitude b)

/-- What the bits stand for.  Both zeros are zero. -/
def toIeee (b : Bits) : Ieee ℤ :=
  if infinity < ord b then .nan
  else if ord b = infinity then (if sign b then .negInf else .posInf)
  else .finite (units b)

theorem toIeee_of_lt {b : Bits} (h : ord b < infinity) : toIeee b = .finite (units b) := by
  rw [toIeee, if_neg (by omega), if_neg (by omega)]

theorem toIeee_of_gt {b : Bits} (h : infinity < ord b) : toIeee b = .nan := if_pos h

theorem toIeee_of_eq {b : Bits} (h : ord b = infinity) :
    toIeee b = if sign b then .negInf else .posInf := by
  rw [toIeee, if_neg (by omega), if_pos h]

theorem infinity_lt : infinity < 2 ^ 31 := by decide

theorem toIeee_eq_finite_iff {b : Bits} {z : ℤ} :
    toIeee b = .finite z ↔ ord b < infinity ∧ units b = z := by
  rcases Nat.lt_trichotomy (ord b) infinity with h | h | h
  · rw [toIeee_of_lt h, Ieee.finite.injEq]
    exact ⟨fun hz => ⟨h, hz⟩, fun hz => hz.2⟩
  · rw [toIeee_of_eq h]
    refine ⟨fun hz => ?_, fun hz => absurd hz.1 (by omega)⟩
    split_ifs at hz
  · rw [toIeee_of_gt h]
    refine ⟨fun hz => ?_, fun hz => absurd hz.1 (by omega)⟩
    cases hz

theorem representable_magnitude (b : Bits) : Representable 24 (magnitude b) :=
  representable_value (by decide) _

/-! ### Rounded results -/

/-- The number nearest to `n / d` units; beyond the largest one, the infinity. -/
def ofFrac (s : Bool) (n d : ℕ) : Bits := ofParts s (min (ordinal 24 (roundDiv 24 n d)) infinity)

theorem min_infinity_lt (k : ℕ) : min k infinity < 2 ^ 31 :=
  (min_le_right _ _).trans_lt infinity_lt

@[simp] theorem sign_ofFrac (s : Bool) (n d : ℕ) : sign (ofFrac s n d) = s :=
  sign_ofParts s (min_infinity_lt _)

section Finite

variable {n d : ℕ}

/-- Below the infinity, the bits of a rounded result count the magnitudes under it. -/
theorem ord_ofFrac (s : Bool) (hd : 0 < d) (h : roundDiv 24 n d < value 24 infinity) :
    ord (ofFrac s n d) < infinity ∧ magnitude (ofFrac s n d) = roundDiv 24 n d := by
  have hval : value 24 (ordinal 24 (roundDiv 24 n d)) = roundDiv 24 n d :=
    value_ordinal (by decide) (representable_roundDiv (by decide) hd)
  have hlt : ordinal 24 (roundDiv 24 n d) < infinity := by
    rw [← value_lt_iff 24, hval]
    exact h
  have hord : ord (ofFrac s n d) = ordinal 24 (roundDiv 24 n d) := by
    rw [ofFrac, ord_ofParts s (min_infinity_lt _), min_eq_left hlt.le]
  exact ⟨hord ▸ hlt, by rw [magnitude, hord, hval]⟩

/-- **A rounded result** below the infinity. -/
theorem toIeee_ofFrac (s : Bool) (hd : 0 < d) (h : roundDiv 24 n d < value 24 infinity) :
    toIeee (ofFrac s n d) = .finite (signed s (roundDiv 24 n d)) := by
  obtain ⟨hlt, hmag⟩ := ord_ofFrac s hd h
  rw [toIeee_of_lt hlt, units, sign_ofFrac, hmag]

/-- A number that needs no rounding. -/
theorem ofFrac_exact (s : Bool) (hn : Representable 24 n) (h : n < value 24 infinity) :
    ord (ofFrac s n 1) < infinity ∧ magnitude (ofFrac s n 1) = n := by
  have hround : roundDiv 24 n 1 = n := by rw [roundDiv_one, hn.round_eq]
  rw [← hround] at h
  rw [← hround]
  have hparts := ord_ofFrac s one_pos h
  rwa [hround] at hparts ⊢

/-- The bits of a number give the number back. -/
theorem ofFrac_magnitude {b : Bits} (h : ord b < infinity) :
    ofFrac (sign b) (magnitude b) 1 = b := by
  have hlt : magnitude b < value 24 infinity := (value_lt_iff 24).2 h
  obtain ⟨-, hmag⟩ := ofFrac_exact (sign b) (representable_magnitude b) hlt
  refine eq_of_parts (sign_ofFrac _ _ _) ?_
  have hord := congrArg (ordinal 24) hmag
  rwa [magnitude, magnitude, ordinal_value (by decide), ordinal_value (by decide)] at hord

end Finite

/-! ### Sums and products -/

/-- The NaN for an invalid operation. -/
def indefinite : Bits := 0xFFC00000

/-- A NaN that signals no more. -/
def quiet (b : Bits) : Bits := b ||| 0x00400000

/-- The sum. -/
def add (a b : Bits) : Bits :=
  if infinity < ord a then quiet a
  else if infinity < ord b then quiet b
  else if ord a = infinity then (if ord b = infinity ∧ sign a ≠ sign b then indefinite else a)
  else if ord b = infinity then b
  else
    let z := units a + units b
    if z = 0 then ofParts (sign a && sign b) 0 else ofFrac (z < 0) z.natAbs 1

/-- The number with the other sign. -/
def neg (b : Bits) : Bits := b ^^^ 0x80000000

/-- The difference. -/
def sub (a b : Bits) : Bits :=
  if infinity < ord a then quiet a
  else if infinity < ord b then quiet b
  else add a (neg b)

/-- The product. -/
def mul (a b : Bits) : Bits :=
  if infinity < ord a then quiet a
  else if infinity < ord b then quiet b
  else if ord a = infinity ∨ ord b = infinity then
    if ord a = 0 ∨ ord b = 0 then indefinite else ofParts (sign a ^^ sign b) infinity
  else ofFrac (sign a ^^ sign b) (magnitude a * magnitude b) whole

/-- The comparison `a < b`. -/
def lt (a b : Bits) : Bool := Ieee.lt (toIeee a) (toIeee b)

/-- The bits below the sign, as a shorter word. -/
theorem ord_eq_setWidth (b : Bits) : ord b = (b.setWidth 31).toNat := by
  rw [ord, BitVec.toNat_setWidth]

/-- The bits that make a NaN quiet leave it a NaN. -/
theorem ord_quiet (b : Bits) : ord b ≤ ord (quiet b) := by
  rw [ord_eq_setWidth, ord_eq_setWidth, quiet, BitVec.setWidth_or, BitVec.toNat_or]
  exact Nat.left_le_or

theorem toIeee_quiet {b : Bits} (h : infinity < ord b) : toIeee (quiet b) = .nan :=
  toIeee_of_gt (h.trans_le (ord_quiet b))

theorem toIeee_ofParts_zero (s : Bool) : toIeee (ofParts s 0) = .finite 0 := by cases s <;> decide

section Add

variable {a b : Bits}

theorem add_of_finite (ha : ord a < infinity) (hb : ord b < infinity) :
    add a b = if units a + units b = 0 then ofParts (sign a && sign b) 0
      else ofFrac (units a + units b < 0) (units a + units b).natAbs 1 := by
  rw [add, if_neg (by omega), if_neg (by omega), if_neg (by omega), if_neg (by omega)]

/-- **The sum of finite numbers**, when it stays below the infinity. -/
theorem toIeee_add_rounded (ha : ord a < infinity) (hb : ord b < infinity)
    (h : round 24 (units a + units b).natAbs < value 24 infinity) :
    toIeee (add a b) =
      .finite (signed (units a + units b < 0) (round 24 (units a + units b).natAbs)) := by
  rw [add_of_finite ha hb]
  split_ifs with hz
  · rw [toIeee_ofParts_zero, hz, Int.natAbs_zero, round_zero]
    rfl
  · rw [toIeee_ofFrac _ one_pos (by rwa [roundDiv_one]), roundDiv_one]

/-- **A sum that needs no rounding.** -/
theorem toIeee_add (ha : ord a < infinity) (hb : ord b < infinity)
    (hrep : Representable 24 (units a + units b).natAbs)
    (h : (units a + units b).natAbs < value 24 infinity) :
    toIeee (add a b) = .finite (units a + units b) := by
  have hround := toIeee_add_rounded ha hb (by rwa [hrep.round_eq])
  rwa [hrep.round_eq, signed_decide] at hround

end Add

/-- A zero without its sign; other numbers as they are. -/
def positiveZero (b : Bits) : Bits := if ord b = 0 then 0 else b

@[simp] theorem ord_positiveZero (b : Bits) : ord (positiveZero b) = ord b := by
  unfold positiveZero
  split_ifs with h
  · rw [h]
    decide
  · rfl

theorem units_of_ord_zero {b : Bits} (h : ord b = 0) : units b = 0 := by
  rw [units, magnitude, h, value_zero]
  cases sign b <;> rfl

@[simp] theorem units_positiveZero (b : Bits) : units (positiveZero b) = units b := by
  unfold positiveZero
  split_ifs with h
  · rw [units_of_ord_zero h]
    decide
  · rfl

/-- Only a zero has no units. -/
theorem ord_eq_zero_of_units {b : Bits} (h : units b = 0) : ord b = 0 := by
  have hmag : magnitude b = 0 := by rw [← natAbs_signed (sign b) (magnitude b), ← units, h]; rfl
  by_contra hne
  have hlt : value 24 0 < value 24 (ord b) := (value_lt_iff 24).2 (Nat.pos_of_ne_zero hne)
  rw [magnitude] at hmag
  omega

@[simp] theorem toIeee_positiveZero (b : Bits) : toIeee (positiveZero b) = toIeee b := by
  unfold positiveZero
  split_ifs with h
  · have hlt : ord b < infinity := by
      rw [h]
      decide
    rw [toIeee_of_lt hlt, units_of_ord_zero h]
    decide
  · rfl

/-- A zero without its sign has no bits set. -/
theorem sign_positiveZero_of_units {b : Bits} (h : units b = 0) : sign (positiveZero b) = false := by
  rw [positiveZero, if_pos (ord_eq_zero_of_units h)]
  decide

theorem sign_of_units_pos {b : Bits} (h : 0 < units b) : sign b = false := by
  rw [units] at h
  cases hs : sign b
  · rfl
  · rw [hs, signed, cond_true] at h
    omega

theorem positiveZero_ofFrac {s : Bool} {n : ℕ} (hn : n ≠ 0) (hrep : Representable 24 n)
    (h : n < value 24 infinity) : positiveZero (ofFrac s n 1) = ofFrac s n 1 := by
  refine if_neg fun hzero => hn ?_
  have hmag := (ofFrac_exact s hrep h).2
  rw [magnitude, hzero, value_zero] at hmag
  exact hmag.symm

theorem positiveZero_ofFrac_zero (s : Bool) : positiveZero (ofFrac s 0 1) = 0 := by
  cases s <;> decide

/-- **The bits of a sum that needs no rounding**, when a sum of zero gets no sign. -/
theorem add_eq_positiveZero {a b : Bits} {s : Bool} {n : ℕ} (ha : ord a < infinity)
    (hb : ord b < infinity) (hsum : units a + units b = signed s n) (hrep : Representable 24 n)
    (h : n < value 24 infinity) (hzero : n = 0 → (sign a && sign b) = false) :
    add a b = positiveZero (ofFrac s n 1) := by
  rw [add_of_finite ha hb, hsum, natAbs_signed]
  rcases Nat.eq_zero_or_pos n with rfl | hn
  · have hnone : signed s 0 = 0 := by cases s <;> rfl
    rw [if_pos hnone, hzero rfl, positiveZero_ofFrac_zero]
    rfl
  · have hne : signed s n ≠ 0 := fun hz => by
      have habs := natAbs_signed s n
      rw [hz] at habs
      exact hn.ne habs
    rw [if_neg hne, signed_lt_zero hn.ne', positiveZero_ofFrac hn.ne' hrep h]

/-! ### The sign bit -/

/-- The sign bit alone. -/
def signMask : Bits := 0x80000000

theorem setWidth_signMask : signMask.setWidth 31 = 0#31 := by decide

theorem msb_signMask : signMask.msb = true := by decide

theorem ord_neg (b : Bits) : ord (neg b) = ord b := by
  have hlow : (b ^^^ signMask).setWidth 31 = b.setWidth 31 := by
    rw [BitVec.setWidth_xor, setWidth_signMask, BitVec.xor_zero]
  rw [ord_eq_setWidth, ord_eq_setWidth]
  exact congrArg BitVec.toNat hlow

theorem sign_neg (b : Bits) : sign (neg b) = !sign b := by
  have hmsb : (b ^^^ signMask).msb = (b.msb ^^ true) := by rw [BitVec.msb_xor, msb_signMask]
  rw [Bool.xor_true] at hmsb
  exact hmsb

/-- The number without its sign. -/
def abs (b : Bits) : Bits := ~~~signMask &&& b

@[simp] theorem ord_abs (b : Bits) : ord (abs b) = ord b := by
  have hlow : (~~~signMask).setWidth 31 = BitVec.allOnes 31 := by decide
  rw [ord_eq_setWidth, ord_eq_setWidth, abs, BitVec.setWidth_and, hlow, BitVec.allOnes_and]

@[simp] theorem sign_abs (b : Bits) : sign (abs b) = false := by
  have hmsb : (~~~signMask).msb = false := by decide
  rw [sign, abs, BitVec.msb_and, hmsb, Bool.false_and]

/-- The number `m` with the sign of `b`. -/
def withSign (m b : Bits) : Bits := m ||| (b &&& signMask)

@[simp] theorem ord_withSign (m b : Bits) : ord (withSign m b) = ord m := by
  rw [ord_eq_setWidth, ord_eq_setWidth, withSign, BitVec.setWidth_or, BitVec.setWidth_and,
    setWidth_signMask, BitVec.and_zero, BitVec.or_zero]

theorem sign_withSign {m : Bits} (hm : sign m = false) (b : Bits) : sign (withSign m b) = sign b := by
  rw [sign] at hm
  rw [sign, withSign, BitVec.msb_or, BitVec.msb_and, msb_signMask, hm, Bool.and_true,
    Bool.false_or, sign]

theorem units_neg (b : Bits) : units (neg b) = -units b := by
  rw [units, units, magnitude, ord_neg, sign_neg, signed_not, magnitude]

/-! ### Comparing -/

/-- Finite numbers compare as their units do. -/
theorem lt_iff_units {a b : Bits} (ha : ord a < infinity) (hb : ord b < infinity) :
    lt a b = true ↔ units a < units b := by
  rw [lt, toIeee_of_lt ha, toIeee_of_lt hb]
  simp [Ieee.lt, Ieee.place]

/-- Numbers without a sign compare as their bits do. -/
theorem lt_iff_ord {a b : Bits} (ha : sign a = false) (hb : sign b = false)
    (hfinite : ord b < infinity) : lt a b = true ↔ ord a < ord b := by
  rcases Nat.lt_trichotomy (ord a) infinity with h | h | h
  · rw [lt_iff_units h hfinite, units, units, ha, hb, signed, signed, cond_false, cond_false,
      Int.ofNat_lt, magnitude, magnitude, value_lt_iff]
  · rw [lt, toIeee_of_eq h, toIeee_of_lt hfinite, ha]
    exact ⟨fun hlt => by simp [Ieee.lt, Ieee.place] at hlt, fun hlt => by omega⟩
  · rw [lt, toIeee_of_gt h, Ieee.nan_lt]
    refine ⟨fun hlt => ?_, fun hlt => by omega⟩
    cases hlt

theorem sub_of_finite {a b : Bits} (ha : ord a < infinity) (hb : ord b < infinity) :
    sub a b = add a (neg b) := by
  rw [sub, if_neg (by omega), if_neg (by omega)]

/-! ### Rounding to whole numbers -/

/-- The whole number a magnitude is rounded to, in units. -/
def toIntegral : Direction → Bool → ℕ → ℕ := toward whole

/-- The nearest whole number in the given direction; the sign stays. -/
def roundToIntegral (dir : Direction) (b : Bits) : Bits :=
  if infinity < ord b then quiet b
  else if ord b = infinity then b
  else ofFrac (sign b) (toIntegral dir (sign b) (magnitude b)) 1

theorem dvd_toIntegral (dir : Direction) (s : Bool) (n : ℕ) : whole ∣ toIntegral dir s n :=
  dvd_toward whole dir s n

theorem toIntegral_of_dvd {n : ℕ} (h : whole ∣ n) (dir : Direction) (s : Bool) :
    toIntegral dir s n = n :=
  toward_of_dvd h dir s

/-- From `2 ^ 23` on every number is whole. -/
theorem whole_dvd_of_le {n : ℕ} (h : Representable 24 n) (hn : 2 ^ 172 ≤ n) : whole ∣ n := by
  rw [whole]
  exact h.dvd (p := 24) (e := 148) hn

theorem toIntegral_le_of_lt {n : ℕ} (hn : n < 2 ^ 172) (dir : Direction) (s : Bool) :
    toIntegral dir s n ≤ 2 ^ 172 := by
  have hq : n / whole < 2 ^ 23 := by
    rw [Nat.div_lt_iff_lt_mul whole_pos, whole, ← pow_add]
    exact hn
  have hpow : 2 ^ 172 = 2 ^ 23 * whole := by rw [whole, ← pow_add]
  have hle : (n / whole + 1) * whole ≤ 2 ^ 23 * whole := Nat.mul_le_mul_right whole hq
  rw [Nat.succ_mul] at hle
  have hcases : toIntegral dir s n = n / whole * whole ∨
      n % whole ≠ 0 ∧ toIntegral dir s n = n / whole * whole + whole := toward_cases whole dir s n
  rcases hcases with h | ⟨-, h⟩ <;> omega

/-- **Rounding to a whole number is exact**: the result is a number of the format. -/
theorem representable_toIntegral {n : ℕ} (h : Representable 24 n) (dir : Direction) (s : Bool) :
    Representable 24 (toIntegral dir s n) := by
  rcases Nat.lt_or_ge n (2 ^ 172) with hn | hn
  · obtain ⟨k, hk⟩ := dvd_toIntegral dir s n
    have hle := toIntegral_le_of_lt hn dir s
    rw [hk, Nat.mul_comm] at hle ⊢
    have hpow : 2 ^ 172 = 2 ^ 23 * whole := by rw [whole, ← pow_add]
    rw [hpow] at hle
    have hkle : k ≤ 2 ^ 24 := (Nat.le_of_mul_le_mul_right hle whole_pos).trans (by decide)
    exact representable_mul (by decide) hkle
  · rw [toIntegral_of_dvd (whole_dvd_of_le h hn)]
    exact h

theorem value_wholeFrom : value 24 0x4B000000 = 2 ^ 172 := by decide +kernel

theorem toIntegral_lt_infinity {b : Bits} (h : ord b < infinity) (dir : Direction) (s : Bool) :
    toIntegral dir s (magnitude b) < value 24 infinity := by
  have hmag : magnitude b < value 24 infinity := (value_lt_iff 24).2 h
  rcases Nat.lt_or_ge (magnitude b) (2 ^ 172) with hn | hn
  · have hbound : 2 ^ 172 < value 24 infinity := by
      rw [← value_wholeFrom]
      exact (value_lt_iff 24).2 (by decide)
    exact (toIntegral_le_of_lt hn dir s).trans_lt hbound
  · rwa [toIntegral_of_dvd (whole_dvd_of_le (representable_magnitude b) hn)]

/-- The parts of a finite number rounded to a whole one. -/
theorem roundToIntegral_parts {b : Bits} (h : ord b < infinity) (dir : Direction) :
    ord (roundToIntegral dir b) < infinity ∧ sign (roundToIntegral dir b) = sign b ∧
      magnitude (roundToIntegral dir b) = toIntegral dir (sign b) (magnitude b) := by
  rw [roundToIntegral, if_neg (by omega), if_neg (by omega)]
  obtain ⟨hord, hmag⟩ := ofFrac_exact (sign b)
    (representable_toIntegral (representable_magnitude b) dir (sign b))
    (toIntegral_lt_infinity h dir (sign b))
  exact ⟨hord, sign_ofFrac _ _ _, hmag⟩

/-- **A finite number rounded to a whole one.** -/
theorem toIeee_roundToIntegral {b : Bits} (h : ord b < infinity) (dir : Direction) :
    toIeee (roundToIntegral dir b) =
      .finite (signed (sign b) (toIntegral dir (sign b) (magnitude b))) := by
  obtain ⟨hord, hsign, hmag⟩ := roundToIntegral_parts h dir
  rw [toIeee_of_lt hord, units, hsign, hmag]

/-- The other values stay what they are. -/
theorem toIeee_roundToIntegral_of_ge {b : Bits} (h : infinity ≤ ord b) (dir : Direction) :
    toIeee (roundToIntegral dir b) = toIeee b := by
  rw [roundToIntegral]
  split_ifs with hnan hinf
  · rw [toIeee_quiet hnan, toIeee_of_gt hnan]
  · rfl
  · omega

theorem le_ord_roundToIntegral {b : Bits} (h : infinity ≤ ord b) (dir : Direction) :
    infinity ≤ ord (roundToIntegral dir b) := by
  rw [roundToIntegral]
  split_ifs with hnan hinf
  · exact h.trans (ord_quiet b)
  · exact h
  · omega

/-! ### Conversion to and from integers -/

/-- What a conversion returns that has no result. -/
def indefiniteInt : BitVec 32 := 0x80000000

/-- An integer, when it fits. -/
def intOrIndefinite (z : ℤ) : BitVec 32 :=
  if -2 ^ 31 ≤ z ∧ z < 2 ^ 31 then BitVec.ofInt 32 z else indefiniteInt

/-- The conversion to an integer that rounds in the given direction. -/
def toInt32 (dir : Direction) (b : Bits) : BitVec 32 :=
  if infinity ≤ ord b then indefiniteInt
  else intOrIndefinite (signed (sign b) (toIntegral dir (sign b) (magnitude b) / whole))

/-- The number nearest to an integer. -/
def ofInt32 (x : BitVec 32) : Bits := ofFrac (x.toInt < 0) (x.toInt.natAbs * whole) 1

/-- Rounding to a whole number first makes no difference. -/
theorem toInt32_roundToIntegral (dir dir' : Direction) (b : Bits) :
    toInt32 dir' (roundToIntegral dir b) = toInt32 dir b := by
  unfold toInt32
  rcases Nat.lt_or_ge (ord b) infinity with h | h
  · obtain ⟨hord, hsign, hmag⟩ := roundToIntegral_parts h dir
    rw [if_neg (by omega), if_neg (by omega), hsign, hmag,
      toIntegral_of_dvd (dvd_toIntegral dir (sign b) (magnitude b))]
  · rw [if_pos h, if_pos (le_ord_roundToIntegral h dir)]

/-- The sign of a zero does not show in an integer. -/
theorem toInt32_positiveZero (dir : Direction) (b : Bits) :
    toInt32 dir (positiveZero b) = toInt32 dir b := by
  unfold positiveZero
  split_ifs with h
  · have hzero : ∀ c : Bits, ord c = 0 → toInt32 dir c = intOrIndefinite 0 := by
      intro c hc
      have hmag : magnitude c = 0 := by rw [magnitude, hc, value_zero]
      have hfinite : ¬ infinity ≤ ord c := by
        rw [hc]
        decide
      rw [toInt32, if_neg hfinite, hmag, toIntegral_of_dvd (dvd_zero whole), Nat.zero_div]
      cases sign c <;> rfl
    rw [hzero 0 (by decide), hzero b h]
  · rfl

theorem toInt32_of_ge {b : Bits} (h : infinity ≤ ord b) (dir : Direction) :
    toInt32 dir b = indefiniteInt := if_pos h

end Binary32
