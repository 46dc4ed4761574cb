import RoxyGlance.Numeric.FloatRounding

/-!
# Casting to the nearest integer

`lround_cast` rounds halves away from zero.  Vectors that are not kept in a register leave it to
`std::lround`; for the others `_lround` adds one half with the sign of the lane and truncates.  The
sum is rounded to single precision before it is truncated.

* `round_half_div`: what the truncated sum is;
* `lround_lane`, `lround_eq_stdLround_iff`: it is the nearest integer except for the number below
  one half and for the odd numbers from `2^23` to `2^24`, where it is one further from zero.
-/

namespace RoxyGlance.Numeric

open Sse Binary32 Rounding

/-- One half, in units of `2 ^ -149`. -/
def half : ℕ := 2 ^ 148

/-- `std::lround`, where its result is a `long`. -/
def stdLround (b : Bits) : Option ℤ :=
  if ord b < infinity then
    let z := signed (sign b) ((magnitude b + half) / whole)
    if -2 ^ 31 ≤ z ∧ z < 2 ^ 31 then some z else none
  else none

/-- `_lround` of a register. -/
def FloatStorage.lround (v : Reg) : Reg :=
  let signMask := andPs v (setPs1 0x80000000)
  let bias := orPs (setPs1 0x3F000000) signMask
  cvttpsEpi32 (addPs v bias)

/-! ### Rounding the sum -/

theorem half_add_half : half + half = whole := by decide +kernel

/-- The magnitudes whose sum with one half is rounded up to the next integer. -/
def RoundsTwice (n : ℕ) : Prop :=
  n = 2 ^ 148 - 2 ^ 124 ∨ (2 ^ 172 ≤ n ∧ n < 2 ^ 173 ∧ n / whole % 2 = 1)

instance (n : ℕ) : Decidable (RoundsTwice n) := by
  unfold RoundsTwice
  infer_instance

section Sum

variable {n : ℕ}

/-- Below one half the sum is below one, and reaches it only from the last number. -/
theorem round_half_below (hn : Representable 24 n) (h : n < 2 ^ 148) :
    round 24 (n + half) / whole = if n = 2 ^ 148 - 2 ^ 124 then 1 else 0 := by
  have hlt : round 24 (n + half) < 2 ^ 149 ↔ 2 * (n + half) + 2 ^ 125 < 2 * 2 ^ 149 :=
    round_lt_pow_iff (p := 24) (by decide) 149 (n + half)
  have hle : round 24 (n + half) ≤ 2 ^ 149 := round_le_pow (by
    rw [half]
    omega)
  by_cases hlast : n = 2 ^ 148 - 2 ^ 124
  · have hone : round 24 (n + half) = whole := by
      refine le_antisymm hle (not_lt.1 fun hcontra => ?_)
      have := hlt.1 hcontra
      rw [half] at this
      omega
    rw [if_pos hlast, hone, Nat.div_self whole_pos]
  · have hbelow : n + 2 ^ 124 < 2 ^ 148 := by
      by_contra hcontra
      -- the last binade below one half has the unit `2 ^ 124`
      have hdvd : 2 ^ 124 ∣ n := hn.dvd (p := 24) (e := 123) (by omega)
      obtain ⟨k, rfl⟩ := hdvd
      omega
    have hsmall : round 24 (n + half) < whole := hlt.2 (by
      rw [half]
      omega)
    rw [if_neg hlast, Nat.div_eq_of_lt hsmall]

/-- Up to `2^23` the sum may be rounded, but not past an integer. -/
theorem round_half_middle (hn : Representable 24 n) (hlow : 2 ^ 148 ≤ n) (hhigh : n < 2 ^ 172) :
    round 24 (n + half) / whole = (n + half) / whole := by
  obtain ⟨j, hj⟩ : ∃ j, n.size = 149 + j :=
    Nat.exists_eq_add_of_le (Nat.lt_size.2 hlow)
  have hj23 : j ≤ 23 := by
    have hsize : n.size ≤ 172 := Nat.size_le.2 hhigh
    omega
  have hbound : n < 2 ^ (149 + j) := Nat.size_le.1 hj.le
  have hunit : 2 ^ (125 + j) ∣ n := by
    have hshift : n.size - 24 = 125 + j := by omega
    rw [← hshift]
    exact hn
  have hhalf : 2 ^ (125 + j) ∣ half := pow_dvd_pow 2 (by omega)
  have hdvd : 2 ^ (125 + j) ∣ n + half := Nat.dvd_add hunit hhalf
  have hpow : 2 ^ (149 + j) = 2 ^ j * whole := by rw [whole, ← pow_add, Nat.add_comm]
  have hhalfle : half ≤ n := hlow
  rcases Nat.lt_or_ge (n + half) (2 ^ (149 + j)) with hsame | hcarry
  · -- no carry, so that the unit is still the same
    have hexact : Representable 24 (n + half) := by
      have hsize : (n + half).size ≤ 149 + j := Nat.size_le.2 hsame
      exact (pow_dvd_pow 2 (by omega)).trans hdvd
    rw [hexact.round_eq]
  · -- a carry, so that the sum is less than one half above a power of two
    have hlt : 149 + j < (n + half).size := Nat.lt_size.2 hcarry
    have hsize : (n + half).size = 150 + j := by
      refine le_antisymm (Nat.size_le.2 ?_) (by omega)
      have hdouble : 2 ^ (150 + j) = 2 * 2 ^ (149 + j) := by
        rw [← pow_succ']
        congr 1
        omega
      omega
    have herror := toMultiple_le (2 ^ ((n + half).size - 24)) (n + half)
    have hunitle : 2 ^ ((n + half).size - 24) ≤ whole :=
      Nat.pow_le_pow_right (by decide) (by omega)
    have hwhole := half_add_half
    have hfloor : (n + half) / whole = 2 ^ j :=
      Nat.div_eq_of_lt_le (by omega) (by rw [Nat.succ_mul]; omega)
    have hlower : 2 ^ (149 + j) ≤ round 24 (n + half) := pow_le_round (by decide) hcarry
    rw [hfloor]
    have hround : round 24 (n + half) = toMultiple (2 ^ ((n + half).size - 24)) (n + half) := rfl
    refine Nat.div_eq_of_lt_le (by omega) ?_
    rw [Nat.succ_mul]
    omega

/-- From `2^23` to `2^24` the sum is a tie. -/
theorem round_half_tie (hn : Representable 24 n) (hlow : 2 ^ 172 ≤ n) (hhigh : n < 2 ^ 173) :
    round 24 (n + half) / whole = (n + half) / whole + n / whole % 2 := by
  obtain ⟨k, hk⟩ := whole_dvd_of_le hn hlow
  have hwhole := half_add_half
  have hpos := whole_pos
  have hhalfpos : 0 < half := Nat.two_pow_pos 148
  have hpow : 2 ^ 173 = 2 ^ 24 * whole := by rw [whole, ← pow_add]
  have hkle : k + 1 ≤ 2 ^ 24 := by
    have hlt : k * whole < 2 ^ 24 * whole := by rwa [Nat.mul_comm, ← hk, ← hpow]
    exact Nat.lt_of_mul_lt_mul_right hlt
  have hnext : n + whole ≤ 2 ^ 173 := by
    have hle := Nat.mul_le_mul_right whole hkle
    rw [Nat.succ_mul, Nat.mul_comm, ← hk, ← hpow] at hle
    exact hle
  have hsize : (n + half).size = 173 :=
    le_antisymm (Nat.size_le.2 (by omega)) (Nat.lt_size.2 (by omega))
  have hround : round 24 (n + half) = toMultiple whole (n + half) := by
    rw [Rounding.round, hsize]
    rfl
  have hquot : (n + half) / whole = k := by
    refine Nat.div_eq_of_lt_le ?_ ?_
    · rw [Nat.mul_comm, ← hk]
      omega
    · rw [Nat.succ_mul, Nat.mul_comm, ← hk]
      omega
  have hrem : (n + half) % whole = half := by
    rw [hk, Nat.mul_add_mod, Nat.mod_eq_of_lt (by omega)]
  have hnk : n / whole = k := by rw [hk, Nat.mul_div_cancel_left _ hpos]
  rw [hround, hquot, hnk, toMultiple]
  simp only [hquot, hrem]
  rw [if_neg (by omega), if_pos (by omega), Nat.mul_div_cancel _ hpos]

/-- From `2^24` on the half is lost. -/
theorem round_half_above (hn : Representable 24 n) (hlow : 2 ^ 173 ≤ n) :
    round 24 (n + half) = n := by
  obtain ⟨j, hj⟩ : ∃ j, n.size = 174 + j := Nat.exists_eq_add_of_le (Nat.lt_size.2 hlow)
  have hunit : 2 ^ (150 + j) ∣ n := by
    have hshift : n.size - 24 = 150 + j := by omega
    rw [← hshift]
    exact hn
  obtain ⟨k, hk⟩ := hunit
  have hwhole := half_add_half
  have hhalfpos : 0 < half := Nat.two_pow_pos 148
  have hunitge : 2 * whole ≤ 2 ^ (150 + j) := by
    have hle : 2 ^ 150 ≤ 2 ^ (150 + j) := Nat.pow_le_pow_right (by decide) (Nat.le_add_right _ _)
    rwa [pow_succ'] at hle
  have hbound : n < 2 ^ (174 + j) := Nat.size_le.1 hj.le
  have hsplit : 2 ^ (174 + j) = 2 ^ 24 * 2 ^ (150 + j) := by
    rw [← pow_add]
    congr 1
    omega
  have hkle : k + 1 ≤ 2 ^ 24 := by
    have hlt : k * 2 ^ (150 + j) < 2 ^ 24 * 2 ^ (150 + j) := by rwa [Nat.mul_comm, ← hk, ← hsplit]
    exact Nat.lt_of_mul_lt_mul_right hlt
  have hnext : n + 2 ^ (150 + j) ≤ 2 ^ (174 + j) := by
    have hle := Nat.mul_le_mul_right (2 ^ (150 + j)) hkle
    rw [Nat.succ_mul, Nat.mul_comm, ← hk, ← hsplit] at hle
    exact hle
  have hsize : (n + half).size = 174 + j := by
    refine le_antisymm (Nat.size_le.2 (by omega)) ?_
    rw [← hj]
    exact Nat.size_le_size (Nat.le_add_right n half)
  have hshift : (n + half).size - 24 = 150 + j := by omega
  have hquot : (n + half) / 2 ^ (150 + j) = k := by
    refine Nat.div_eq_of_lt_le ?_ ?_
    · rw [Nat.mul_comm, ← hk]
      omega
    · rw [Nat.succ_mul, Nat.mul_comm, ← hk]
      omega
  have hrem : (n + half) % 2 ^ (150 + j) = half := by
    rw [hk, Nat.mul_add_mod, Nat.mod_eq_of_lt (by omega)]
  rw [Rounding.round, hshift, toMultiple]
  simp only [hquot, hrem]
  rw [if_pos (by omega), Nat.mul_comm, ← hk]

/-- **The truncated sum**: the nearest integer, or the next one. -/
theorem round_half_div (hn : Representable 24 n) :
    round 24 (n + half) / whole = (n + half) / whole + if RoundsTwice n then 1 else 0 := by
  have hwhole := half_add_half
  rcases Nat.lt_or_ge n (2 ^ 148) with h148 | h148
  · have hfloor : (n + half) / whole = 0 := Nat.div_eq_of_lt (by
      have hh : half = 2 ^ 148 := rfl
      omega)
    rw [round_half_below hn h148, hfloor, Nat.zero_add]
    refine if_congr ?_ rfl rfl
    refine ⟨Or.inl, fun h => h.resolve_right fun htie => ?_⟩
    have := htie.1
    omega
  · have hne : n ≠ 2 ^ 148 - 2 ^ 124 := by omega
    rcases Nat.lt_or_ge n (2 ^ 172) with h172 | h172
    · have hnot : ¬ RoundsTwice n := by
        rintro (h | ⟨h, -⟩)
        · exact hne h
        · omega
      rw [round_half_middle hn h148 h172, if_neg hnot, Nat.add_zero]
    rcases Nat.lt_or_ge n (2 ^ 173) with h173 | h173
    · rw [round_half_tie hn h172 h173]
      congr 1
      rcases Nat.mod_two_eq_zero_or_one (n / whole) with hpar | hpar
      · have hnot : ¬ RoundsTwice n := by
          rintro (h | ⟨-, -, h⟩)
          · exact hne h
          · omega
        rw [if_neg hnot, hpar]
      · have htie : RoundsTwice n := Or.inr ⟨h172, h173, hpar⟩
        rw [if_pos htie, hpar]
    · have hnot : ¬ RoundsTwice n := by
        rintro (h | ⟨-, h, -⟩)
        · exact hne h
        · omega
      obtain ⟨q, hq⟩ := whole_dvd_of_le hn h172
      have hhalfpos : 0 < half := Nat.two_pow_pos 148
      rw [round_half_above hn h173, if_neg hnot, Nat.add_zero, hq, Nat.mul_add_div whole_pos,
        Nat.mul_div_cancel_left _ whole_pos, Nat.div_eq_of_lt (by omega), Nat.add_zero]

end Sum

/-! ### The lanes -/

/-- The bits of one half. -/
def halfBits : Bits := 0x3F000000

theorem halfBits_parts :
    sign halfBits = false ∧ ord halfBits < infinity ∧ magnitude halfBits = half :=
  ⟨by decide, by decide, by decide +kernel⟩

/-- The numbers whose sum with one half is rounded up to the next integer: the one below one half,
and the odd ones from `2^23` to `2^24`. -/
def DoublyRounded (b : Bits) : Prop :=
  ord b = 0x3EFFFFFF ∨ (0x4B000000 ≤ ord b ∧ ord b < 0x4B800000 ∧ ord b % 2 = 1)

instance (b : Bits) : Decidable (DoublyRounded b) := by
  unfold DoublyRounded
  infer_instance

theorem value_double : value 24 0x4B800000 = 2 ^ 173 := by decide +kernel

theorem value_belowHalf : value 24 0x3EFFFFFF = 2 ^ 148 - 2 ^ 124 := by decide +kernel

/-- From `2^23` to `2^24` the bits count whole numbers. -/
theorem value_div_whole {k : ℕ} (hlow : 0x4B000000 ≤ k) (hhigh : k < 0x4B800000) :
    value 24 k / whole % 2 = k % 2 := by
  obtain ⟨m, rfl⟩ := Nat.exists_eq_add_of_le hlow
  have hm : m < 2 ^ 23 := by omega
  have hvalue : value 24 (0x4B000000 + m) = (2 ^ 23 + m) * whole := by
    have hquot : (0x4B000000 + m) / 2 ^ (24 - 1) = 150 := by omega
    have hlead : 0x4B000000 + m - (150 - 1) * 2 ^ (24 - 1) = 2 ^ 23 + m := by omega
    rw [value, hquot, hlead]
    rfl
  rw [hvalue, Nat.mul_div_cancel _ whole_pos]
  omega

theorem roundsTwice_magnitude (b : Bits) : RoundsTwice (magnitude b) ↔ DoublyRounded b := by
  have hinj : value 24 (ord b) = value 24 0x3EFFFFFF ↔ ord b = 0x3EFFFFFF :=
    ⟨fun h => le_antisymm ((value_le_iff 24).1 h.le) ((value_le_iff 24).1 h.ge),
      fun h => by rw [h]⟩
  have hlow : 2 ^ 172 ≤ value 24 (ord b) ↔ 0x4B000000 ≤ ord b := by
    rw [← value_wholeFrom, value_le_iff]
  have hhigh : value 24 (ord b) < 2 ^ 173 ↔ ord b < 0x4B800000 := by
    rw [← value_double, value_lt_iff]
  rw [RoundsTwice, DoublyRounded, magnitude, ← value_belowHalf, hinj, hlow, hhigh]
  refine or_congr_right (and_congr_right fun hl => and_congr_right fun hh => ?_)
  rw [value_div_whole hl hh]

theorem lround_apply (v : Reg) (i : Fin 4) :
    FloatStorage.lround v i = toInt32 .zero (add (v i) (withSign halfBits (v i))) := rfl

theorem toIntegral_zero_div (s : Bool) (n : ℕ) : toIntegral .zero s n / whole = n / whole :=
  Nat.mul_div_cancel _ whole_pos

section Lane

variable {x : Bits}

/-- The sum has the sign of the number. -/
theorem add_half_parts (hx : ord x < infinity)
    (h : round 24 (magnitude x + half) < value 24 infinity) :
    ord (add x (withSign halfBits x)) < infinity ∧ sign (add x (withSign halfBits x)) = sign x ∧
      magnitude (add x (withSign halfBits x)) = round 24 (magnitude x + half) := by
  obtain ⟨hsign, hord, hmag⟩ := halfBits_parts
  have hs : sign (withSign halfBits x) = sign x := sign_withSign hsign x
  have hb : ord (withSign halfBits x) < infinity := by rwa [ord_withSign]
  have hsum : units x + units (withSign halfBits x) = signed (sign x) (magnitude x + half) := by
    rw [units, units, hs, magnitude, magnitude, ord_withSign, ← magnitude, ← magnitude, hmag,
      signed_add]
  have hpos : magnitude x + half ≠ 0 := (Nat.add_pos_right _ (Nat.two_pow_pos 148)).ne'
  have hne : signed (sign x) (magnitude x + half) ≠ 0 := fun hz => by
    have habs := natAbs_signed (sign x) (magnitude x + half)
    rw [hz] at habs
    exact hpos habs.symm
  have hadd : add x (withSign halfBits x) = ofFrac (sign x) (magnitude x + half) 1 := by
    rw [add_of_finite hx hb, hsum, if_neg hne, natAbs_signed, signed_lt_zero hpos]
  obtain ⟨hofOrd, hofMag⟩ := ord_ofFrac (sign x) one_pos (by rwa [roundDiv_one])
  rw [hadd]
  exact ⟨hofOrd, sign_ofFrac _ _ _, by rw [hofMag, roundDiv_one]⟩

/-- The sum is no infinity. -/
theorem round_half_lt (hx : ord x < infinity) :
    round 24 (magnitude x + half) < value 24 infinity := by
  rcases Nat.lt_or_ge (magnitude x) (2 ^ 173) with h173 | h173
  · have hsum : magnitude x + half < 2 ^ 174 := by
      have hh : half = 2 ^ 148 := rfl
      omega
    have hbound : 2 ^ 174 < value 24 infinity := by
      have hvalue : value 24 0x4C000000 = 2 ^ 174 := by decide +kernel
      rw [← hvalue]
      exact (value_lt_iff 24).2 (by decide)
    exact (round_le_pow hsum).trans_lt hbound
  · rw [round_half_above (representable_magnitude x) h173]
    exact (value_lt_iff 24).2 hx

/-- **Any lane**: the nearest integer, or the next one, when it fits. -/
theorem toInt32_add_half (hx : ord x < infinity) :
    toInt32 .zero (add x (withSign halfBits x)) = intOrIndefinite
      (signed (sign x) ((magnitude x + half) / whole + if DoublyRounded x then 1 else 0)) := by
  obtain ⟨hord, hsign, hmag⟩ := add_half_parts hx (round_half_lt hx)
  rw [toInt32, if_neg (by omega), hsign, hmag, toIntegral_zero_div,
    round_half_div (representable_magnitude x)]
  simp only [roundsTwice_magnitude]

/-- What is rounded up wrongly is well inside the range. -/
theorem small_of_doublyRounded (h : DoublyRounded x) :
    (magnitude x + half) / whole < 2 ^ 24 + 1 := by
  have hmag : magnitude x < 2 ^ 173 := by
    rw [← value_double]
    refine (value_lt_iff 24).2 ?_
    rcases h with h | ⟨-, h, -⟩ <;> omega
  have hpow : (2 ^ 24 + 1) * whole = 2 ^ 173 + whole := by rw [Nat.succ_mul, whole, ← pow_add]
  have hwhole := half_add_half
  rw [Nat.div_lt_iff_lt_mul whole_pos, hpow]
  omega

end Lane

/-- The integer that `_lround` takes for the nearest one. -/
def lroundOf (b : Bits) (z : ℤ) : ℤ := if DoublyRounded b then z + signed (sign b) 1 else z

theorem signed_range {s : Bool} {n : ℕ} (h : n ≤ 2 ^ 24 + 1) :
    -2 ^ 31 ≤ signed s n ∧ signed s n < 2 ^ 31 := by
  cases s <;> simp only [signed, cond_true, cond_false] <;> omega

theorem ofInt_ne_succ {z : ℤ} (s : Bool) : BitVec.ofInt 32 (z + signed s 1) ≠ BitVec.ofInt 32 z := by
  intro h
  have hint := congrArg BitVec.toInt h
  rw [BitVec.toInt_ofInt, BitVec.toInt_ofInt, Int.bmod_eq_bmod_iff_bmod_sub_eq_zero] at hint
  cases s <;> simp [signed] at hint

/-- A lane whose number is finite. -/
theorem lround_finite {b : Bits} (hb : ord b < infinity) :
    toInt32 .zero (add b (withSign halfBits b)) =
      intOrIndefinite (lroundOf b (signed (sign b) ((magnitude b + half) / whole))) := by
  rw [toInt32_add_half hb, signed_add, lroundOf]
  split_ifs with h
  · rfl
  · have hzero : signed (sign b) 0 = 0 := by cases sign b <;> rfl
    rw [hzero, add_zero]

/-- An infinity or a NaN stays one. -/
theorem add_half_of_ge {b : Bits} (hb : infinity ≤ ord b) :
    infinity ≤ ord (add b (withSign halfBits b)) := by
  obtain ⟨-, hord, -⟩ := halfBits_parts
  have hsmall : ord (withSign halfBits b) < infinity := by rwa [ord_withSign]
  rw [add]
  split_ifs with h1 h2 h3 h4
  · exact hb.trans (ord_quiet b)
  · omega
  · omega
  · omega
  · omega
  · omega

/-- **`_lround` of a lane**: the nearest integer with halves away from zero, except that the number
below one half and the odd numbers from `2^23` to `2^24` come out one further from zero.  Where
`std::lround` has no result it is the indefinite integer. -/
theorem lround_lane (b : Bits) : toInt32 .zero (add b (withSign halfBits b)) =
    ((stdLround b).map fun z => BitVec.ofInt 32 (lroundOf b z)).getD indefiniteInt := by
  rcases Nat.lt_or_ge (ord b) infinity with hb | hb
  · rw [lround_finite hb, stdLround, if_pos hb]
    by_cases h : DoublyRounded b
    · -- such a number is small, and so is its neighbour
      have hsmall := small_of_doublyRounded h
      have hrange := signed_range (s := sign b) (n := (magnitude b + half) / whole) (by omega)
      have hnext := signed_range (s := sign b) (n := (magnitude b + half) / whole + 1) (by omega)
      rw [signed_add] at hnext
      rw [lroundOf, if_pos h, intOrIndefinite, if_pos hnext, if_pos hrange, Option.map_some,
        Option.getD_some, lroundOf, if_pos h]
    · rw [lroundOf, if_neg h]
      by_cases hrange : -2 ^ 31 ≤ signed (sign b) ((magnitude b + half) / whole) ∧
          signed (sign b) ((magnitude b + half) / whole) < 2 ^ 31
      · rw [intOrIndefinite, if_pos hrange, if_pos hrange, Option.map_some, Option.getD_some,
          lroundOf, if_neg h]
      · rw [intOrIndefinite, if_neg hrange, if_neg hrange]
        rfl
  · rw [toInt32_of_ge (add_half_of_ge hb), stdLround, if_neg (by omega)]
    rfl

/-- **Where `lround_cast` of a register agrees with `std::lround`**: on every lane that has a
result, unless the sum with one half is rounded up to the next integer; there the result is one
further from zero. -/
theorem lround_eq_stdLround_iff (v : Reg) (i : Fin 4) {z : ℤ} (hz : stdLround (v i) = some z) :
    (FloatStorage.lround v i = BitVec.ofInt 32 z ↔ ¬ DoublyRounded (v i)) ∧
      (DoublyRounded (v i) →
        FloatStorage.lround v i = BitVec.ofInt 32 (z + signed (sign (v i)) 1)) := by
  have hlane : FloatStorage.lround v i = BitVec.ofInt 32 (lroundOf (v i) z) := by
    rw [lround_apply, lround_lane, hz]
    rfl
  rw [hlane, lroundOf]
  split_ifs with h
  · exact ⟨⟨fun heq => absurd heq (ofInt_ne_succ _), fun hnot => absurd h hnot⟩, fun _ => rfl⟩
  · exact ⟨⟨fun _ => h, fun _ => rfl⟩, fun hyes => absurd hyes h⟩

/-- The number below one half. -/
theorem lround_below_half :
    (FloatStorage.lround (setPs1 0x3EFFFFFF) 0 = BitVec.ofInt 32 0 ↔
        ¬ DoublyRounded (setPs1 0x3EFFFFFF 0)) ∧
      (DoublyRounded (setPs1 0x3EFFFFFF 0) → FloatStorage.lround (setPs1 0x3EFFFFFF) 0 =
        BitVec.ofInt 32 (0 + signed (sign (setPs1 0x3EFFFFFF 0)) 1)) :=
  lround_eq_stdLround_iff (setPs1 0x3EFFFFFF) 0 (by decide +kernel)

end RoxyGlance.Numeric
