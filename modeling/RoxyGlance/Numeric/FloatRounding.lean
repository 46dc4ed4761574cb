import RoxyGlance.Lib.SseFloat
import RoxyGlance.Numeric.Padding

/-!
# Rounding vectors of floats

`ceil`, `floor`, `rint` and `trunc` are single instructions with SSE4.1.  Without it they start from
`_numeric128_rint_ps`, which adds and subtracts `2^23` so that the addition rounds, and correct the
result by one where it went the wrong way.

* `numeric128RintPs_eq`: the trick rounds to nearest, ties to even;
* `rounding_eq`: both versions of all four give the number IEEE 754 asks for, for all bit patterns,
  and differ at most in the sign of a zero.
-/

namespace RoxyGlance.Numeric

open Sse Binary32 Rounding

namespace FloatStorage

variable (features : Features)

/-- `_numeric128_rint_ps` -/
def numeric128RintPs (v : Reg) : Reg :=
  let magic := setPs1 0x4B000000  -- 2^23
  let signedMagic := orPs magic (andPs v (setPs1 0x80000000))
  let mask := cmpltPs (andnotPs (setPs1 0x80000000) v) magic
  let rounded := subPs (addPs v signedMagic) signedMagic
  orPs (andPs mask rounded) (andnotPs mask v)

/-- `ceil` -/
def ceil (v : Reg) : Reg :=
  if features.sse4_1 then ceilPs v
  else
    let rintVal := numeric128RintPs v
    let mask := cmpltPs rintVal v
    let adjustment := andPs mask (setPs1 0x3F800000)
    addPs rintVal adjustment  -- +1 if (rint < v)

/-- `floor` -/
def floor (v : Reg) : Reg :=
  if features.sse4_1 then floorPs v
  else
    let rintVal := numeric128RintPs v
    let mask := cmpgtPs rintVal v
    let adjustment := andPs mask (setPs1 0x3F800000)
    subPs rintVal adjustment  -- -1 if (rint > v)

/-- `rint` -/
def rint (v : Reg) : Reg :=
  if features.sse4_1 then roundPs .nearest v else numeric128RintPs v

/-- `trunc` -/
def trunc (v : Reg) : Reg :=
  if features.sse4_1 then roundPs .zero v
  else
    let rintVal := numeric128RintPs v
    let absVal := andnotPs (setPs1 0x80000000) v
    let absRint := andnotPs (setPs1 0x80000000) rintVal
    let mask := cmpgtPs absRint absVal
    let sign := andPs v (setPs1 0x80000000)
    let unit := orPs (setPs1 0x3F800000) sign
    let adjustment := andPs mask unit
    subPs rintVal adjustment  -- ±1 if (|rint| > |v|)

/-! ### Adding and subtracting `2^23` -/

/-- The bits of `2^23`. -/
def magic : Bits := 0x4B000000

/-- The bits of one. -/
def oneBits : Bits := 0x3F800000

theorem magic_parts : sign magic = false ∧ ord magic < infinity ∧ magnitude magic = 2 ^ 172 :=
  ⟨by decide, by decide, value_wholeFrom⟩

theorem oneBits_parts : sign oneBits = false ∧ ord oneBits < infinity ∧ magnitude oneBits = whole :=
  ⟨by decide, by decide, by decide +kernel⟩

theorem numeric128RintPs_apply (v : Reg) (i : Fin 4) : numeric128RintPs v i =
    if lt (abs (v i)) magic then sub (add (v i) (withSign magic (v i))) (withSign magic (v i))
    else v i :=
  select_mask _ _ _

theorem pow_lt_infinity : 2 * 2 ^ 172 < value 24 infinity := by
  have hdouble : value 24 0x4B800000 = 2 * 2 ^ 172 := by decide +kernel
  rw [← hdouble]
  exact (value_lt_iff 24).2 (by decide)

/-- The addition leaves whole numbers. -/
theorem round_add_magic {n : ℕ} (hn : n < 2 ^ 172) :
    round 24 (2 ^ 172 + n) = 2 ^ 172 + toMultiple whole n := by
  have hsize : (2 ^ 172 + n).size = 173 :=
    le_antisymm (Nat.size_le.2 (by omega)) (Nat.lt_size.2 (Nat.le_add_right _ _))
  have hunits : 2 ^ 172 = 2 * 2 ^ 22 * whole := by decide +kernel
  have hone : 2 ^ (173 - 24) = whole := rfl
  rw [Rounding.round, hsize, hone]
  conv_lhs => rw [hunits]
  rw [toMultiple_add whole_pos, ← hunits]

section Small

variable {x : Bits}

theorem magnitude_lt_of_small (h : ord x < ord magic) : magnitude x < 2 ^ 172 := by
  rw [← value_wholeFrom]
  exact (value_lt_iff 24).2 h

/-- `2^23` with the sign of a number. -/
theorem withSign_magic_parts (x : Bits) : ord (withSign magic x) < infinity ∧
    sign (withSign magic x) = sign x ∧ units (withSign magic x) = signed (sign x) (2 ^ 172) := by
  obtain ⟨hsign, hord, hmag⟩ := magic_parts
  have hs : sign (withSign magic x) = sign x := sign_withSign hsign x
  refine ⟨by rwa [ord_withSign], hs, ?_⟩
  rw [units, hs, magnitude, ord_withSign, ← magnitude, hmag]

/-- What the addition gives. -/
theorem add_magic_parts (h : ord x < ord magic) :
    ord (add x (withSign magic x)) < infinity ∧ sign (add x (withSign magic x)) = sign x ∧
      units (add x (withSign magic x)) =
        signed (sign x) (2 ^ 172 + toMultiple whole (magnitude x)) := by
  obtain ⟨hmord, hmsign, hmunits⟩ := withSign_magic_parts x
  have hsmall := magnitude_lt_of_small h
  have hx : ord x < infinity := h.trans (by decide)
  have hsum : units x + units (withSign magic x) = signed (sign x) (2 ^ 172 + magnitude x) := by
    rw [hmunits, signed_add, add_comm, units]
  have hnat : (units x + units (withSign magic x)).natAbs = 2 ^ 172 + magnitude x := by
    rw [hsum, natAbs_signed]
  have hneg : decide (units x + units (withSign magic x) < 0) = sign x := by
    rw [hsum]
    exact signed_lt_zero (by omega)
  have hmult : toMultiple whole (magnitude x) ≤ 2 ^ 172 := toIntegral_le_of_lt hsmall .nearest false
  have hround : round 24 (units x + units (withSign magic x)).natAbs =
      2 ^ 172 + toMultiple whole (magnitude x) := by rw [hnat, round_add_magic hsmall]
  have hbound : round 24 (units x + units (withSign magic x)).natAbs < value 24 infinity := by
    rw [hround]
    exact lt_of_le_of_lt (by omega) pow_lt_infinity
  have hieee := toIeee_add_rounded hx hmord hbound
  rw [hround, hneg] at hieee
  obtain ⟨hord, hunits⟩ := toIeee_eq_finite_iff.1 hieee
  refine ⟨hord, ?_, hunits⟩
  have hne : units x + units (withSign magic x) ≠ 0 := fun hz => by
    rw [hz, Int.natAbs_zero] at hnat
    omega
  rw [add_of_finite hx hmord, if_neg hne, sign_ofFrac, hneg]

/-- What is left after the subtraction. -/
theorem rint_small (h : ord x < ord magic) :
    sub (add x (withSign magic x)) (withSign magic x) =
      positiveZero (roundToIntegral .nearest x) := by
  obtain ⟨hmord, hmsign, hmunits⟩ := withSign_magic_parts x
  obtain ⟨hord, hsign, hunits⟩ := add_magic_parts h
  have hx : ord x < infinity := h.trans (by decide)
  rw [sub_of_finite hord hmord, roundToIntegral, if_neg (by omega), if_neg (by omega)]
  apply add_eq_positiveZero hord
  · rwa [ord_neg]
  · have hnearest : toIntegral .nearest (sign x) (magnitude x) = toMultiple whole (magnitude x) :=
      rfl
    rw [units_neg, hunits, hmunits, signed_add, hnearest]
    omega
  · exact representable_toIntegral (representable_magnitude x) .nearest (sign x)
  · exact toIntegral_lt_infinity hx .nearest (sign x)
  · intro _
    rw [hsign, sign_neg, hmsign]
    exact Bool.and_not_self _

end Small

/-- Numbers from `2^23` on, and the infinities, are whole already. -/
theorem roundToIntegral_large {x : Bits} (h : ord magic ≤ ord x) (hnan : ord x ≤ infinity)
    (dir : Direction) : positiveZero (roundToIntegral dir x) = x := by
  have hne : ord x ≠ 0 := by
    have hmagic : ord magic = 0x4B000000 := by decide
    omega
  have hself : roundToIntegral dir x = x := by
    rw [roundToIntegral, if_neg (by omega)]
    split_ifs with hinf
    · rfl
    · have hbig : 2 ^ 172 ≤ magnitude x := by
        rw [← value_wholeFrom]
        exact (value_le_iff 24).2 h
      rw [toIntegral_of_dvd (whole_dvd_of_le (representable_magnitude x) hbig)]
      exact ofFrac_magnitude (by omega)
  rw [hself, positiveZero, if_neg hne]

/-- **The trick rounds to nearest**, ties to even; a zero it leaves is positive. -/
theorem numeric128RintPs_eq (v : Reg) (i : Fin 4) (hnan : ord (v i) ≤ infinity) :
    numeric128RintPs v i = positiveZero (roundToIntegral .nearest (v i)) := by
  have hsmall : lt (abs (v i)) magic = true ↔ ord (v i) < ord magic := by
    rw [lt_iff_ord (sign_abs _) magic_parts.1 magic_parts.2.1, ord_abs]
  rw [numeric128RintPs_apply]
  by_cases h : ord (v i) < ord magic
  · rw [if_pos (hsmall.2 h), rint_small h]
  · rw [if_neg (fun hlt => h (hsmall.1 hlt)), roundToIntegral_large (not_lt.1 h) hnan]

/-- A NaN is passed on. -/
theorem numeric128RintPs_nan (v : Reg) (i : Fin 4) (hnan : infinity < ord (v i)) :
    numeric128RintPs v i = v i := by
  have hsmall : ¬ lt (abs (v i)) magic = true := by
    rw [lt_iff_ord (sign_abs _) magic_parts.1 magic_parts.2.1, ord_abs]
    have hmagic : ord magic < infinity := by decide
    omega
  rw [numeric128RintPs_apply, if_neg hsmall]

/-! ### Correcting the result -/

theorem ceil_apply (h : features.sse4_1 = false) (v : Reg) (i : Fin 4) : ceil features v i =
    add (numeric128RintPs v i) (if lt (numeric128RintPs v i) (v i) then oneBits else 0) := by
  simp only [ceil, h, Bool.false_eq_true, if_false]
  exact congrArg (add _) (mask_and _ _)

theorem floor_apply (h : features.sse4_1 = false) (v : Reg) (i : Fin 4) : floor features v i =
    sub (numeric128RintPs v i) (if lt (v i) (numeric128RintPs v i) then oneBits else 0) := by
  simp only [floor, h, Bool.false_eq_true, if_false]
  exact congrArg (sub _) (mask_and _ _)

theorem trunc_apply (h : features.sse4_1 = false) (v : Reg) (i : Fin 4) : trunc features v i =
    sub (numeric128RintPs v i)
      (if lt (abs (v i)) (abs (numeric128RintPs v i)) then withSign oneBits (v i) else 0) := by
  simp only [trunc, h, Bool.false_eq_true, if_false]
  exact congrArg (sub _) (mask_and _ _)

/-- What a finite lane holds after the trick. -/
structure NearestParts (x r : Bits) : Prop where
  finite : ord r < infinity
  units_eq : units r = signed (sign x) (toMultiple whole (magnitude x))
  sign_of_zero : units r = 0 → sign r = false

theorem nearestParts {v : Reg} {i : Fin 4} (h : ord (v i) < infinity) :
    NearestParts (v i) (numeric128RintPs v i) := by
  obtain ⟨hord, hsign, hmag⟩ := roundToIntegral_parts h .nearest
  rw [numeric128RintPs_eq v i h.le]
  refine ⟨by rwa [ord_positiveZero], ?_, fun hzero => ?_⟩
  · rw [units_positiveZero, units, hsign, hmag]
    rfl
  · rw [units_positiveZero] at hzero
    exact sign_positiveZero_of_units hzero

/-- The bits of a correct result. -/
theorem roundToIntegral_of_finite {x : Bits} (h : ord x < infinity) (dir : Direction) :
    roundToIntegral dir x = ofFrac (sign x) (toIntegral dir (sign x) (magnitude x)) 1 := by
  rw [roundToIntegral, if_neg (by omega), if_neg (by omega)]

section Correction

variable {x r c : Bits}

/-- A correction that is added. -/
theorem add_correction (hx : ord x < infinity) (hr : ord r < infinity) (hc : ord c < infinity)
    (hsign : sign c = false) {dir : Direction}
    (hsum : units r + units c = signed (sign x) (toIntegral dir (sign x) (magnitude x))) :
    add r c = positiveZero (roundToIntegral dir x) := by
  rw [roundToIntegral_of_finite hx]
  apply add_eq_positiveZero hr hc hsum
  · exact representable_toIntegral (representable_magnitude x) dir (sign x)
  · exact toIntegral_lt_infinity hx dir (sign x)
  · intro _
    rw [hsign, Bool.and_false]

/-- A correction that is subtracted, when a zero it leaves comes from equal signs. -/
theorem sub_correction (hx : ord x < infinity) (hr : ord r < infinity) (hc : ord c < infinity)
    (hzero : units r = units c → (sign r && !sign c) = false) {dir : Direction}
    (hsum : units r - units c = signed (sign x) (toIntegral dir (sign x) (magnitude x))) :
    sub r c = positiveZero (roundToIntegral dir x) := by
  rw [roundToIntegral_of_finite hx, sub_of_finite hr hc]
  apply add_eq_positiveZero hr
  · rwa [ord_neg]
  · rw [units_neg, ← hsum, Int.sub_eq_add_neg]
  · exact representable_toIntegral (representable_magnitude x) dir (sign x)
  · exact toIntegral_lt_infinity hx dir (sign x)
  · intro hnone
    rw [sign_neg]
    apply hzero
    have hz : signed (sign x) 0 = 0 := by cases sign x <;> rfl
    rw [hnone, hz] at hsum
    omega

end Correction

theorem zero_parts : sign 0 = false ∧ ord 0 < infinity ∧ units 0 = 0 :=
  ⟨by decide, by decide, by decide⟩

theorem units_oneBits : units oneBits = whole := by
  rw [units, oneBits_parts.1, oneBits_parts.2.2]
  rfl

variable {features}

theorem ceil_finite (hsse : features.sse4_1 = false) {v : Reg} {i : Fin 4}
    (h : ord (v i) < infinity) :
    ceil features v i = positiveZero (roundToIntegral .up (v i)) := by
  obtain ⟨hr, hunits, -⟩ := nearestParts h
  have hlt := lt_iff_units hr h
  have hcorrect := correct_up (sign (v i)) (magnitude (v i)) whole_pos
  rw [← hunits, ← units] at hcorrect
  rw [ceil_apply features hsse]
  split_ifs with hmask
  · rw [if_pos (hlt.1 hmask)] at hcorrect
    exact add_correction h hr oneBits_parts.2.1 oneBits_parts.1 (by rwa [units_oneBits])
  · rw [if_neg (fun hu => hmask (hlt.2 hu))] at hcorrect
    exact add_correction h hr zero_parts.2.1 zero_parts.1 (by rwa [zero_parts.2.2])

theorem floor_finite (hsse : features.sse4_1 = false) {v : Reg} {i : Fin 4}
    (h : ord (v i) < infinity) :
    floor features v i = positiveZero (roundToIntegral .down (v i)) := by
  obtain ⟨hr, hunits, hzero⟩ := nearestParts h
  have hlt := lt_iff_units h hr
  have hcorrect := correct_down (sign (v i)) (magnitude (v i)) whole_pos
  rw [← hunits, ← units] at hcorrect
  rw [floor_apply features hsse]
  split_ifs with hmask
  · rw [if_pos (hlt.1 hmask)] at hcorrect
    refine sub_correction h hr oneBits_parts.2.1 (fun heq => ?_) (by rwa [units_oneBits])
    rw [units_oneBits] at heq
    have hpos := whole_pos
    rw [sign_of_units_pos (by omega), Bool.false_and]
  · rw [if_neg (fun hu => hmask (hlt.2 hu))] at hcorrect
    refine sub_correction h hr zero_parts.2.1 (fun heq => ?_) (by rwa [zero_parts.2.2])
    rw [hzero (heq.trans zero_parts.2.2), Bool.false_and]

theorem trunc_finite (hsse : features.sse4_1 = false) {v : Reg} {i : Fin 4}
    (h : ord (v i) < infinity) :
    trunc features v i = positiveZero (roundToIntegral .zero (v i)) := by
  obtain ⟨hr, hunits, hzero⟩ := nearestParts h
  have hmag : magnitude (numeric128RintPs v i) = toMultiple whole (magnitude (v i)) := by
    have hnat := congrArg Int.natAbs hunits
    rwa [natAbs_signed, units, natAbs_signed] at hnat
  have hlt : lt (abs (v i)) (abs (numeric128RintPs v i)) = true ↔
      magnitude (v i) < toMultiple whole (magnitude (v i)) := by
    rw [lt_iff_ord (sign_abs _) (sign_abs _) (by rwa [ord_abs]), ord_abs, ord_abs, ← hmag,
      magnitude, magnitude, value_lt_iff]
  have hcorrect := correct_zero (sign (v i)) (magnitude (v i)) whole_pos
  rw [← hunits] at hcorrect
  rw [trunc_apply features hsse]
  have hunit : units (withSign oneBits (v i)) = signed (sign (v i)) whole := by
    rw [units, sign_withSign oneBits_parts.1, magnitude, ord_withSign, ← magnitude,
      oneBits_parts.2.2]
  split_ifs with hmask
  · rw [if_pos (hlt.1 hmask)] at hcorrect
    refine sub_correction h hr (by rw [ord_withSign]; exact oneBits_parts.2.1) (fun heq => ?_)
      (by rwa [hunit])
    -- what is subtracted has the sign of the lane, and so has what it is subtracted from
    rw [sign_withSign oneBits_parts.1]
    cases hs : sign (v i)
    · rw [hunit, hs] at heq
      have hpos := whole_pos
      rw [sign_of_units_pos (by rw [heq, signed, cond_false]; omega), Bool.false_and]
    · rw [Bool.not_true, Bool.and_false]
  · rw [if_neg (fun hu => hmask (hlt.2 hu))] at hcorrect
    refine sub_correction h hr zero_parts.2.1 (fun heq => ?_) (by rwa [zero_parts.2.2])
    rw [hzero (heq.trans zero_parts.2.2), Bool.false_and]

/-! ### Conversion to integers -/

variable (features)

/-- `_lceil` -/
def lceil (v : Reg) : Reg :=
  if features.sse4_1 then cvttpsEpi32 (ceilPs v) else cvtpsEpi32 .up v

/-- `_lfloor` -/
def lfloor (v : Reg) : Reg :=
  if features.sse4_1 then cvttpsEpi32 (floorPs v) else cvtpsEpi32 .down v

/-- `_lrint` -/
def lrint (v : Reg) : Reg :=
  if features.sse4_1 then cvttpsEpi32 (roundPs .nearest v) else cvtpsEpi32 .nearest v

/-- `_ltrunc` -/
def ltrunc (v : Reg) : Reg := cvttpsEpi32 v

end FloatStorage

/-! ### All four operations -/

/-- The ways a vector of floats is rounded. -/
inductive RoundingOp
  | ceil
  | floor
  | rint
  | trunc
  deriving DecidableEq, Repr

namespace RoundingOp

/-- The direction that is meant. -/
def direction : RoundingOp → Direction
  | ceil => .up
  | floor => .down
  | rint => .nearest
  | trunc => .zero

/-- The operation on vectors of floats. -/
def apply (features : Features) : RoundingOp → Reg → Reg
  | ceil => FloatStorage.ceil features
  | floor => FloatStorage.floor features
  | rint => FloatStorage.rint features
  | trunc => FloatStorage.trunc features

/-- The conversion to a vector of integers. -/
def cast (features : Features) : RoundingOp → Reg → Reg
  | ceil => FloatStorage.lceil features
  | floor => FloatStorage.lfloor features
  | rint => FloatStorage.lrint features
  | trunc => FloatStorage.ltrunc

theorem apply_sse4_1 {features : Features} (h : features.sse4_1 = true) (op : RoundingOp) :
    op.apply features = roundPs op.direction := by
  funext v
  cases op <;> simp only [apply, FloatStorage.ceil, FloatStorage.floor, FloatStorage.rint,
    FloatStorage.trunc, h, if_true] <;> rfl

/-- Without SSE4.1, a finite lane is rounded as it should be. -/
theorem apply_finite {features : Features} (h : features.sse4_1 = false) (op : RoundingOp) {v : Reg}
    {i : Fin 4} (hfinite : ord (v i) < infinity) :
    op.apply features v i = positiveZero (roundToIntegral op.direction (v i)) := by
  cases op with
  | ceil => exact FloatStorage.ceil_finite h hfinite
  | floor => exact FloatStorage.floor_finite h hfinite
  | trunc => exact FloatStorage.trunc_finite h hfinite
  | rint =>
    simp only [apply, FloatStorage.rint, h, Bool.false_eq_true, if_false]
    exact FloatStorage.numeric128RintPs_eq v i hfinite.le

/-- The correction of an infinity or a NaN is zero. -/
theorem apply_of_self {features : Features} (h : features.sse4_1 = false) (op : RoundingOp) {v : Reg}
    {i : Fin 4} (hself : FloatStorage.numeric128RintPs v i = v i) (hge : infinity ≤ ord (v i)) :
    op.apply features v i = v i ∨ op.apply features v i = add (v i) 0 ∨
      op.apply features v i = sub (v i) 0 := by
  have hirrefl : ∀ b : Bits, infinity ≤ ord b → lt b b = false := by
    intro b hb
    rcases Nat.eq_or_lt_of_le hb with heq | hlt
    · rw [lt, toIeee_of_eq heq.symm]
      cases sign b <;> rfl
    · rw [lt, toIeee_of_gt hlt]
      rfl
  cases op with
  | ceil =>
    refine Or.inr (Or.inl ?_)
    show FloatStorage.ceil features v i = _
    rw [FloatStorage.ceil_apply features h, hself, hirrefl _ hge]
    rfl
  | floor =>
    refine Or.inr (Or.inr ?_)
    show FloatStorage.floor features v i = _
    rw [FloatStorage.floor_apply features h, hself, hirrefl _ hge]
    rfl
  | rint =>
    refine Or.inl ?_
    simp only [apply, FloatStorage.rint, h, Bool.false_eq_true, if_false]
    exact hself
  | trunc =>
    refine Or.inr (Or.inr ?_)
    show FloatStorage.trunc features v i = _
    rw [FloatStorage.trunc_apply features h, hself, hirrefl _ (by rwa [ord_abs])]
    rfl

/-- An infinity is kept, whatever zero is added or subtracted. -/
theorem apply_infinity {features : Features} (h : features.sse4_1 = false) (op : RoundingOp)
    {v : Reg} {i : Fin 4} (hinf : ord (v i) = infinity) : op.apply features v i = v i := by
  have hmagic : ord FloatStorage.magic ≤ ord (v i) := by
    rw [hinf]
    decide
  have hself : FloatStorage.numeric128RintPs v i = v i := by
    rw [FloatStorage.numeric128RintPs_eq v i hinf.le,
      FloatStorage.roundToIntegral_large hmagic hinf.le]
  have hadd : ∀ z : Bits, ord z < infinity → add (v i) z = v i := by
    intro z hz
    rw [add, if_neg (by omega), if_neg (by omega), if_pos hinf, if_neg (by omega)]
  rcases op.apply_of_self h hself hinf.ge with heq | heq | heq
  · exact heq
  · rw [heq, hadd 0 (by decide)]
  · have hnan : ¬ infinity < ord (0 : Bits) := by decide
    rw [heq, sub, if_neg (by omega), if_neg hnan, hadd _ (by decide)]

/-- A NaN stays one. -/
theorem apply_nan {features : Features} (h : features.sse4_1 = false) (op : RoundingOp) {v : Reg}
    {i : Fin 4} (hnan : infinity < ord (v i)) : infinity < ord (op.apply features v i) := by
  have hself := FloatStorage.numeric128RintPs_nan v i hnan
  have hquiet : infinity < ord (quiet (v i)) := hnan.trans_le (ord_quiet _)
  rcases op.apply_of_self h hself hnan.le with heq | heq | heq
  · rwa [heq]
  · rwa [heq, add, if_pos hnan]
  · rwa [heq, sub, if_pos hnan]

/-- The bits of the result, unless the lane is a NaN. -/
theorem apply_bits (features : Features) (op : RoundingOp) {v : Reg} {i : Fin 4}
    (hnan : ord (v i) ≤ infinity) : op.apply features v i =
      if features.sse4_1 then roundToIntegral op.direction (v i)
      else positiveZero (roundToIntegral op.direction (v i)) := by
  cases hsse : features.sse4_1 with
  | true =>
    rw [op.apply_sse4_1 hsse, if_pos rfl]
    rfl
  | false =>
    rw [if_neg Bool.false_ne_true]
    rcases Nat.lt_or_eq_of_le hnan with hfinite | hinf
    · exact op.apply_finite hsse hfinite
    · have hmagic : ord FloatStorage.magic ≤ ord (v i) := by
        rw [hinf]
        decide
      rw [op.apply_infinity hsse hinf, FloatStorage.roundToIntegral_large hmagic hnan]

/-- A NaN stays one, with every instruction set. -/
theorem nan_apply (features : Features) (op : RoundingOp) {v : Reg} {i : Fin 4}
    (hnan : infinity < ord (v i)) : infinity < ord (op.apply features v i) := by
  cases hsse : features.sse4_1 with
  | true =>
    rw [op.apply_sse4_1 hsse]
    show infinity < ord (roundToIntegral op.direction (v i))
    rw [roundToIntegral, if_pos hnan]
    exact hnan.trans_le (ord_quiet _)
  | false => exact op.apply_nan hsse hnan

/-- **The number a lane stands for** after the operation. -/
theorem toIeee_apply (features : Features) (op : RoundingOp) (v : Reg) (i : Fin 4) :
    toIeee (op.apply features v i) = toIeee (roundToIntegral op.direction (v i)) := by
  rcases Nat.lt_or_ge infinity (ord (v i)) with hnan | hnan
  · rw [toIeee_of_gt (op.nan_apply features hnan), toIeee_roundToIntegral_of_ge hnan.le,
      toIeee_of_gt hnan]
  · rw [op.apply_bits features hnan]
    split_ifs
    · rfl
    · exact toIeee_positiveZero _

/-- The conversions, with every instruction set. -/
theorem cast_eq (features : Features) (op : RoundingOp) (v : Reg) :
    op.cast features v = fun i => toInt32 op.direction (v i) := by
  funext i
  have hcast : ∀ dir, cvttpsEpi32 (roundPs dir v) i = toInt32 dir (v i) := fun dir =>
    toInt32_roundToIntegral dir .zero (v i)
  cases op with
  | trunc => rfl
  | ceil =>
    show FloatStorage.lceil features v i = _
    unfold FloatStorage.lceil
    split_ifs
    · exact hcast .up
    · rfl
  | floor =>
    show FloatStorage.lfloor features v i = _
    unfold FloatStorage.lfloor
    split_ifs
    · exact hcast .down
    · rfl
  | rint =>
    show FloatStorage.lrint features v i = _
    unfold FloatStorage.lrint
    split_ifs
    · exact hcast .nearest
    · rfl

/-- Rounding first makes no difference to a conversion. -/
theorem cvtt_apply (features : Features) (op : RoundingOp) (v : Reg) :
    cvttpsEpi32 (op.apply features v) = op.cast features v := by
  rw [op.cast_eq features v]
  funext i
  show toInt32 .zero (op.apply features v i) = toInt32 op.direction (v i)
  rcases Nat.lt_or_ge infinity (ord (v i)) with hnan | hnan
  · rw [toInt32_of_ge (op.nan_apply features hnan).le, toInt32_of_ge hnan.le]
  · rw [op.apply_bits features hnan]
    split_ifs
    · exact toInt32_roundToIntegral _ _ _
    · rw [toInt32_positiveZero, toInt32_roundToIntegral]

end RoundingOp

/-- What a rounding of vectors owes: each lane stands for the number IEEE 754 asks for, in the same
bits up to the sign of a zero; and the conversion to integers is the truncation of the rounded
vector. -/
structure RoundsCorrectly (features : Features) (op : RoundingOp) (v : Reg) : Prop where
  ieee : ∀ i, toIeee (op.apply features v i) = toIeee (roundToIntegral op.direction (v i))
  bits : ∀ i, ord (v i) ≤ infinity → op.apply features v i =
    if features.sse4_1 then roundToIntegral op.direction (v i)
    else positiveZero (roundToIntegral op.direction (v i))
  cast : op.cast features v = fun i => toInt32 op.direction (v i)
  cast_apply : cvttpsEpi32 (op.apply features v) = op.cast features v

/-- **Both instruction sets round correctly**, for all bit patterns in all lanes. -/
theorem rounding_correct (features : Features) (op : RoundingOp) (v : Reg) :
    RoundsCorrectly features op v where
  ieee := op.toIeee_apply features v
  bits _ hnan := op.apply_bits features hnan
  cast := op.cast_eq features v
  cast_apply := op.cvtt_apply features v

/-- Minus three tenths is rounded up to a zero that keeps its sign only with SSE4.1. -/
example : FloatStorage.ceil ⟨true, true, true⟩ (setPs1 0xBE99999A) 0 = 0x80000000 ∧
    FloatStorage.ceil ⟨false, false, false⟩ (setPs1 0xBE99999A) 0 = 0 := by
  decide +kernel

end RoxyGlance.Numeric
