import RoxyGlance.Lib.Rounding
import RoxyGlance.Lib.Run
import RoxyGlance.Utility.Jitter

/-!
# Exponential backoff

`exponential_backoff` multiplies its delay by a factor with every call, up to a maximum.  For twelve
factors there is a specialisation of `scale_and_clamp` that multiplies and shifts integers; its
constraint keeps the product in range for every delay up to the maximum.  With a larger maximum the
general template is taken, which computes in single precision.

* `exists_run_iff`: a run has an outcome exactly if each conversion of the general template is in
  range;
* `backoff_runs`: what a run does in both cases;
* `makesProgress_iff`: the delay reaches its maximum unless the product is rounded down to the delay
  it was computed from, or the general template cannot convert it back.
-/

namespace RoxyGlance.Utility

/-- The factors with a specialisation, by their digits. -/
inductive Factor
  | f1_125
  | f1_25
  | f1_375
  | f1_5
  | f1_625
  | f1_75
  | f1_875
  | f2
  | f2_5
  | f3
  | f3_5
  | f4
  deriving DecidableEq, Repr

/-- How a specialisation scales a value: `(value * m) >> k`, `value * m` or `value << k`. -/
inductive Scaling
  | mulShiftRight (m : ℤ) (k : ℕ)
  | mul (m : ℤ)
  | shiftLeft (k : ℕ)

namespace Factor

/-- The factor as a number. -/
def value : Factor → ℚ
  | f1_125 => 1.125
  | f1_25 => 1.25
  | f1_375 => 1.375
  | f1_5 => 1.5
  | f1_625 => 1.625
  | f1_75 => 1.75
  | f1_875 => 1.875
  | f2 => 2
  | f2_5 => 2.5
  | f3 => 3
  | f3_5 => 3.5
  | f4 => 4

/-- The body of the specialisation. -/
def scaling : Factor → Scaling
  | f1_125 => .mulShiftRight 9 3
  | f1_25 => .mulShiftRight 5 2
  | f1_375 => .mulShiftRight 11 3
  | f1_5 => .mulShiftRight 3 1
  | f1_625 => .mulShiftRight 13 3
  | f1_75 => .mulShiftRight 7 2
  | f1_875 => .mulShiftRight 15 3
  | f2 => .shiftLeft 1
  | f2_5 => .mulShiftRight 5 1
  | f3 => .mul 3
  | f3_5 => .mulShiftRight 7 1
  | f4 => .shiftLeft 2

/-- What the largest value of the type is divided by in its constraint. -/
def divisor : Factor → ℤ
  | f1_125 => 9
  | f1_25 => 5
  | f1_375 => 11
  | f1_5 => 3
  | f1_625 => 13
  | f1_75 => 7
  | f1_875 => 15
  | f2 => 2
  | f2_5 => 5
  | f3 => 3
  | f3_5 => 7
  | f4 => 4

end Factor

namespace Scaling

/-- The scaled value; `none` is an overflow that has no outcome. -/
def apply (t : IntType) (value : ℤ) : Scaling → Option ℤ
  | mulShiftRight m k => do
    let product ← t.mul value m
    some (product / 2 ^ k)
  | mul m => t.mul value m
  | shiftLeft k => some (t.shiftLeft value k)

/-- The number of which the factor is a part, -/
def num : Scaling → ℤ
  | mulShiftRight m _ => m
  | mul m => m
  | shiftLeft k => 2 ^ k

/-- and how often it is halved. -/
def shift : Scaling → ℕ
  | mulShiftRight _ k => k
  | mul _ => 0
  | shiftLeft _ => 0

end Scaling

namespace Factor

variable (f : Factor)

/-- The factor is `num / 2 ^ shift`. -/
def num : ℤ := f.scaling.num

def shift : ℕ := f.scaling.shift

/-- `static_cast<float>(value) * Scale`, in units of `2 ^ -shift`.  The factor is a whole number of
them, so both operations round a whole number. -/
def singleProduct (value : ℤ) : ℤ :=
  Rounding.roundInt 24 (Rounding.roundInt 24 value * f.num)

/-- The general `scale_and_clamp`, before it clamps.  A value that does not fit after its fraction has
been dropped cannot be converted. -/
def scaleInSinglePrecision (t : IntType) (value : ℤ) : Option ℤ :=
  let truncated := (f.singleProduct value).tdiv (2 ^ f.shift)
  if t.InRange truncated then some truncated else none

/-- `scale_and_clamp<Int, MaxVal, Scale>`: the specialisation, where its constraint holds. -/
def scaleAndClamp (t : IntType) (maxVal : ℤ) (value : ℤ) : Option ℤ :=
  if maxVal ≤ t.max / f.divisor then do
    let scaled ← f.scaling.apply t value
    some (min scaled maxVal)
  else do
    let scaled ← f.scaleInSinglePrecision t value
    some (min scaled maxVal)

end Factor

/-- An `exponential_backoff` that its constraints accept.  The general `scale_and_clamp` compares
numbers in double precision, and it has to accept the maximum even where a specialisation is taken.

In a specialisation for a type narrower than `int`, `std::min` is given an `int` and an `Int`, and a
program that calls `next` does not compile; such a backoff is counted here with what its arithmetic
gives. -/
structure ExponentialBackoff where
  type : IntType
  minDelay : ℤ
  maxDelay : ℤ
  factor : Factor
  minDelay_nonneg : 0 ≤ minDelay
  minDelay_le : minDelay ≤ maxDelay
  maxDelay_le : maxDelay ≤ type.max
  scalable : Rounding.roundInt 53 (Rounding.roundInt 53 maxDelay * factor.num) ≤
    2 ^ factor.shift * Rounding.roundInt 53 type.max

namespace ExponentialBackoff

/-- `current_`; `delays` is not in the program and records what `next` has returned since the last
`reset`, the last delay first. -/
structure State where
  current : ℤ
  delays : List ℤ

/-- A call of `next`, with what is drawn if there is jitter, or of `reset`. -/
inductive Call
  | next (draw : Draw)
  | reset

variable (b : ExponentialBackoff)

/-- `next`: the delay that is returned, and `current_` after it. -/
def next (jitter : Option (Ratio × Draw)) (current : ℤ) : Option (ℤ × ℤ) := do
  let next ← b.factor.scaleAndClamp b.type b.maxDelay current
  let clamp := min next b.maxDelay
  match jitter with
  | some (ratio, draw) => do
    let delay ← ratio.random b.type clamp draw
    some (min delay b.maxDelay, clamp)
  | none => some (clamp, clamp)

/-- A call, of a backoff with or without jitter. -/
def step (ratio : Option Ratio) (s : State) : Call → Option State
  | .next draw => do
    let (delay, current) ← b.next (ratio.map fun r => (r, draw)) s.current
    some ⟨current, delay :: s.delays⟩
  | .reset => some ⟨b.minDelay, []⟩

/-- The object at first. -/
def init : State := ⟨b.minDelay, []⟩

/-- Some calls, one after the other. -/
def run (ratio : Option Ratio) (calls : List Call) : Option State :=
  calls.foldlM (b.step ratio) b.init

end ExponentialBackoff

/-! ### Scaling -/

namespace Factor

variable (f : Factor)

theorem value_eq : f.value = f.num / 2 ^ f.shift := by
  cases f <;> norm_num [value, num, shift, scaling, Scaling.num, Scaling.shift]

/-- The constraint is about the product. -/
theorem divisor_eq_num : f.divisor = f.num := by
  cases f <;> rfl

/-- Every factor is at least nine eighths. -/
theorem num_ge : 9 * 2 ^ f.shift ≤ 8 * f.num := by
  cases f <;> decide

theorem num_le : f.num ≤ 15 := by
  cases f <;> decide

theorem num_pos : 0 < f.num := by
  cases f <;> decide

theorem pow_shift_pos : (0 : ℤ) < 2 ^ f.shift := by positivity

/-- The exact delay, rounded down. -/
theorem floor_value_mul (c : ℤ) : ⌊f.value * c⌋ = f.num * c / 2 ^ f.shift := by
  have hcast : f.value * c = ((f.num * c : ℤ) : ℚ) / ((2 ^ f.shift : ℕ) : ℚ) := by
    rw [value_eq]
    push_cast
    ring
  rw [hcast, Rat.floor_intCast_div_natCast]
  push_cast
  rfl

/-- What the factor adds to a delay is at least one. -/
theorem one_le_added_iff (c : ℤ) :
    1 ≤ (f.value - 1) * c ↔ 2 ^ f.shift ≤ (f.num - 2 ^ f.shift) * c := by
  have hpos : (0 : ℚ) < 2 ^ f.shift := by positivity
  have hscaled : (f.value - 1) * c = ((f.num - 2 ^ f.shift) * c : ℤ) / 2 ^ f.shift := by
    rw [value_eq]
    push_cast
    field_simp
  rw [hscaled, le_div_iff₀ hpos, one_mul]
  exact_mod_cast Iff.rfl

/-- **A specialisation is exact**: its product is in range. -/
theorem scaling_apply {t : IntType} {maxVal c : ℤ} (hmax : maxVal ≤ t.max / f.divisor) (hc : 0 ≤ c)
    (hle : c ≤ maxVal) : f.num * c ≤ t.max ∧
      f.scaling.apply t c = some (f.num * c / 2 ^ f.shift) := by
  have hproduct : f.num * c ≤ t.max := by
    rw [divisor_eq_num] at hmax
    rw [mul_comm]
    exact (Int.le_ediv_iff_mul_le f.num_pos).1 (hle.trans hmax)
  have hnonneg : 0 ≤ f.num * c := mul_nonneg f.num_pos.le hc
  refine ⟨hproduct, ?_⟩
  have hcomm := mul_comm f.num c
  unfold num at hproduct hnonneg hcomm ⊢
  unfold shift
  cases hscaling : f.scaling with
  | mulShiftRight m k =>
    rw [hscaling] at hproduct hnonneg hcomm
    simp only [Scaling.num] at hproduct hnonneg hcomm
    simp only [Scaling.apply, ← hcomm, IntType.mul_of_inRange (hcomm ▸ hnonneg) (hcomm ▸ hproduct)]
    rfl
  | mul m =>
    rw [hscaling] at hproduct hnonneg hcomm
    simp only [Scaling.num] at hproduct hnonneg hcomm
    simp only [Scaling.apply, ← hcomm, IntType.mul_of_inRange (hcomm ▸ hnonneg) (hcomm ▸ hproduct),
      Scaling.num, Scaling.shift, pow_zero, Int.ediv_one]
  | shiftLeft k =>
    rw [hscaling] at hproduct hnonneg hcomm
    simp only [Scaling.num] at hproduct hnonneg hcomm
    simp only [Scaling.apply, ← hcomm,
      IntType.shiftLeft_of_inRange (hcomm ▸ hnonneg) (hcomm ▸ hproduct), Scaling.num, Scaling.shift,
      pow_zero, Int.ediv_one]

end Factor

/-! ### Single precision -/

namespace Factor

variable (f : Factor) {c : ℤ}

/-- The product in natural numbers. -/
theorem singleProduct_eq (hc : 0 ≤ c) : ∃ n m : ℕ, c = n ∧ f.num = m ∧
    Rounding.roundInt 24 c = Rounding.round 24 n ∧
    f.singleProduct c = Rounding.round 24 (Rounding.round 24 n * m) := by
  obtain ⟨n, rfl⟩ := Int.eq_ofNat_of_zero_le hc
  obtain ⟨m, hm⟩ := Int.eq_ofNat_of_zero_le f.num_pos.le
  refine ⟨n, m, rfl, hm, Rounding.roundInt_natCast 24 n, ?_⟩
  rw [singleProduct, hm, Rounding.roundInt_natCast, ← Nat.cast_mul, Rounding.roundInt_natCast]

theorem singleProduct_nonneg (hc : 0 ≤ c) : 0 ≤ f.singleProduct c := by
  obtain ⟨n, m, -, -, -, hproduct⟩ := f.singleProduct_eq hc
  rw [hproduct]
  exact Nat.cast_nonneg _

/-- Small delays are exact. -/
theorem singleProduct_of_le (hc : 0 ≤ c) (hle : c ≤ 8) : f.singleProduct c = f.num * c := by
  obtain ⟨n, m, rfl, hm, -, hproduct⟩ := f.singleProduct_eq hc
  have hn : n ≤ 8 := by omega
  have hmle : m ≤ 15 := by
    have := f.num_le
    omega
  have hsmall : n * m < 2 ^ 24 :=
    lt_of_le_of_lt (Nat.mul_le_mul hn hmle) (by decide)
  rw [hproduct, Rounding.round_eq_self (show n < 2 ^ 24 by omega), Rounding.round_eq_self hsmall, hm,
    mul_comm]
  push_cast
  rfl

/-- Large delays grow, by an eighth of which the roundings take little. -/
theorem singleProduct_of_ge (hc : 9 ≤ c) : 2 ^ f.shift * (c + 1) ≤ f.singleProduct c := by
  obtain ⟨n, m, rfl, hm, -, hproduct⟩ := f.singleProduct_eq (show 0 ≤ c by omega)
  have hfloat := Rounding.le_round 24 n
  have hround := Rounding.le_round 24 (Rounding.round 24 n * m)
  have hnum := f.num_ge
  rw [hproduct]
  rw [hm] at hnum
  generalize Rounding.round 24 (Rounding.round 24 n * m) = x at hround ⊢
  generalize Rounding.round 24 n = r at hfloat hround
  have hfloat' : (2 : ℤ) ^ 24 * n ≤ 2 ^ 24 * r + n := by exact_mod_cast hfloat
  have hround' : (2 : ℤ) ^ 24 * (r * m) ≤ 2 ^ 24 * x + r * m := by exact_mod_cast hround
  have hpos := f.pow_shift_pos
  generalize (2 : ℤ) ^ f.shift = unit at hnum hpos ⊢
  -- everything is linear in the products with the unit
  have hscaled : unit * (2 ^ 24 * n) ≤ unit * (2 ^ 24 * r + n) :=
    mul_le_mul_of_nonneg_left hfloat' hpos.le
  have heighths : (r : ℤ) * (9 * unit) ≤ r * (8 * m) :=
    mul_le_mul_of_nonneg_left hnum (Nat.cast_nonneg r)
  have hnine : unit * 9 ≤ unit * (n : ℤ) := mul_le_mul_of_nonneg_left (by omega) hpos.le
  nlinarith

/-- **The rounded product grows exactly when the exact one does.** -/
theorem singleProduct_grows_iff (hc : 0 ≤ c) :
    2 ^ f.shift * (c + 1) ≤ f.singleProduct c ↔ 2 ^ f.shift ≤ (f.num - 2 ^ f.shift) * c := by
  by_cases hle : c ≤ 8
  · rw [f.singleProduct_of_le hc hle, mul_add, mul_one, sub_mul]
    constructor <;> intro h <;> linarith
  · refine iff_of_true (f.singleProduct_of_ge (by omega)) ?_
    have hnum := f.num_ge
    have hpos := f.pow_shift_pos
    have hnine : (f.num - 2 ^ f.shift) * 9 ≤ (f.num - 2 ^ f.shift) * c :=
      mul_le_mul_of_nonneg_left (by omega) (by linarith)
    linarith

theorem le_singleProduct (hc : 0 ≤ c) : 2 ^ f.shift * c ≤ f.singleProduct c := by
  by_cases hle : c ≤ 8
  · rw [f.singleProduct_of_le hc hle]
    exact mul_le_mul_of_nonneg_right (by linarith [f.num_ge, f.pow_shift_pos]) hc
  · have hgrows := f.singleProduct_of_ge (show 9 ≤ c by omega)
    linarith [f.pow_shift_pos]

/-- The bound up to which the product can be converted back: half of the last unit below the end of
the type. -/
def Convertible (t : IntType) (c : ℤ) : Prop :=
  2 * (Rounding.roundInt 24 c * f.num) + 2 ^ (t.digits + f.shift - 24) <
    2 * 2 ^ (t.digits + f.shift)

/-- **The conversion** gives the product without its fraction, exactly up to that bound. -/
theorem scaleInSinglePrecision_cases {t : IntType} (hc : 0 ≤ c) :
    (f.Convertible t c →
        f.scaleInSinglePrecision t c = some (f.singleProduct c / 2 ^ f.shift)) ∧
      (¬ f.Convertible t c → f.scaleInSinglePrecision t c = none) := by
  have hnonneg := f.singleProduct_nonneg hc
  have htrunc : (f.singleProduct c).tdiv (2 ^ f.shift) = f.singleProduct c / 2 ^ f.shift :=
    Int.tdiv_eq_ediv_of_nonneg hnonneg
  have hquotient : 0 ≤ f.singleProduct c / 2 ^ f.shift :=
    Int.ediv_nonneg hnonneg f.pow_shift_pos.le
  have hrange : t.InRange (f.singleProduct c / 2 ^ f.shift) ↔ f.Convertible t c := by
    -- the quotient is in range when the product is below the power of two, before it is rounded
    obtain ⟨n, m, rfl, hm, hfloat, hproduct⟩ := f.singleProduct_eq hc
    have hround := Rounding.round_lt_pow_iff (p := 24) (by decide) (t.digits + f.shift)
      (Rounding.round 24 n * m)
    have hconvertible : f.Convertible t n ↔
        Rounding.round 24 (Rounding.round 24 n * m) < 2 ^ (t.digits + f.shift) := by
      rw [hround, Convertible, hfloat, hm]
      norm_cast
    rw [hconvertible, hproduct, ← @Nat.cast_lt ℤ, Nat.cast_pow, pow_add]
    rw [hproduct] at hquotient
    have hbelow := Int.ediv_lt_iff_lt_mul f.pow_shift_pos
      (a := (Rounding.round 24 (Rounding.round 24 n * m) : ℤ)) (b := 2 ^ t.digits)
    constructor
    · exact fun h => hbelow.1 (IntType.lt_two_pow_digits h.2)
    · refine fun h => IntType.inRange_of_nonneg hquotient ?_
      have hlt := hbelow.2 h
      unfold IntType.max
      omega
  rw [scaleInSinglePrecision, htrunc]
  exact ⟨fun h => if_pos (hrange.2 h), fun h => if_neg (mt hrange.1 h)⟩

end Factor

/-! ### One call -/

namespace ExponentialBackoff

variable (b : ExponentialBackoff) {c : ℤ}

/-- The specialisation is taken. -/
def Specialised : Prop := b.maxDelay ≤ b.type.max / b.factor.divisor

instance : Decidable b.Specialised := inferInstanceAs (Decidable (_ ≤ _))

/-- The product of a delay, in units of `2 ^ -shift`. -/
def product (c : ℤ) : ℤ :=
  if b.Specialised then b.factor.num * c else b.factor.singleProduct c

/-- The delay after `c`. -/
def grown (c : ℤ) : ℤ := min (b.product c / 2 ^ b.factor.shift) b.maxDelay

/-- The product can be had: the specialisation is taken, or the general template can convert. -/
def Fits (c : ℤ) : Prop := b.Specialised ∨ b.factor.Convertible b.type c

/-- **`scale_and_clamp`** gives the next delay exactly when its product can be had. -/
theorem scaleAndClamp_cases (hc : 0 ≤ c) (hle : c ≤ b.maxDelay) :
    (b.Fits c → b.factor.scaleAndClamp b.type b.maxDelay c = some (b.grown c)) ∧
      (¬ b.Fits c → b.factor.scaleAndClamp b.type b.maxDelay c = none) := by
  by_cases hspecialised : b.Specialised
  · have hbody : b.factor.scaleAndClamp b.type b.maxDelay c =
        (b.factor.scaling.apply b.type c).bind fun scaled => some (min scaled b.maxDelay) :=
      if_pos hspecialised
    have hproduct : b.product c = b.factor.num * c := if_pos hspecialised
    refine ⟨fun _ => ?_, fun h => absurd (Or.inl hspecialised) h⟩
    rw [hbody, (b.factor.scaling_apply (t := b.type) hspecialised hc hle).2, grown, hproduct]
    rfl
  · have hbody : b.factor.scaleAndClamp b.type b.maxDelay c =
        (b.factor.scaleInSinglePrecision b.type c).bind fun scaled =>
          some (min scaled b.maxDelay) := if_neg hspecialised
    have hproduct : b.product c = b.factor.singleProduct c := if_neg hspecialised
    obtain ⟨hconvert, hrefuse⟩ := b.factor.scaleInSinglePrecision_cases (t := b.type) hc
    refine ⟨fun h => ?_, fun h => ?_⟩
    · rw [hbody, hconvert (h.resolve_left hspecialised), grown, hproduct]
      rfl
    · rw [hbody, hrefuse fun hconvertible => h (Or.inr hconvertible)]
      rfl

theorem le_product (hc : 0 ≤ c) : 2 ^ b.factor.shift * c ≤ b.product c := by
  unfold product
  split_ifs
  · exact mul_le_mul_of_nonneg_right
      (by linarith [b.factor.num_ge, b.factor.pow_shift_pos]) hc
  · exact b.factor.le_singleProduct hc

theorem product_grows_iff (hc : 0 ≤ c) : 2 ^ b.factor.shift * (c + 1) ≤ b.product c ↔
    2 ^ b.factor.shift ≤ (b.factor.num - 2 ^ b.factor.shift) * c := by
  unfold product
  split_ifs
  · rw [mul_add, mul_one, sub_mul]
    constructor <;> intro h <;> linarith
  · exact b.factor.singleProduct_grows_iff hc

/-- The next delay is not shorter, and at most the maximum. -/
theorem grown_mem (hc : 0 ≤ c) (hle : c ≤ b.maxDelay) : c ≤ b.grown c ∧ b.grown c ≤ b.maxDelay := by
  refine ⟨le_min ?_ hle, min_le_right _ _⟩
  rw [Int.le_ediv_iff_mul_le b.factor.pow_shift_pos, mul_comm]
  exact b.le_product hc

/-- **When the delay grows**: exactly when an eighth, or what the factor adds, is at least one. -/
theorem lt_grown_iff (hc : 0 ≤ c) (hlt : c < b.maxDelay) : c < b.grown c ↔
    2 ^ b.factor.shift ≤ (b.factor.num - 2 ^ b.factor.shift) * c := by
  rw [← b.product_grows_iff hc, grown, lt_min_iff, and_iff_left hlt, Int.lt_iff_add_one_le,
    Int.le_ediv_iff_mul_le b.factor.pow_shift_pos, mul_comm]

/-- The next delay is exact where the specialisation is taken. -/
theorem grown_of_specialised (h : b.Specialised) (c : ℤ) :
    b.grown c = min b.maxDelay ⌊b.factor.value * c⌋ := by
  rw [grown, product, if_pos h, b.factor.floor_value_mul, min_comm]

/-- `next` without jitter. -/
theorem next_none_cases (hc : 0 ≤ c) (hle : c ≤ b.maxDelay) :
    (b.Fits c → b.next none c = some (b.grown c, b.grown c)) ∧
      (¬ b.Fits c → ∀ jitter, b.next jitter c = none) := by
  obtain ⟨hfits, hrefuse⟩ := b.scaleAndClamp_cases hc hle
  refine ⟨fun h => ?_, fun h jitter => ?_⟩
  · have hclamp : min (b.grown c) b.maxDelay = b.grown c := min_eq_left (b.grown_mem hc hle).2
    simp only [next, hfits h, Option.bind_eq_bind, Option.bind_some, hclamp]
  · simp only [next, hrefuse h, Option.bind_eq_bind, Option.bind_none]

/-! ### Runs -/

/-- A state that a run without jitter can be in. -/
structure Valid (s : State) : Prop where
  ge : b.minDelay ≤ s.current
  le : s.current ≤ b.maxDelay
  delays_le : ∀ delay ∈ s.delays, delay ≤ s.current
  sorted : s.delays.Pairwise (· ≥ ·)

variable {b}

theorem Valid.nonneg {s : State} (hs : b.Valid s) : 0 ≤ s.current := b.minDelay_nonneg.trans hs.ge

theorem valid_init : b.Valid b.init := by
  refine ⟨le_rfl, b.minDelay_le, fun delay hmem => ?_, .nil⟩
  cases hmem

/-- What `next` does to a state. -/
def State.push (s : State) (delay : ℤ) : State := ⟨delay, delay :: s.delays⟩

theorem Valid.push {s : State} (hs : b.Valid s) : b.Valid (s.push (b.grown s.current)) := by
  obtain ⟨hge, hle⟩ := b.grown_mem hs.nonneg hs.le
  refine ⟨hs.ge.trans hge, hle, fun delay hmem => ?_, ?_⟩
  · rcases List.mem_cons.1 hmem with rfl | hmem
    · exact le_rfl
    · exact (hs.delays_le delay hmem).trans hge
  · exact List.pairwise_cons.2 ⟨fun delay hmem => (hs.delays_le delay hmem).trans hge, hs.sorted⟩

/-- The step of a call of `next`, where it has an outcome. -/
theorem step_next {s : State} (hs : b.Valid s) (draw : Draw) :
    (b.Fits s.current → b.step none s (.next draw) = some (s.push (b.grown s.current))) ∧
      (¬ b.Fits s.current → b.step none s (.next draw) = none) := by
  obtain ⟨hfits, hrefuse⟩ := b.next_none_cases hs.nonneg hs.le
  refine ⟨fun h => ?_, fun h => ?_⟩
  · simp only [step, Option.map_none, hfits h, Option.bind_eq_bind, Option.bind_some]
    rfl
  · simp only [step, Option.map_none, hrefuse h none, Option.bind_eq_bind, Option.bind_none]

/-- **Every outcome of a call is a valid state.** -/
theorem valid_step (s : State) (call : Call) (s' : State) (hs : b.Valid s)
    (h : b.step none s call = some s') : b.Valid s' := by
  cases call with
  | next draw =>
    obtain ⟨hfits, hrefuse⟩ := step_next hs draw
    by_cases hfit : b.Fits s.current
    · rw [hfits hfit] at h
      cases h
      exact hs.push
    · rw [hrefuse hfit] at h
      cases h
  | reset =>
    cases h
    exact valid_init

theorem valid_run {calls : List Call} {s : State} (h : b.run none calls = some s) : b.Valid s :=
  Run.foldlM_of_preserved valid_step valid_init h

/-- Where the specialisation is taken, every call has an outcome. -/
theorem step_total (hspecialised : b.Specialised) (s : State) (call : Call) (hs : b.Valid s) :
    ∃ s', b.step none s call = some s' ∧ b.Valid s' := by
  cases call with
  | next draw => exact ⟨_, (step_next hs draw).1 (Or.inl hspecialised), hs.push⟩
  | reset => exact ⟨_, rfl, valid_init⟩

variable (b) in
/-- The conversion of a call is in range; `reset` makes none. -/
def Converts (s : State) : Call → Prop
  | .next _ => b.Fits s.current
  | .reset => True

variable (b) in
/-- All conversions of a run are in range. -/
def Converted (calls : List Call) : Prop := Run.Guarded (b.step none) b.Converts b.init calls

theorem exists_step_iff (s : State) (call : Call) (hs : b.Valid s) :
    (∃ s', b.step none s call = some s') ↔ b.Converts s call := by
  cases call with
  | reset => exact iff_of_true ⟨b.init, rfl⟩ trivial
  | next draw =>
    obtain ⟨hfits, hrefuse⟩ := step_next hs draw
    by_cases hfit : b.Fits s.current
    · exact iff_of_true ⟨_, hfits hfit⟩ hfit
    · refine iff_of_false (fun h => ?_) hfit
      obtain ⟨s', hs'⟩ := h
      rw [hrefuse hfit] at hs'
      cases hs'

/-- **Which runs have an outcome**: those whose conversions are in range. -/
theorem exists_run_iff (calls : List Call) :
    (∃ s, b.run none calls = some s) ↔ b.Converted calls :=
  Run.exists_foldlM_iff valid_step exists_step_iff valid_init calls

variable (b) in
/-- What can be said of a backoff without jitter after some calls. -/
structure Runs (calls : List Call) : Prop where
  /-- There is an outcome exactly if the conversions are in range. -/
  defined : (∃ s, b.run none calls = some s) ↔ b.Converted calls
  bounds : ∀ s, b.run none calls = some s → b.minDelay ≤ s.current ∧ s.current ≤ b.maxDelay
  nonDecreasing : ∀ s, b.run none calls = some s → s.delays.Pairwise (· ≥ ·)
  /-- With the specialisation there is an outcome, without overflow, and the next delay is exact. -/
  specialised : b.Specialised → ∃ s, b.run none calls = some s ∧
    b.factor.num * s.current ≤ b.type.max ∧
    b.next none s.current =
      some (min b.maxDelay ⌊b.factor.value * s.current⌋, min b.maxDelay ⌊b.factor.value * s.current⌋)
  /-- With the general template the next delay is what single precision makes of the product, as long
  as that can be converted. -/
  general : ¬ b.Specialised → ∀ s, b.run none calls = some s →
    b.factor.Convertible b.type s.current →
    b.next none s.current =
      some (min b.maxDelay (b.factor.singleProduct s.current / 2 ^ b.factor.shift),
        min b.maxDelay (b.factor.singleProduct s.current / 2 ^ b.factor.shift))

/-- **What a run does**, for every backoff that is accepted and all calls. -/
theorem backoff_runs (b : ExponentialBackoff) (calls : List Call) : b.Runs calls where
  defined := exists_run_iff calls
  bounds s h := ⟨(valid_run h).ge, (valid_run h).le⟩
  nonDecreasing s h := (valid_run h).sorted
  specialised hspecialised := by
    obtain ⟨s, hrun, hs⟩ := Run.foldlM_total (step_total hspecialised) valid_init calls
    have hproduct := (b.factor.scaling_apply (t := b.type) hspecialised hs.nonneg hs.le).1
    refine ⟨s, hrun, hproduct, ?_⟩
    rw [← b.grown_of_specialised hspecialised]
    exact (b.next_none_cases hs.nonneg hs.le).1 (Or.inl hspecialised)
  general hgeneral s h hconvertible := by
    have hs := valid_run h
    have hnext := (b.next_none_cases hs.nonneg hs.le).1 (Or.inr hconvertible)
    rwa [grown, product, if_neg hgeneral, min_comm] at hnext

/-- A backoff for which the general template is taken: its maximum is more than a ninth of the
largest value. -/
def coarse : ExponentialBackoff where
  type := ⟨false, 32⟩
  minDelay := 16777217
  maxDelay := 1000000000
  factor := .f1_125
  minDelay_nonneg := by decide
  minDelay_le := by decide
  maxDelay_le := by decide
  scalable := by decide

/-- Its first delay is one too short, because the minimum has more bits than single precision. -/
theorem coarse_notExact : coarse.run none [] = some ⟨16777217, []⟩ ∧
    coarse.next none 16777217 = some (18874368, 18874368) ∧
    min coarse.maxDelay ⌊coarse.factor.value * (16777217 : ℤ)⌋ = 18874369 := by
  refine ⟨rfl, by decide, ?_⟩
  rw [Factor.floor_value_mul]
  decide

/-! ### Progress -/

theorem run_append {ratio : Option Ratio} {calls : List Call} {s : State}
    (h : b.run ratio calls = some s) (more : List Call) :
    b.run ratio (calls ++ more) = more.foldlM (b.step ratio) s := by
  unfold run at h ⊢
  rw [List.foldlM_append, h]
  rfl

variable (b) in
/-- **Progress**: every call of `next` below the maximum returns a longer delay, and after a reset the
maximum is reached by calling `next` often enough. -/
structure MakesProgress : Prop where
  grows : ∀ calls s, b.run none calls = some s → s.current < b.maxDelay →
    ∃ delay, b.next none s.current = some (delay, delay) ∧ s.current < delay
  arrives : ∀ calls s draw, b.run none calls = some s → ∃ n s',
    b.run none (calls ++ .reset :: List.replicate n (.next draw)) = some s' ∧
      s'.current = b.maxDelay

/-- What is enough for every delay from the minimum on. -/
theorem lt_grown_of_min (h : 2 ^ b.factor.shift ≤ (b.factor.num - 2 ^ b.factor.shift) * b.minDelay)
    {c : ℤ} (hc : b.minDelay ≤ c) (hlt : c < b.maxDelay) : c < b.grown c := by
  have hadds : 0 ≤ b.factor.num - 2 ^ b.factor.shift := by
    linarith [b.factor.num_ge, b.factor.pow_shift_pos]
  rw [b.lt_grown_iff (b.minDelay_nonneg.trans hc) hlt]
  exact h.trans (mul_le_mul_of_nonneg_left hc hadds)

/-- From a state whose delays can grow and be converted, the maximum is reached, by induction on what
is missing. -/
theorem arrives_of_grows
    (hgrows : ∀ calls s, b.run none calls = some s → s.current < b.maxDelay →
      b.Fits s.current ∧ s.current < b.grown s.current) (draw : Draw) {calls : List Call} {s : State}
    (hrun : b.run none calls = some s) : ∃ n s',
      b.run none (calls ++ List.replicate n (.next draw)) = some s' ∧ s'.current = b.maxDelay := by
  induction hmissing : (b.maxDelay - s.current).toNat using Nat.strong_induction_on generalizing
    calls s with
  | _ missing ih =>
    have hs := valid_run hrun
    -- the induction is on how far the delay is from the maximum
    rcases hs.le.eq_or_lt with heq | hlt
    · refine ⟨0, s, ?_, heq⟩
      rw [List.replicate_zero, List.append_nil]
      exact hrun
    · obtain ⟨hfits, hlonger⟩ := hgrows calls s hrun hlt
      have hnext : b.run none (calls ++ [.next draw]) = some (s.push (b.grown s.current)) := by
        rw [run_append hrun, List.foldlM_cons, (step_next hs draw).1 hfits]
        rfl
      have hless : (b.maxDelay - b.grown s.current).toNat < missing := by omega
      obtain ⟨n, s', hrest, harrived⟩ := ih _ hless hnext rfl
      refine ⟨n + 1, s', ?_, harrived⟩
      rwa [List.append_assoc, List.singleton_append, ← List.replicate_succ] at hrest

/-- **When a backoff makes progress**: exactly when its first delay is at least one longer than its
minimum, unless the minimum is the maximum, and no delay below the maximum is too large for the
general template. -/
theorem makesProgress_iff (b : ExponentialBackoff) : b.MakesProgress ↔
    (b.minDelay = b.maxDelay ∨ 1 ≤ (b.factor.value - 1) * b.minDelay) ∧
      ∀ calls s, b.run none calls = some s → s.current < b.maxDelay → b.Fits s.current := by
  rw [b.factor.one_le_added_iff]
  constructor
  · intro h
    have hfits : ∀ calls s, b.run none calls = some s → s.current < b.maxDelay →
        b.Fits s.current := by
      intro calls s hrun hlt
      obtain ⟨delay, hnext, -⟩ := h.grows calls s hrun hlt
      have hs := valid_run hrun
      by_contra hrefused
      rw [(b.next_none_cases hs.nonneg hs.le).2 hrefused none] at hnext
      cases hnext
    refine ⟨?_, hfits⟩
    rcases b.minDelay_le.eq_or_lt with heq | hlt
    · exact Or.inl heq
    · -- the first call has to grow
      refine Or.inr ((b.lt_grown_iff b.minDelay_nonneg hlt).1 ?_)
      obtain ⟨delay, hnext, hlonger⟩ := h.grows [] b.init rfl hlt
      have hfirst := (b.next_none_cases b.minDelay_nonneg b.minDelay_le).1 (hfits [] b.init rfl hlt)
      rw [show b.init.current = b.minDelay from rfl, hfirst] at hnext
      cases hnext
      exact hlonger
  · rintro ⟨hmin, hfits⟩
    have hgrows : ∀ calls s, b.run none calls = some s → s.current < b.maxDelay →
        b.Fits s.current ∧ s.current < b.grown s.current := by
      intro calls s hrun hlt
      have hs := valid_run hrun
      refine ⟨hfits calls s hrun hlt, ?_⟩
      rcases hmin with heq | hadds
      · exact absurd (heq ▸ hs.ge) (not_le.2 hlt)
      · exact lt_grown_of_min hadds hs.ge hlt
    refine ⟨fun calls s hrun hlt => ?_, fun calls s draw hrun => ?_⟩
    · have hs := valid_run hrun
      obtain ⟨hfit, hlonger⟩ := hgrows calls s hrun hlt
      exact ⟨_, (b.next_none_cases hs.nonneg hs.le).1 hfit, hlonger⟩
    · have hreset : b.run none (calls ++ [.reset]) = some b.init := run_append hrun [.reset]
      obtain ⟨n, s', hrest, harrived⟩ := arrives_of_grows hgrows draw hreset
      refine ⟨n, s', ?_, harrived⟩
      rwa [List.append_assoc, List.singleton_append] at hrest

/-- A backoff that starts at one and is to grow by half. -/
def stalling : ExponentialBackoff where
  type := ⟨false, 32⟩
  minDelay := 1
  maxDelay := 10
  factor := .f1_5
  minDelay_nonneg := by decide
  minDelay_le := by decide
  maxDelay_le := by decide
  scalable := by decide

/-- It stays at one. -/
theorem stalling_stalls : 1 ≤ stalling.minDelay ∧ stalling.next none 1 = some (1, 1) ∧
    ¬ stalling.MakesProgress := by
  have hnext : stalling.next none 1 = some (1, 1) := by decide
  refine ⟨by decide, hnext, fun h => ?_⟩
  obtain ⟨delay, hdelay, hlonger⟩ := h.grows [] stalling.init rfl (by decide)
  rw [show stalling.init.current = 1 from rfl, hnext] at hdelay
  cases hdelay
  exact absurd hlonger (by decide)

end ExponentialBackoff

end RoxyGlance.Utility
