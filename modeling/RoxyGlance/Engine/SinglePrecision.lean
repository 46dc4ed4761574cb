import RoxyGlance.Engine.Operation
import RoxyGlance.Lib.Binary32Value
import RoxyGlance.Lib.RoundedSpan
import RoxyGlance.Numeric.FloatRounding

/-!
# Relative placement in single precision

The vectors `execute` computes with are registers of four numbers in single precision.

* `placeRegisters_eq`: the registers compute what `relativeRect` computes lane by lane;
* `placeRegisters_features`: the rectangle is the same with every instruction set, whatever the
  registers hold;
* `relativeRect_single_inside`: for bounds between 0 and 1 and areas of up to `2^22` pixels the
  rectangle lies in the work area, at the edges the bounds ask for; its size is the exact one or one
  pixel less, its position at most one pixel beyond the exact one for that size.
-/

namespace RoxyGlance.Engine

open Sse Binary32 Numeric

/-- A number in single precision, on a processor with the given instructions. -/
structure Single (features : Features) where
  bits : Bits

section

variable {features : Features}

instance : FloatLike (Single features) where
  lt a b := Ieee.lt (toIeee a.bits) (toIeee b.bits)
  le a b := Ieee.le (toIeee a.bits) (toIeee b.bits)
  ne a b := Ieee.ne (toIeee a.bits) (toIeee b.bits)
  ofLong n := ⟨ofInt32 (BitVec.ofInt 32 n)⟩
  half := ⟨0x3F000000⟩
  add a b := ⟨add a.bits b.bits⟩
  sub a b := ⟨sub a.bits b.bits⟩
  mul a b := ⟨mul a.bits b.bits⟩
  ceil a := ⟨FloatStorage.ceil features (setPs1 a.bits) 0⟩
  floor a := ⟨FloatStorage.floor features (setPs1 a.bits) 0⟩
  toLong a := (toInt32 .zero a.bits).toInt

end

/-! ### The registers -/

/-- What the first call of `execute` computes: `bounds_`, from `relative_bounds_`, the work area and
the shadow margin. -/
def placeRegisters (features : Features) (relativeBounds workArea shadowMargin : Reg) : Reg :=
  let xy v := movelhPs v v
  let zw v := movehlPs v v
  let workSize := zw workArea
  let expectedSize := FloatStorage.ceil features (mulPs (zw relativeBounds) workSize)
  let expectedPos := addPs (xy workArea)
    (FloatStorage.floor features (mulPs (xy relativeBounds) (subPs workSize expectedSize)))
  let expectedBounds := addPs (movelhPs expectedPos expectedSize) shadowMargin
  FloatStorage.ltrunc expectedBounds

/-- The numbers in a register. -/
def lanes (features : Features) (v : Reg) : Vec4 (Single features) :=
  ⟨⟨v 0⟩, ⟨v 1⟩, ⟨v 2⟩, ⟨v 3⟩⟩

/-- Rounding looks at one lane at a time. -/
theorem ceil_lane (features : Features) (v : Reg) (i : Fin 4) :
    FloatStorage.ceil features v i = FloatStorage.ceil features (setPs1 (v i)) 0 := by
  unfold FloatStorage.ceil
  split_ifs <;> rfl

theorem floor_lane (features : Features) (v : Reg) (i : Fin 4) :
    FloatStorage.floor features v i = FloatStorage.floor features (setPs1 (v i)) 0 := by
  unfold FloatStorage.floor
  split_ifs <;> rfl

section Axis

variable (features : Features)

/-- The size on one axis. -/
def axisSize (w length : Bits) : Bits := FloatStorage.ceil features (setPs1 (mul w length)) 0

/-- The position on one axis. -/
def axisPos (x w start length : Bits) : Bits :=
  add start
    (FloatStorage.floor features (setPs1 (mul x (sub length (axisSize features w length)))) 0)

/-- What each lane is computed from. -/
theorem placeRegisters_apply (relativeBounds workArea shadowMargin : Reg) :
    placeRegisters features relativeBounds workArea shadowMargin =
      ![toInt32 .zero (add (axisPos features (relativeBounds 0) (relativeBounds 2)
          (workArea 0) (workArea 2)) (shadowMargin 0)),
        toInt32 .zero (add (axisPos features (relativeBounds 1) (relativeBounds 3)
          (workArea 1) (workArea 3)) (shadowMargin 1)),
        toInt32 .zero (add (axisSize features (relativeBounds 2) (workArea 2)) (shadowMargin 2)),
        toInt32 .zero (add (axisSize features (relativeBounds 3) (workArea 3))
          (shadowMargin 3))] := by
  funext i
  fin_cases i
  · show toInt32 .zero (add (add (workArea 0) (FloatStorage.floor features _ 0)) _) = _
    rw [floor_lane]
    show toInt32 .zero (add (add (workArea 0) (FloatStorage.floor features
      (setPs1 (mul (relativeBounds 0) (sub (workArea 2) (FloatStorage.ceil features _ 0)))) 0)) _) = _
    rw [ceil_lane]
    rfl
  · show toInt32 .zero (add (add (workArea 1) (FloatStorage.floor features _ 1)) _) = _
    rw [floor_lane]
    show toInt32 .zero (add (add (workArea 1) (FloatStorage.floor features
      (setPs1 (mul (relativeBounds 1) (sub (workArea 3) (FloatStorage.ceil features _ 1)))) 0)) _) = _
    rw [ceil_lane]
    rfl
  · show toInt32 .zero (add (FloatStorage.ceil features _ 0) _) = _
    rw [ceil_lane]
    rfl
  · show toInt32 .zero (add (FloatStorage.ceil features _ 1) _) = _
    rw [ceil_lane]
    rfl

/-- **The registers compute lane by lane.** -/
theorem placeRegisters_eq (relativeBounds workArea shadowMargin : Reg) :
    let r := placeRegisters features relativeBounds workArea shadowMargin
    relativeRect (lanes features relativeBounds) (lanes features workArea)
      (lanes features shadowMargin) = ⟨(r 0).toInt, (r 1).toInt, (r 2).toInt, (r 3).toInt⟩ := by
  rw [placeRegisters_apply]
  rfl

end Axis

/-! ### The instruction set -/

theorem toIeee_ceil (features : Features) (b : Bits) :
    toIeee (FloatStorage.ceil features (setPs1 b) 0) = toIeee (roundToIntegral .up b) :=
  RoundingOp.ceil.toIeee_apply features (setPs1 b) 0

theorem toIeee_floor (features : Features) (b : Bits) :
    toIeee (FloatStorage.floor features (setPs1 b) 0) = toIeee (roundToIntegral .down b) :=
  RoundingOp.floor.toIeee_apply features (setPs1 b) 0

section

variable (features features' : Features)

/-- The size stands for the same number. -/
theorem toIeee_axisSize (w length : Bits) :
    toIeee (axisSize features w length) = toIeee (axisSize features' w length) := by
  rw [axisSize, axisSize, toIeee_ceil, toIeee_ceil]

/-- So does the position. -/
theorem toIeee_axisPos (x w start length : Bits) :
    toIeee (axisPos features x w start length) = toIeee (axisPos features' x w start length) := by
  refine toIeee_add_congr rfl ?_
  rw [toIeee_floor, toIeee_floor]
  apply toIeee_roundToIntegral_congr
  apply toIeee_mul_congr rfl
  exact toIeee_sub_congr rfl (toIeee_axisSize features features' w length)

/-- **The rectangle does not depend on the instruction set**, whatever the registers hold. -/
theorem placeRegisters_features (relativeBounds workArea shadowMargin : Reg) :
    placeRegisters features relativeBounds workArea shadowMargin =
      placeRegisters features' relativeBounds workArea shadowMargin := by
  have hsize : ∀ w length margin : Bits,
      toInt32 .zero (add (axisSize features w length) margin) =
        toInt32 .zero (add (axisSize features' w length) margin) := fun w length margin =>
    toInt32_congr .zero (toIeee_add_congr (toIeee_axisSize features features' w length) rfl)
  have hpos : ∀ x w start length margin : Bits,
      toInt32 .zero (add (axisPos features x w start length) margin) =
        toInt32 .zero (add (axisPos features' x w start length) margin) :=
    fun x w start length margin =>
      toInt32_congr .zero (toIeee_add_congr (toIeee_axisPos features features' x w start length) rfl)
  rw [placeRegisters_apply, placeRegisters_apply, hsize, hsize, hpos, hpos]

end

/-! ### The rectangle in the work area -/

namespace Single

variable {features : Features}

/-- The number, if it is finite. -/
def toRat (a : Single features) : ℚ := Binary32.toRat a.bits

/-- A bound that the settings accept. -/
def InUnit (a : Single features) : Prop :=
  FloatLike.le (FloatLike.ofLong 0) a = true ∧ FloatLike.le a (FloatLike.ofLong 1) = true

instance (a : Single features) : Decidable a.InUnit := instDecidableAnd

/-- An integer in single precision. -/
theorem isWhole_ofLong {n : ℤ} (h : n.natAbs ≤ 2 ^ 24) :
    IsWhole (FloatLike.ofLong n : Single features).bits n := by
  have hint : (BitVec.ofInt 32 n).toInt = n :=
    BitVec.toInt_ofInt_eq_self (by decide) (by omega) (by omega)
  have hwhole : IsWhole (ofInt32 (BitVec.ofInt 32 n)) (BitVec.ofInt 32 n).toInt :=
    isWhole_ofInt32 (by rwa [hint])
  rwa [hint] at hwhole

/-- The comparisons let only numbers from zero to one pass. -/
theorem InUnit.bounds {a : Single features} (h : a.InUnit) :
    ord a.bits < infinity ∧ 0 ≤ a.toRat ∧ a.toRat ≤ 1 := by
  obtain ⟨hlo, hhi⟩ := h
  change Ieee.le (toIeee (FloatLike.ofLong 0 : Single features).bits) (toIeee a.bits) = true at hlo
  change Ieee.le (toIeee a.bits) (toIeee (FloatLike.ofLong 1 : Single features).bits) = true at hhi
  rw [isWhole_ofLong (by decide)] at hlo
  rw [isWhole_ofLong (by decide)] at hhi
  obtain ⟨z, hz, hz0, hz1⟩ := Ieee.exists_finite_of_mem hlo hhi
  obtain ⟨hord, hunits⟩ := toIeee_eq_finite_iff.1 hz
  refine ⟨hord, ?_, ?_⟩
  · rw [toRat, Binary32.toRat, hunits, le_div_iff₀ whole_rat_pos, zero_mul]
    exact_mod_cast (zero_mul (whole : ℤ)).ge.trans hz0
  · rw [toRat, Binary32.toRat, hunits, div_le_one whole_rat_pos]
    exact_mod_cast hz1.trans (one_mul (whole : ℤ)).le

/-- The result of a conversion back. -/
theorem toLong_of_isWhole {a : Single features} {n : ℤ} (ha : IsWhole a.bits n)
    (hn : n.natAbs ≤ 2 ^ 24) : FloatLike.toLong a = n := by
  show (toInt32 .zero a.bits).toInt = n
  rw [ha.toInt32 (by omega) (by omega)]
  exact BitVec.toInt_ofInt_eq_self (by decide) (by omega) (by omega)

/-- Rounding up and down give whole numbers. -/
theorem isWhole_ceil {a : Single features} (h : ord a.bits < infinity) :
    IsWhole (FloatLike.ceil a).bits ⌈a.toRat⌉ :=
  (toIeee_ceil features a.bits).trans (isWhole_up h)

theorem isWhole_floor {a : Single features} (h : ord a.bits < infinity) :
    IsWhole (FloatLike.floor a).bits ⌊a.toRat⌋ :=
  (toIeee_floor features a.bits).trans (isWhole_down h)

/-- The product of a bound and a whole number, as a span needs it. -/
theorem roundedTo_mul {a b : Single features} {n : ℤ} (ha : a.InUnit) (hb : IsWhole b.bits n)
    (hn : 0 ≤ n) (hmax : n ≤ 2 ^ 24) :
    ord (FloatLike.mul a b).bits < infinity ∧
      RoundedTo (2 ^ 24) (a.toRat * n) (FloatLike.mul a b).toRat := by
  obtain ⟨hord, hlo, hhi⟩ := ha.bounds
  obtain ⟨k, rfl⟩ := Int.eq_ofNat_of_zero_le hn
  obtain ⟨hfinite, hround⟩ := mul_whole hord hlo hhi hb (by omega)
  refine ⟨hfinite, fun j hj hjmax h => ?_, fun j hj hjmax h => ?_⟩
  · obtain ⟨m, rfl⟩ := Int.eq_ofNat_of_zero_le hj
    exact (hround m (by omega)).1 h
  · obtain ⟨m, rfl⟩ := Int.eq_ofNat_of_zero_le hj
    exact (hround m (by omega)).2 h

section Axis

variable {x w : Single features} {start length : ℤ}

/-- A coordinate or a length of a desktop: nothing near it needs rounding. -/
def IsSmall (n : ℤ) : Prop := n.natAbs ≤ 2 ^ 22

instance (n : ℤ) : Decidable (IsSmall n) := Nat.decLe _ _

/-- The size on one axis, before the margin. -/
def spanSize (w : Single features) (length : ℤ) : Single features :=
  FloatLike.ceil (FloatLike.mul w (FloatLike.ofLong length))

/-- The position on one axis, before the margin. -/
def spanPos (x w : Single features) (start length : ℤ) : Single features :=
  FloatLike.add (FloatLike.ofLong start) (FloatLike.floor
    (FloatLike.mul x (FloatLike.sub (FloatLike.ofLong length) (spanSize w length))))

/-- **One axis**: the span is whole and inside, and adding a margin to it is exact. -/
theorem exists_span (hx : x.InUnit) (hw : w.InUnit) (hstart : IsSmall start) (hlength : IsSmall length)
    (hnonneg : 0 ≤ length) : ∃ size offset : ℤ,
      RoundedSpan x.toRat w.toRat length size offset ∧
      IsWhole (spanSize w length).bits size ∧
      IsWhole (spanPos x w start length).bits (start + offset) := by
  obtain ⟨-, hxbounds⟩ := hx.bounds
  obtain ⟨-, hwbounds⟩ := hw.bounds
  unfold IsSmall at hstart hlength
  have hbound : length ≤ 2 ^ 24 := by omega
  have hlengthWhole : IsWhole (FloatLike.ofLong length : Single features).bits length :=
    isWhole_ofLong (by omega)
  have hstartWhole : IsWhole (FloatLike.ofLong start : Single features).bits start :=
    isWhole_ofLong (by omega)
  obtain ⟨hsizeFinite, hsizeRounded⟩ := roundedTo_mul hw hlengthWhole hnonneg hbound
  obtain ⟨hsizeNonneg, hsizeLe⟩ := hsizeRounded.size_bounds hwbounds hnonneg hbound
  have hsizeWhole : IsWhole (spanSize w length).bits _ := isWhole_ceil hsizeFinite
  -- what the size leaves over is computed exactly
  have hrestWhole : IsWhole (FloatLike.sub (FloatLike.ofLong length) (spanSize w length)).bits _ :=
    hlengthWhole.sub hsizeWhole (by omega)
  obtain ⟨hoffsetFinite, hoffsetRounded⟩ := roundedTo_mul hx hrestWhole (by omega) (by omega)
  have hspan := RoundedSpan.of_rounded hxbounds hwbounds hnonneg hbound hsizeRounded hoffsetRounded
  have hoffsetNonneg := hspan.offset_nonneg
  have hinside := hspan.inside
  refine ⟨_, _, hspan, hsizeWhole, ?_⟩
  exact hstartWhole.add (isWhole_floor hoffsetFinite) (by omega)

/-- The span is small, too. -/
theorem span_natAbs_le {p q : ℚ} {size offset : ℤ}
    (h : RoundedSpan p q length size offset) (hstart : IsSmall start) (hlength : IsSmall length) :
    (start + offset).natAbs ≤ 2 ^ 23 ∧ size.natAbs ≤ 2 ^ 23 := by
  have hoffset := h.offset_nonneg
  have hsize := h.size_nonneg
  have hinside := h.inside
  unfold IsSmall at hstart hlength
  omega

/-- A number of pixels that a margin is added to. -/
theorem toLong_add_margin {a : Single features} {n margin : ℤ} (ha : IsWhole a.bits n)
    (hn : n.natAbs ≤ 2 ^ 23) (hmargin : IsSmall margin) :
    FloatLike.toLong (FloatLike.add a (FloatLike.ofLong margin)) = n + margin := by
  unfold IsSmall at hmargin
  have hmarginWhole : IsWhole (FloatLike.ofLong margin : Single features).bits margin :=
    isWhole_ofLong (by omega)
  have hsum : (n + margin).natAbs ≤ 2 ^ 24 := by omega
  exact toLong_of_isWhole (ha.add hmarginWhole hsum) hsum

end Axis

end Single

open Single

/-- Every coordinate is small. -/
def AreSmall (v : Long4) : Prop := IsSmall v.x ∧ IsSmall v.y ∧ IsSmall v.z ∧ IsSmall v.w

instance (v : Long4) : Decidable (AreSmall v) := by
  unfold AreSmall
  infer_instance

/-- **Relative placement in single precision stays inside the work area.**  For bounds between 0 and 1
and a work area of whole pixels, with every instruction set, the rectangle before the shadow margin is
whole and lies in the work area; a position of 0 or 1 is at its edge; the size is that of exact
arithmetic or one pixel less, the position is the exact one for the computed size or one pixel more;
and the margin is added exactly. -/
theorem relativeRect_single_inside {features : Features} {relativeBounds : Vec4 (Single features)}
    (hx : relativeBounds.x.InUnit) (hy : relativeBounds.y.InUnit) (hz : relativeBounds.z.InUnit)
    (hw : relativeBounds.w.InUnit) {workArea margin : Long4} (hwork : AreSmall workArea)
    (hmargin : AreSmall margin) (hwidth : 0 ≤ workArea.z) (hheight : 0 ≤ workArea.w) :
    ∃ frame : Long4,
      relativeRect relativeBounds (workArea.map FloatLike.ofLong) (margin.map FloatLike.ofLong) =
        frame.zip (· + ·) margin ∧
      RoundedSpan relativeBounds.x.toRat relativeBounds.z.toRat workArea.z frame.z
        (frame.x - workArea.x) ∧
      RoundedSpan relativeBounds.y.toRat relativeBounds.w.toRat workArea.w frame.w
        (frame.y - workArea.y) := by
  obtain ⟨bx, bY, bz, bw⟩ := relativeBounds
  obtain ⟨left, top, width, height⟩ := workArea
  obtain ⟨hleft, htop, hwidthSmall, hheightSmall⟩ := hwork
  obtain ⟨hm1, hm2, hm3, hm4⟩ := hmargin
  obtain ⟨sizeX, offsetX, hspanX, hsizeX, hposX⟩ := exists_span hx hz hleft hwidthSmall hwidth
  obtain ⟨sizeY, offsetY, hspanY, hsizeY, hposY⟩ := exists_span hy hw htop hheightSmall hheight
  obtain ⟨hposXSmall, hsizeXSmall⟩ := span_natAbs_le hspanX hleft hwidthSmall
  obtain ⟨hposYSmall, hsizeYSmall⟩ := span_natAbs_le hspanY htop hheightSmall
  refine ⟨⟨left + offsetX, top + offsetY, sizeX, sizeY⟩, ?_, ?_, ?_⟩
  · have h1 := toLong_add_margin hposX hposXSmall hm1
    have h2 := toLong_add_margin hposY hposYSmall hm2
    have h3 := toLong_add_margin hsizeX hsizeXSmall hm3
    have h4 := toLong_add_margin hsizeY hsizeYSmall hm4
    simp only [Vec4.zip, ← h1, ← h2, ← h3, ← h4]
    rfl
  · rwa [add_sub_cancel_left]
  · rwa [add_sub_cancel_left]

/-- A third of the way from the left, at the lower edge of a monitor to the left of the first. -/
theorem relativeRect_single_inside_lowerEdge :
    ∃ frame : Long4,
      relativeRect (⟨⟨0x3EAAAAAB⟩, ⟨0x3F800000⟩, ⟨0x3F000000⟩, ⟨0x3E124925⟩⟩ :
          Vec4 (Single ⟨true, true, true⟩))
        (Vec4.map FloatLike.ofLong ⟨-1921, 0, 1921, 1080⟩)
        (Vec4.map FloatLike.ofLong ⟨-7, 0, 14, 7⟩) = frame.zip (· + ·) ⟨-7, 0, 14, 7⟩ ∧
      RoundedSpan (Binary32.toRat 0x3EAAAAAB) (Binary32.toRat 0x3F000000) 1921 frame.z
        (frame.x - -1921) ∧
      RoundedSpan (Binary32.toRat 0x3F800000) (Binary32.toRat 0x3E124925) 1080 frame.w
        (frame.y - 0) :=
  relativeRect_single_inside (by decide +kernel) (by decide +kernel) (by decide +kernel)
    (by decide +kernel) (by decide) (by decide) (by decide) (by decide)

end RoxyGlance.Engine
