import RoxyGlance.Engine.Compensation
import RoxyGlance.Lib.FractionalSpan

/-!
# A relative placement stays inside its work area

Before the shadow margin is added, the rectangle `execute` computes is a `FractionalSpan` on each
axis: the size is rounded up, the position rounded down from what the size leaves over.

* `expectedFrame_inside`: it lies in the work area, at the edges the bounds ask for, and moves with
  them.

The arithmetic is exact.
-/

namespace RoxyGlance.Engine

/-- Relative bounds that the settings accept. -/
structure InUnit (relativeBounds : Vec4 ℚ) : Prop where
  x : 0 ≤ relativeBounds.x ∧ relativeBounds.x ≤ 1
  y : 0 ≤ relativeBounds.y ∧ relativeBounds.y ≤ 1
  z : 0 ≤ relativeBounds.z ∧ relativeBounds.z ≤ 1
  w : 0 ≤ relativeBounds.w ∧ relativeBounds.w ≤ 1

/-- The rectangle by its spans on the two axes. -/
def spans (relativeBounds : Vec4 ℚ) (workArea : Long4) : Long4 :=
  ⟨workArea.x + FractionalSpan.offset relativeBounds.x relativeBounds.z workArea.z,
    workArea.y + FractionalSpan.offset relativeBounds.y relativeBounds.w workArea.w,
    FractionalSpan.size relativeBounds.z workArea.z,
    FractionalSpan.size relativeBounds.w workArea.w⟩

/-- What `execute` computes on a work area in pixels. -/
theorem expectedFrame_ofLongs (relativeBounds : Vec4 ℚ) (workArea : Long4) :
    expectedFrame relativeBounds (ofLongs workArea) = ofLongs (spans relativeBounds workArea) := by
  obtain ⟨bx, bY, bz, bw⟩ := relativeBounds
  obtain ⟨left, top, width, height⟩ := workArea
  simp only [ofLongs, spans, FractionalSpan.offset, FractionalSpan.size, Vec4.map,
    FloatLike.ofLong, Int.cast_add, Int.cast_sub]
  rfl

/-- One axis of a placement: a span from `pos` over `size` in a range from `start` over `length`,
for the position `x` and the size `w` of the bounds. -/
structure AxisInside (x w : ℚ) (start length pos size : ℤ) : Prop where
  size_eq : size = ⌈w * length⌉
  size_nonneg : 0 ≤ size
  start_le : start ≤ pos
  le_end : pos + size ≤ start + length
  at_start : x = 0 → pos = start
  at_end : x = 1 → pos + size = start + length

theorem axisInside_span {x w : ℚ} (hx : 0 ≤ x ∧ x ≤ 1) (hw : 0 ≤ w ∧ w ≤ 1) (start : ℤ)
    {length : ℤ} (hlength : 0 ≤ length) :
    AxisInside x w start length (start + FractionalSpan.offset x w length)
      (FractionalSpan.size w length) where
  size_eq := rfl
  size_nonneg := FractionalSpan.size_nonneg hw.1 hlength
  start_le := by
    have hoffset := FractionalSpan.offset_nonneg hx.1 hw.2 hlength
    omega
  le_end := by
    have hend := FractionalSpan.offset_add_size_le hx.2 hw.2 hlength
    omega
  at_start := by
    rintro rfl
    rw [FractionalSpan.offset_zero, add_zero]
  at_end := by
    rintro rfl
    rw [FractionalSpan.offset_one]
    omega

/-- **Relative placement stays inside the work area**: for every work area of whole pixels the
rectangle is whole, has the size the bounds ask for, rounded up, lies in the work area and touches
the edges that positions 0 and 1 stand for; the shadow margin is added to this rectangle; and with
the size fixed it does not move back when the position grows. -/
theorem expectedFrame_inside {relativeBounds : Vec4 ℚ} (hbounds : InUnit relativeBounds)
    {workArea : Long4} (hz : 0 ≤ workArea.z) (hw : 0 ≤ workArea.w) :
    ∃ frame : Long4, expectedFrame relativeBounds (ofLongs workArea) = ofLongs frame ∧
      (∀ margin : Long4, relativeRect relativeBounds (ofLongs workArea) (ofLongs margin) =
        frame.zip (· + ·) margin) ∧
      AxisInside relativeBounds.x relativeBounds.z workArea.x workArea.z frame.x frame.z ∧
      AxisInside relativeBounds.y relativeBounds.w workArea.y workArea.w frame.y frame.w ∧
      ∀ bounds' : Vec4 ℚ, InUnit bounds' → bounds'.zw = relativeBounds.zw →
        ∀ frame' : Long4, expectedFrame bounds' (ofLongs workArea) = ofLongs frame' →
          (relativeBounds.x ≤ bounds'.x → frame.x ≤ frame'.x) ∧
            (relativeBounds.y ≤ bounds'.y → frame.y ≤ frame'.y) := by
  refine ⟨spans relativeBounds workArea, expectedFrame_ofLongs relativeBounds workArea, ?_,
    axisInside_span hbounds.x hbounds.z _ hz, axisInside_span hbounds.y hbounds.w _ hw, ?_⟩
  · intro margin
    rw [relativeRect_eq, expectedFrame_ofLongs, ofLongs_add, map_toLong_ofLongs]
  · intro bounds' _ hsize frame' hframe'
    rw [expectedFrame_ofLongs] at hframe'
    obtain rfl := ofLongs_injective hframe'
    have hsizez : bounds'.z = relativeBounds.z := congrArg Vec2.x hsize
    have hsizew : bounds'.w = relativeBounds.w := congrArg Vec2.y hsize
    simp only [spans, hsizez, hsizew]
    refine ⟨fun h => ?_, fun h => ?_⟩
    · have hmono := FractionalSpan.offset_mono h hbounds.z.2 hz
      omega
    · have hmono := FractionalSpan.offset_mono h hbounds.w.2 hw
      omega

/-- A third of the way from the left, at the lower edge of a monitor to the left of the first. -/
theorem expectedFrame_inside_lowerEdge :
    ∃ frame : Long4, expectedFrame ⟨1 / 3, 1, 1 / 2, 1 / 7⟩ (ofLongs ⟨-1921, 0, 1921, 1080⟩)
        = ofLongs frame ∧
      (∀ margin : Long4, relativeRect (⟨1 / 3, 1, 1 / 2, 1 / 7⟩ : Vec4 ℚ)
        (ofLongs ⟨-1921, 0, 1921, 1080⟩) (ofLongs margin) = frame.zip (· + ·) margin) ∧
      AxisInside (1 / 3) (1 / 2) (-1921) 1921 frame.x frame.z ∧
      AxisInside 1 (1 / 7) 0 1080 frame.y frame.w ∧
      ∀ bounds' : Vec4 ℚ, InUnit bounds' → bounds'.zw = ⟨1 / 2, 1 / 7⟩ →
        ∀ frame' : Long4, expectedFrame bounds' (ofLongs ⟨-1921, 0, 1921, 1080⟩) = ofLongs frame' →
          (1 / 3 ≤ bounds'.x → frame.x ≤ frame'.x) ∧ (1 ≤ bounds'.y → frame.y ≤ frame'.y) :=
  expectedFrame_inside ⟨by norm_num, by norm_num, by norm_num, by norm_num⟩
    (by decide) (by decide)

end RoxyGlance.Engine
