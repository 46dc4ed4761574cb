import RoxyGlance.Engine.Placement

/-!
# Compensation for invisible borders

A window is larger than its visible frame, and a relative placement is meant for the frame.  So
`execute` adds the shadow margin of the window to the rectangle it has computed: the offset of the
frame to the position, the sum of both borders to the size.  Adding the offset moves the frame away
from where it should be; it would have to be subtracted.

* `visibleFrame_relativeRect`: the frame has the size it should have, and is off by twice the left
  and top border;
* `alignsFrame_iff`: so it is where it should be exactly for windows without these two borders.

The arithmetic is exact.
-/

namespace RoxyGlance.Engine

/-! ### The rectangle the frame should get -/

/-- `expectedSize` in `execute`. -/
def expectedSize (relativeBounds workArea : Vec4 ℚ) : Vec2 ℚ :=
  (relativeBounds.zw.zip FloatLike.mul workArea.zw).map FloatLike.ceil

/-- `expectedPos` in `execute`. -/
def expectedPos (relativeBounds workArea : Vec4 ℚ) : Vec2 ℚ :=
  workArea.xy.zip FloatLike.add ((relativeBounds.xy.zip FloatLike.mul
    (workArea.zw.zip FloatLike.sub (expectedSize relativeBounds workArea))).map FloatLike.floor)

/-- Position and size together. -/
def expectedFrame (relativeBounds workArea : Vec4 ℚ) : Vec4 ℚ :=
  .concat (expectedPos relativeBounds workArea) (expectedSize relativeBounds workArea)

theorem relativeRect_eq (relativeBounds workArea shadowMargin : Vec4 ℚ) :
    relativeRect relativeBounds workArea shadowMargin
      = ((expectedFrame relativeBounds workArea).zip FloatLike.add shadowMargin).map
        FloatLike.toLong := rfl

/-- Truncation leaves integers alone. -/
theorem toLong_intCast (n : ℤ) : FloatLike.toLong (n : ℚ) = n := by
  show (if (n : ℚ) < 0 then ⌈(n : ℚ)⌉ else ⌊(n : ℚ)⌋) = n
  split
  · exact Int.ceil_intCast n
  · exact Int.floor_intCast n

/-- Whole numbers in all four lanes. -/
def ofLongs (v : Long4) : Vec4 ℚ := v.map FloatLike.ofLong

theorem ofLongs_injective : Function.Injective ofLongs := by
  rintro ⟨ax, ay, az, aw⟩ ⟨bx, bY, bz, bw⟩ h
  simpa only [ofLongs, Vec4.map, FloatLike.ofLong, Vec4.mk.injEq, Int.cast_inj] using h

theorem ofLongs_add (a b : Long4) :
    (ofLongs a).zip FloatLike.add (ofLongs b) = ofLongs (a.zip (· + ·) b) := by
  simp only [ofLongs, Vec4.map, Vec4.zip, FloatLike.ofLong, FloatLike.add, Int.cast_add]

theorem map_toLong_ofLongs (v : Long4) : (ofLongs v).map FloatLike.toLong = v := by
  simp only [ofLongs, Vec4.map, FloatLike.ofLong, toLong_intCast]

/-- On a work area in pixels everything `execute` computes is whole. -/
theorem expectedFrame_toArea (relativeBounds : Vec4 ℚ) (workArea : Long4) :
    ∃ frame : Long4,
      expectedFrame relativeBounds (Monitor.StateCache.toArea workArea) = ofLongs frame := by
  obtain ⟨bx, bY, bz, bw⟩ := relativeBounds
  obtain ⟨left, top, right, bottom⟩ := workArea
  refine ⟨⟨left + ⌊bx * (((right - left : ℤ) : ℚ) - ⌈bz * ((right - left : ℤ) : ℚ)⌉)⌋,
    top + ⌊bY * (((bottom - top : ℤ) : ℚ) - ⌈bw * ((bottom - top : ℤ) : ℚ)⌉)⌋,
    ⌈bz * ((right - left : ℤ) : ℚ)⌉, ⌈bw * ((bottom - top : ℤ) : ℚ)⌉⟩, ?_⟩
  simp only [ofLongs, Vec4.map, FloatLike.ofLong, Int.cast_add]
  rfl

/-! ### Where the frame gets -/

/-- The rectangle of the visible frame, as a position and a size, of a window that is placed at
`placed` and keeps the borders it has. -/
def visibleFrame (outer inner placed : Long4) : Long4 :=
  let left := inner.x - outer.x
  let top := inner.y - outer.y
  let right := outer.z - inner.z
  let bottom := outer.w - inner.w
  ⟨placed.x + left, placed.y + top, placed.z - left - right, placed.w - top - bottom⟩

/-- **What the compensation does**: the frame has the right size, and is twice the left border too
far to the right and twice the top border too far down. -/
theorem visibleFrame_relativeRect (relativeBounds : Vec4 ℚ) (workArea outer inner : Long4)
    {q : Window.Queries ℚ} (houter : q.windowRect = .ok outer) (hinner : q.extendedFrame = .ok inner) :
    ofLongs (visibleFrame outer inner (relativeRect relativeBounds
        (Monitor.StateCache.toArea workArea) (ofLongs (Window.getWindowShadowMargin q).2)))
      = (expectedFrame relativeBounds (Monitor.StateCache.toArea workArea)).zip FloatLike.add
        (ofLongs ⟨2 * (inner.x - outer.x), 2 * (inner.y - outer.y), 0, 0⟩) := by
  obtain ⟨frame, hframe⟩ := expectedFrame_toArea relativeBounds workArea
  rw [relativeRect_eq, hframe, ofLongs_add, map_toLong_ofLongs, ofLongs_add]
  have hmargin : (Window.getWindowShadowMargin q).2 = ⟨inner.x - outer.x, inner.y - outer.y,
      inner.x - outer.x + outer.z - inner.z, inner.y - outer.y + outer.w - inner.w⟩ := by
    rw [Window.getWindowShadowMargin, houter, hinner]
  apply congrArg ofLongs
  simp only [visibleFrame, hmargin, Vec4.zip, Vec4.mk.injEq]
  omega

/-! ### The first call -/

/-- The margin a call works with, remembered or asked for. -/
theorem getShadowMargin_eq {q : Window.Queries ℚ} {outer inner : Long4}
    (houter : q.windowRect = .ok outer) (hinner : q.extendedFrame = .ok inner) {w : Window.State ℚ}
    (hw : ∀ margin ∈ w.shadowMargin, margin = ofLongs (Window.getWindowShadowMargin q).2) :
    ∃ w', w.getShadowMargin q = .ok (ofLongs (Window.getWindowShadowMargin q).2, w') := by
  cases hcached : w.shadowMargin with
  | some margin =>
    refine ⟨w, ?_⟩
    rw [Window.State.getShadowMargin, hcached, ← hw margin hcached]
  | none =>
    refine ⟨{ w with shadowMargin := some (ofLongs (Window.getWindowShadowMargin q).2) }, ?_⟩
    have hok : (Window.getWindowShadowMargin q).1 = HResult.ok := by
      rw [Window.getWindowShadowMargin, houter, hinner]
    have hcheck : Window.checkHResult (Window.getWindowShadowMargin q).1 = .ok () := by
      rw [hok]
      rfl
    rw [Window.State.getShadowMargin, hcached]
    show (Window.checkHResult (Window.getWindowShadowMargin q).1 >>= fun _ => _) = _
    rw [hcheck]
    rfl

/-- The first call of `execute` places the window so that its frame gets the expected rectangle. -/
def AlignsFrame (hmonitor : Monitor.Handle) (relativeBounds : Vec4 ℚ)
    (monitors : Monitor.StateCache ℚ) (q : Window.Queries ℚ) (w : Window.State ℚ)
    (workArea outer inner : Long4) : Prop :=
  ∃ done placed, (Operation.makeRelative hmonitor relativeBounds).execute monitors q w = .ok done ∧
    done.placed = some placed ∧ ofLongs (visibleFrame outer inner placed)
      = expectedFrame relativeBounds (Monitor.StateCache.toArea workArea)

/-- **Where the compensation works**: the frame gets the expected rectangle exactly when the window
has no invisible border on the left and at the top. -/
theorem alignsFrame_iff {hmonitor : Monitor.Handle} {monitors : Monitor.StateCache ℚ}
    {state : Monitor.State ℚ} (hstate : monitors.get hmonitor = some state) {workArea : Long4}
    (hwork : state.workArea = Monitor.StateCache.toArea workArea) {q : Window.Queries ℚ}
    {outer inner : Long4} (houter : q.windowRect = .ok outer) (hinner : q.extendedFrame = .ok inner)
    {w : Window.State ℚ}
    (hw : ∀ margin ∈ w.shadowMargin, margin = ofLongs (Window.getWindowShadowMargin q).2)
    (relativeBounds : Vec4 ℚ) :
    AlignsFrame hmonitor relativeBounds monitors q w workArea outer inner ↔
      inner.x = outer.x ∧ inner.y = outer.y := by
  obtain ⟨w', hmargin⟩ := getShadowMargin_eq houter hinner hw
  have hframe := visibleFrame_relativeRect relativeBounds workArea outer inner houter hinner
  have hfirst : ∃ done,
      (Operation.makeRelative hmonitor relativeBounds).execute monitors q w = .ok done ∧
        done.placed = some (relativeRect relativeBounds (Monitor.StateCache.toArea workArea)
          (ofLongs (Window.getWindowShadowMargin q).2)) := by
    rw [Operation.makeRelative, Operation.execute, hstate]
    simp only [hmargin, hwork]
    exact ⟨_, rfl, rfl⟩
  obtain ⟨first, hfirst, hplaced⟩ := hfirst
  obtain ⟨expected, hexpected⟩ := expectedFrame_toArea relativeBounds workArea
  rw [hexpected, ofLongs_add] at hframe
  constructor
  · rintro ⟨done, placed, hdone, hsome, halign⟩
    rw [hfirst, Except.ok.injEq] at hdone
    rw [← hdone, hplaced, Option.some.injEq] at hsome
    rw [← hsome, hframe, hexpected] at halign
    have hzip := ofLongs_injective halign
    have hx : expected.x + 2 * (inner.x - outer.x) = expected.x := congrArg Vec4.x hzip
    have hy : expected.y + 2 * (inner.y - outer.y) = expected.y := congrArg Vec4.y hzip
    omega
  · rintro ⟨hx, hy⟩
    refine ⟨first, _, hfirst, hplaced, ?_⟩
    rw [hframe, hexpected, hx, hy]
    apply congrArg ofLongs
    simp [Vec4.zip]

/-- A window with resize borders of seven pixels on the left, on the right and at the bottom. -/
def borderedWindow : Window.Queries ℚ :=
  { plainWindow with windowRect := .ok ⟨100, 100, 514, 407⟩,
                     extendedFrame := .ok ⟨107, 100, 507, 400⟩ }

/-- The left half of a screen for that window: its frame starts 14 pixels too far to the right. -/
theorem borderedWindow_notAligned :
    ¬ AlignsFrame 1 leftHalf (Monitor.StateCache.initializeCache [] (singleMonitor 1920 1080))
      borderedWindow {} ⟨0, 0, 1920, 1080⟩ ⟨100, 100, 514, 407⟩ ⟨107, 100, 507, 400⟩ := by
  rintro ⟨done, placed, hdone, hplaced, halign⟩
  cases hdone
  cases hplaced
  exact absurd halign (by decide +kernel)

/-- A window with such borders on the right and at the bottom alone. -/
theorem rightBorderedWindow_aligned :
    AlignsFrame 1 leftHalf (Monitor.StateCache.initializeCache [] (singleMonitor 1920 1080))
      { plainWindow with windowRect := .ok ⟨100, 100, 507, 407⟩,
                         extendedFrame := .ok ⟨100, 100, 500, 400⟩ }
      {} ⟨0, 0, 1920, 1080⟩ ⟨100, 100, 507, 407⟩ ⟨100, 100, 500, 400⟩ ↔
      (100 : ℤ) = 100 ∧ (100 : ℤ) = 100 := by
  have hstate : (Monitor.StateCache.initializeCache [] (singleMonitor 1920 1080)).get 1
      = some (⟨1, 1, ⟨0, 0, 1920, 1080⟩, ⟨0, 0, 1920, 1080⟩⟩ : Monitor.State ℚ) := by
    decide +kernel
  exact alignsFrame_iff hstate (by decide +kernel) rfl rfl (fun margin h => by cases h) leftHalf

end RoxyGlance.Engine
