import RoxyGlance.Monitor
import RoxyGlance.Window

/-!
# Operations

What a rule does to a window.  An absolute placement has its rectangle from the start.  A relative
placement computes it on first use, from the work area of its monitor and the shadow margin of the
window at hand, and keeps it.
-/

namespace RoxyGlance.Engine

variable {F : Type}

/-- An `IOperation`.  The last field of a relative placement is `bounds_`, or `none` while `dirty_`
is set. -/
inductive Operation (F : Type)
  | absolute (bounds : Long4)
  | relative (hmonitor : Monitor.Handle) (relativeBounds : Vec4 F) (bounds : Option Long4)
  deriving DecidableEq, Repr

namespace Operation

/-- A new relative placement; it is dirty. -/
def makeRelative (hmonitor : Monitor.Handle) (relativeBounds : Vec4 F) : Operation F :=
  .relative hmonitor relativeBounds none

end Operation

/-- The rectangle of a relative placement. -/
def relativeRect [FloatLike F] (relativeBounds workArea shadowMargin : Vec4 F) : Long4 :=
  let workSize := workArea.zw
  let expectedSize := (relativeBounds.zw.zip FloatLike.mul workSize).map FloatLike.ceil
  let expectedPos := workArea.xy.zip FloatLike.add
    ((relativeBounds.xy.zip FloatLike.mul (workSize.zip FloatLike.sub expectedSize)).map
      FloatLike.floor)
  let expectedBounds := (Vec4.concat expectedPos expectedSize).zip FloatLike.add shadowMargin
  expectedBounds.map FloatLike.toLong

/-- What one call of `execute` does: its result, the rectangle passed to `SetWindowPos` if it came
to that, and the operation and the window state afterwards. -/
structure Executed (F : Type) where
  hresult : HResult
  placed : Option Long4
  operation : Operation F
  window : Window.State F

/-- `applyWindowRect` -/
def applyWindowRect (q : Window.Queries F) : HResult :=
  match q.setWindowPos with
  | some err => HResult.ofWin32 err
  | none => HResult.ok

/-- `execute` -/
def Operation.execute [FloatLike F] (monitors : Monitor.StateCache F) (q : Window.Queries F)
    (op : Operation F) (w : Window.State F) : Except Fault (Executed F) :=
  match op with
  | .absolute bounds =>
    .ok { hresult := applyWindowRect q, placed := some bounds, operation := op, window := w }
  | .relative _ _ (some bounds) =>
    .ok { hresult := applyWindowRect q, placed := some bounds, operation := op, window := w }
  | .relative hmonitor relativeBounds none =>
    match monitors.get hmonitor with
    | none =>
      .ok { hresult := HResult.kErrorInvalidOperation, placed := none, operation := op, window := w }
    | some state => do
      let (shadowMargin, w) ← w.getShadowMargin q
      let bounds := relativeRect relativeBounds state.workArea shadowMargin
      .ok { hresult := applyWindowRect q
            placed := some bounds
            operation := .relative hmonitor relativeBounds (some bounds)
            window := w }

end RoxyGlance.Engine
