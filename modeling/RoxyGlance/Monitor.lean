import RoxyGlance.Fault
import RoxyGlance.Numeric

/-!
# Monitors

The cache of monitor states, keyed by handle.  `initializeCache` enumerates the monitors anew; it
replaces the cache when the enumeration succeeds and leaves it alone when it fails.
-/

namespace RoxyGlance.Monitor

/-- An `HMONITOR` other than null. -/
abbrev Handle := ℕ

/-- `monitor::State`, with the fields the compiler and the operations use. -/
structure State (F : Type) where
  handle : Handle
  id : ℤ
  displayArea : Vec4 F
  workArea : Vec4 F
  deriving DecidableEq, Repr

/-- `monitor::StateCache` -/
abbrev StateCache (F : Type) := List (State F)

namespace StateCache

variable {F : Type}

/-- `get` -/
def get (cache : StateCache F) (hmonitor : Handle) : Option (State F) :=
  cache.find? fun state => decide (state.handle = hmonitor)

/-- `findById` -/
def findById (cache : StateCache F) (id : ℤ) : Option (State F) :=
  cache.find? fun state => decide (state.id = id)

/-- The answer of `GetMonitorInfoW`: the work area as edges, and the display number. -/
structure Info where
  rcMonitor : Long4
  rcWork : Long4
  deviceId : ℤ
  deriving DecidableEq, Repr

/-- One monitor as `EnumDisplayMonitors` reports it; `info` is `none` when `GetMonitorInfoW`
fails. -/
structure Enumerated where
  handle : Handle
  rect : Long4
  info : Option Info
  deriving DecidableEq, Repr

/-- Edges as a position and a size, in single precision. -/
def toArea [FloatLike F] (rect : Long4) : Vec4 F :=
  (Vec4.mk rect.x rect.y (rect.z - rect.x) (rect.w - rect.y)).map FloatLike.ofLong

/-- The equality of vectors is that of the lanes. -/
def sameArea [FloatLike F] (a b : Vec4 F) : Bool :=
  !(FloatLike.ne a.x b.x || FloatLike.ne a.y b.y || FloatLike.ne a.z b.z || FloatLike.ne a.w b.w)

/-- `EnumDisplayMonitorsCallback` over all monitors; `none` when one of them cannot be read.  A
second monitor with the same rectangle is a mirror and skipped. -/
def enumerate [FloatLike F] : StateCache F → List Enumerated → Option (StateCache F)
  | states, [] => some states
  | states, m :: monitors =>
    let displayArea : Vec4 F := toArea m.rect
    if states.any fun state => sameArea state.displayArea displayArea then
      enumerate states monitors
    else match m.info with
      | none => none
      | some info =>
        let state : State F :=
          { handle := m.handle
            id := info.deviceId
            displayArea := toArea info.rcMonitor
            workArea := toArea info.rcWork }
        enumerate (states ++ [state]) monitors

/-- `initialize`, on what the system reports; `onDisplayChanged` is a call of it. -/
def initializeCache [FloatLike F] (cache : StateCache F) (monitors : List Enumerated) : StateCache F :=
  match monitors with
  | [] => []
  | _ => (enumerate [] monitors).getD cache

end StateCache

end RoxyGlance.Monitor
