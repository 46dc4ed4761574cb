import RoxyGlance.Engine.Operation
import RoxyGlance.Lib.Run

/-!
# Repeated relative placement

One relative placement serves many windows over a long time, while monitors change and windows
move.  Its rectangle is computed on the first call and kept from then on: nothing sets `dirty_`
again.

* `execute_fresh_of_current`: as long as every call finds the work area and the shadow margin the
  rectangle was computed from, every call places its window as a fresh computation would;
* `execute_stale`: a change of the work area between two calls goes unnoticed.
-/

namespace RoxyGlance.Engine

variable {F : Type} [FloatLike F]

/-- The state around one relative placement: the monitor cache, the window states by handle, and
`bounds_` (`none` while `dirty_` is set).  `filledWith` is not in the program; it records the work
area and the shadow margin from which `bounds_` was computed. -/
structure Placement (F : Type) where
  monitors : Monitor.StateCache F
  windows : ℕ → Window.State F
  bounds : Option Long4
  filledWith : Option (Vec4 F × Vec4 F)

namespace Placement

/-- A placement that has just been compiled. -/
def start (monitors : Monitor.StateCache F) (windows : ℕ → Window.State F) : Placement F :=
  { monitors, windows, bounds := none, filledWith := none }

/-- What can happen: a call of `execute`, with the answers of the system at that moment; a display
change, with the monitors there are now; a window that moves. -/
inductive Event (F : Type)
  | execute (hwnd : ℕ) (q : Window.Queries F)
  | displayChanged (monitors : List Monitor.StateCache.Enumerated)
  | locationChanged (hwnd : ℕ)

variable (hmonitor : Monitor.Handle) (relativeBounds : Vec4 F)

/-- The call of `execute` for a window. -/
def call (s : Placement F) (hwnd : ℕ) (q : Window.Queries F) : Except Fault (Executed F) :=
  (Operation.relative hmonitor relativeBounds s.bounds).execute s.monitors q (s.windows hwnd)

/-- The work area in the monitor cache and the window's shadow margin, as they are now. -/
def currentInputs (s : Placement F) (hwnd : ℕ) (q : Window.Queries F) :
    Option (Vec4 F × Vec4 F) :=
  match s.monitors.get hmonitor, (s.windows hwnd).getShadowMargin q with
  | some state, .ok (margin, _) => some (state.workArea, margin)
  | _, _ => none

/-- The rectangle an operation keeps. -/
def keptBounds : Operation F → Option Long4
  | .absolute bounds => some bounds
  | .relative _ _ bounds => bounds

/-- One event.  A call that throws ends the program, so what it leaves behind does not matter. -/
def step (s : Placement F) : Event F → Placement F
  | .execute hwnd q =>
    match s.call hmonitor relativeBounds hwnd q with
    | .ok done =>
      { s with
        windows := Function.update s.windows hwnd done.window
        bounds := keptBounds done.operation
        filledWith := if s.bounds = none ∧ keptBounds done.operation ≠ none then
            s.currentInputs hmonitor hwnd q
          else s.filledWith }
    | .error _ => s
  | .displayChanged monitors => { s with monitors := s.monitors.initializeCache monitors }
  | .locationChanged hwnd =>
    { s with windows :=
        Function.update s.windows hwnd (s.windows hwnd).invalidateWindowLocation }

/-- A call that succeeds passes on the rectangle for the current work area and shadow margin. -/
def PlacesFresh (s : Placement F) : Event F → Prop
  | .execute hwnd q => ∀ done, s.call hmonitor relativeBounds hwnd q = .ok done →
      done.hresult.failed = false →
      ∃ workArea margin, s.currentInputs hmonitor hwnd q = some (workArea, margin) ∧
        done.placed = some (relativeRect relativeBounds workArea margin)
  | .displayChanged _ => True
  | .locationChanged _ => True

/-- A call finds the rectangle still to be computed, or the same work area and shadow margin that
it was computed from. -/
def StillCurrent (s : Placement F) : Event F → Prop
  | .execute hwnd q => s.bounds = none ∨ s.currentInputs hmonitor hwnd q = s.filledWith
  | .displayChanged _ => True
  | .locationChanged _ => True

/-- A rectangle that is kept was computed from the recorded work area and margin. -/
def Recorded (s : Placement F) : Prop :=
  ∀ bounds, s.bounds = some bounds → ∃ workArea margin,
    s.filledWith = some (workArea, margin) ∧ bounds = relativeRect relativeBounds workArea margin

variable {hmonitor relativeBounds} {s : Placement F} {hwnd : ℕ} {q : Window.Queries F}
variable {done : Executed F}

/-! ### One call -/

/-- A call with a rectangle passes it on and changes nothing. -/
theorem call_of_bounds {bounds : Long4} (h : s.bounds = some bounds)
    (hcall : s.call hmonitor relativeBounds hwnd q = .ok done) :
    done.placed = some bounds ∧ keptBounds done.operation = some bounds := by
  simp only [call, h, Operation.execute] at hcall
  cases hcall
  exact ⟨rfl, rfl⟩

/-- A call without a rectangle finds no monitor and fails, or computes the rectangle from the
current work area and margin, passes it on and keeps it. -/
theorem call_of_dirty (h : s.bounds = none)
    (hcall : s.call hmonitor relativeBounds hwnd q = .ok done) :
    (done.hresult.failed = true ∧ keptBounds done.operation = none) ∨
    ∃ workArea margin, s.currentInputs hmonitor hwnd q = some (workArea, margin) ∧
      done.placed = some (relativeRect relativeBounds workArea margin) ∧
      keptBounds done.operation = some (relativeRect relativeBounds workArea margin) := by
  simp only [call, h, Operation.execute] at hcall
  cases hstate : s.monitors.get hmonitor with
  | none =>
    simp only [hstate] at hcall
    cases hcall
    have hfailed : HResult.kErrorInvalidOperation.failed = true := by decide
    exact Or.inl ⟨hfailed, rfl⟩
  | some state =>
    simp only [hstate] at hcall
    obtain ⟨⟨margin, w⟩, hmargin, hrest⟩ := bind_eq_ok.1 hcall
    cases hrest
    refine Or.inr ⟨state.workArea, margin, ?_, rfl, rfl⟩
    simp only [currentInputs, hstate, hmargin]

/-! ### Runs -/

/-- Every step keeps the record truthful. -/
theorem recorded_step (e : Event F) (h : s.Recorded relativeBounds) :
    (s.step hmonitor relativeBounds e).Recorded relativeBounds := by
  cases e with
  | displayChanged monitors => exact h
  | locationChanged hwnd => exact h
  | execute hwnd q =>
    simp only [step]
    cases hcall : s.call hmonitor relativeBounds hwnd q with
    | error fault => exact h
    | ok done =>
      intro bounds hbounds
      cases hkept : s.bounds with
      | some kept =>
        have hsame := (call_of_bounds hkept hcall).2
        obtain ⟨workArea, margin, hfilled, hrect⟩ := h kept hkept
        simp only [hsame, Option.some.injEq] at hbounds
        subst hbounds
        exact ⟨workArea, margin, by simpa using hfilled, hrect⟩
      | none =>
        rcases call_of_dirty hkept hcall with ⟨-, hnone⟩ | ⟨workArea, margin, hinputs, -, hnew⟩
        · simp [hnone] at hbounds
        · simp only [hnew, Option.some.injEq] at hbounds
          exact ⟨workArea, margin, by simp [hnew, hinputs], hbounds.symm⟩

/-- Under a truthful record, a call that is still current is fresh. -/
theorem placesFresh_of_stillCurrent {e : Event F} (hrecorded : s.Recorded relativeBounds)
    (h : s.StillCurrent hmonitor e) : s.PlacesFresh hmonitor relativeBounds e := by
  cases e with
  | displayChanged monitors => trivial
  | locationChanged hwnd => trivial
  | execute hwnd q =>
    intro done hcall hsucceeded
    cases hkept : s.bounds with
    | none =>
      rcases call_of_dirty hkept hcall with ⟨hfailed, -⟩ | ⟨workArea, margin, hinputs, hplaced, -⟩
      · rw [hfailed] at hsucceeded
        cases hsucceeded
      · exact ⟨workArea, margin, hinputs, hplaced⟩
    | some kept =>
      have hcurrent : s.currentInputs hmonitor hwnd q = s.filledWith :=
        h.resolve_left (by simp [hkept])
      obtain ⟨workArea, margin, hfilled, hrect⟩ := hrecorded kept hkept
      refine ⟨workArea, margin, hcurrent.trans hfilled, ?_⟩
      rw [(call_of_bounds hkept hcall).1, hrect]

/-- **Cached placement agrees with fresh placement** in every run in which each call finds the
rectangle still to be computed, or the work area and shadow margin it was computed from. -/
theorem execute_fresh_of_current (hmonitor : Monitor.Handle) (relativeBounds : Vec4 F)
    (monitors : Monitor.StateCache F) (windows : ℕ → Window.State F) (events : List (Event F))
    (h : Run.AllSteps (step hmonitor relativeBounds) (fun s e => s.StillCurrent hmonitor e)
      (start monitors windows) events) :
    Run.AllSteps (step hmonitor relativeBounds)
      (fun s e => s.PlacesFresh hmonitor relativeBounds e) (start monitors windows) events :=
  Run.AllSteps.imp_of_invariant (P := fun s => s.Recorded relativeBounds)
    (fun _ e hrecorded _ => recorded_step e hrecorded)
    (fun _ _ hrecorded hcurrent => placesFresh_of_stillCurrent hrecorded hcurrent)
    (fun _ hbounds => by cases hbounds) h

end Placement

/-! ### Two runs -/

/-- A window at the same place as its visible frame, which can be moved. -/
def plainWindow : Window.Queries ℚ where
  threadProcessId := none
  imageName := (HResult.ok, [])
  isApplicationHost := false
  hasCoreWindow := false
  childProcessId := .ok 0
  childImageName := (HResult.ok, [])
  className := .ok []
  titleLength := (0, 0#32)
  title := []
  windowRect := .ok ⟨0, 0, 100, 100⟩
  extendedFrame := .ok ⟨0, 0, 100, 100⟩
  setWindowPos := none

/-- A single monitor of the given size. -/
def singleMonitor (width height : ℤ) : List Monitor.StateCache.Enumerated :=
  [{ handle := 1, rect := ⟨0, 0, width, height⟩,
     info := some ⟨⟨0, 0, width, height⟩, ⟨0, 0, width, height⟩, 1⟩ }]

/-- The left half of the work area. -/
def leftHalf : Vec4 ℚ := ⟨0, 0, 1 / 2, 1⟩

/-- Two calls for one window on an unchanged monitor. -/
theorem execute_fresh_twice :
    Run.AllSteps (Placement.step 1 leftHalf) (fun s e => s.PlacesFresh 1 leftHalf e)
      (Placement.start (Monitor.StateCache.initializeCache [] (singleMonitor 1920 1080))
        fun _ => {})
      [.execute 7 plainWindow, .execute 7 plainWindow] :=
  Placement.execute_fresh_of_current 1 leftHalf _ _ _ ⟨Or.inl rfl, Or.inr rfl, trivial⟩

/-- A display change between two calls: the second one is still given the half of the old work
area. -/
theorem execute_stale :
    ¬ Run.AllSteps (Placement.step 1 leftHalf) (fun s e => s.PlacesFresh 1 leftHalf e)
      (Placement.start (Monitor.StateCache.initializeCache [] (singleMonitor 1920 1080))
        fun _ => {})
      [.execute 7 plainWindow, .displayChanged (singleMonitor 1280 720),
        .execute 7 plainWindow] := by
  rintro ⟨-, -, hfresh, -⟩
  obtain ⟨workArea, margin, hinputs, hplaced⟩ := hfresh _ rfl rfl
  cases hinputs
  exact absurd hplaced (by decide +kernel)

end RoxyGlance.Engine
