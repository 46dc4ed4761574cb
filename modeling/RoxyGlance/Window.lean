import RoxyGlance.Fault
import RoxyGlance.Numeric

/-!
# Window state

`State` caches what is known about one window.  A getter answers from the cache, or asks the
system and remembers the answer.  What the system answers is a parameter, `Queries`: one record
holds the answers at one moment, and the answers at different moments are unrelated, since a
window or its process can go away at any time.
-/

namespace RoxyGlance.Window

/-- A Win32 error code. -/
abbrev Win32Error := BitVec 32

/-- The answers of the system at one moment, to the queries about one window. -/
structure Queries (F : Type) where
  /-- `GetWindowThreadProcessId` fails with an error code or succeeds. -/
  threadProcessId : Option Win32Error
  /-- `GetProcessImageNameFromId` for the window's own process. -/
  imageName : HResult × Wide
  /-- The path is that of the application frame host. -/
  isApplicationHost : Bool
  /-- The window has a `CoreWindow` child. -/
  hasCoreWindow : Bool
  /-- `GetWindowThreadProcessId` for the child: an error code, or the process. -/
  childProcessId : Except Win32Error ℕ
  /-- `GetProcessImageNameFromId` for the child's process. -/
  childImageName : HResult × Wide
  /-- `GetClassNameW` -/
  className : Except Win32Error Wide
  /-- `GetWindowTextLengthW`, and the last error after it. -/
  titleLength : ℕ × Win32Error
  /-- What `GetWindowTextW` writes, which is nothing when it fails. -/
  title : Wide
  /-- `GetWindowRect` -/
  windowRect : Except Win32Error Long4
  /-- `DwmGetWindowAttribute` with `DWMWA_EXTENDED_FRAME_BOUNDS` -/
  extendedFrame : Except HResult Long4
  /-- `SetWindowPos` fails with an error code or succeeds. -/
  setWindowPos : Option Win32Error

/-- The answers at each moment. -/
abbrev World (F : Type) := ℕ → Queries F

/-- `window::State`; each field is `none` while its flag says that it is not loaded or dirty. -/
structure State (F : Type) where
  processImageName : Option Wide := none
  windowClass : Option Wide := none
  windowTitle : Option Wide := none
  shadowMargin : Option (Vec4 F) := none

/-- `winrt::check_hresult` -/
def checkHResult (hr : HResult) : Except Fault Unit :=
  if hr.failed then .error (throwHResult hr) else .ok ()

section Queries

variable {F : Type}

/-- `GetProcessInfoFromHWND`: the code, and the path it found. -/
def getProcessInfoFromHWND (q : Queries F) : HResult × Wide :=
  match q.threadProcessId with
  | some err => (HResult.ofWin32 err, [])
  | none =>
    let (hr, filepath) := q.imageName
    if hr.failed then (hr, [])
    else if !q.isApplicationHost then (HResult.ok, filepath)
    else if !q.hasCoreWindow then (HResult.ok, filepath)
    else match q.childProcessId with
      | .error err => (HResult.ofWin32 err, [])
      | .ok realProcessId =>
        if realProcessId = 0 then (HResult.ok, filepath)
        else
          let (hr, filepath) := q.childImageName
          if hr.failed then (hr, []) else (HResult.ok, filepath)

/-- `GetWindowShadowMargin`: how far the visible frame lies inside the window on each side. -/
def getWindowShadowMargin (q : Queries F) : HResult × Long4 :=
  match q.windowRect with
  | .error err => (HResult.ofWin32 err, ⟨0, 0, 0, 0⟩)
  | .ok outer =>
    match q.extendedFrame with
    | .error hr => (hr, ⟨0, 0, 0, 0⟩)
    | .ok inner =>
      let x := inner.x - outer.x
      let y := inner.y - outer.y
      (HResult.ok, ⟨x, y, x + outer.z - inner.z, y + outer.w - inner.w⟩)

end Queries

namespace State

variable {F : Type}

/-- `processImageName` -/
def getProcessImageName (q : Queries F) (w : State F) : Except Fault (Wide × State F) :=
  match w.processImageName with
  | some filepath => .ok (filepath, w)
  | none => do
    let (hr, filepath) := getProcessInfoFromHWND q
    checkHResult hr
    .ok (filepath, { w with processImageName := some filepath })

/-- `windowClass` -/
def getWindowClass (q : Queries F) (w : State F) : Except Fault (Wide × State F) :=
  match w.windowClass with
  | some name => .ok (name, w)
  | none =>
    match q.className with
    | .error err => .error (throwHResult (HResult.ofWin32 err))
    | .ok name => .ok (name, { w with windowClass := some name })

/-- `windowTitle`.  An empty title is not remembered. -/
def getWindowTitle (q : Queries F) (w : State F) : Except Fault (Wide × State F) :=
  match w.windowTitle with
  | some title => .ok (title, w)
  | none =>
    let (len, err) := q.titleLength
    if len = 0 then
      if err = 0#32 then .ok ([], w) else .error (throwHResult (HResult.ofWin32 err))
    else if q.title = [] then .error (throwHResult HResult.fail)
    else .ok (q.title.take len, { w with windowTitle := some (q.title.take len) })

/-- `shadowMargin` -/
def getShadowMargin [FloatLike F] (q : Queries F) (w : State F) :
    Except Fault (Vec4 F × State F) :=
  match w.shadowMargin with
  | some margin => .ok (margin, w)
  | none => do
    let (hr, shadowMarginInt) := getWindowShadowMargin q
    checkHResult hr
    let margin : Vec4 F := shadowMarginInt.map FloatLike.ofLong
    .ok (margin, { w with shadowMargin := some margin })

/-- `invalidateWindowLocation` -/
def invalidateWindowLocation (w : State F) : State F := { w with shadowMargin := none }

/-- `invalidateWindowTitle` -/
def invalidateWindowTitle (w : State F) : State F := { w with windowTitle := none }

end State

end RoxyGlance.Window
