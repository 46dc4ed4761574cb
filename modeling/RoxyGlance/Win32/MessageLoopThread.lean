import RoxyGlance.Fault
import RoxyGlance.Lib.Ledger

/-!
# The controller of a message loop thread

`MessageLoopThreadController` starts a worker thread and reaps it: it waits for the thread to exit,
reads the exit code and closes the handle.  Each function below that takes the mutex runs from the
first line under it to the last one, which makes it one atomic section.  What the system answers
is an argument.

A handle is the number of the launch that opened it.  The system may give the value of a closed
handle to another object, and a stale handle is then still told apart here.  Everything done with
handles is entered in a ledger.
-/

namespace RoxyGlance

/-- `kErrorTimeout` -/
def HResult.kErrorTimeout : HResult := ofWin32 1460#32

/-- `kErrorNotEnoughQuota` -/
def HResult.kErrorNotEnoughQuota : HResult := ofWin32 1816#32

namespace Win32

/-- A Win32 error code. -/
abbrev Win32Error := BitVec 32

/-- `ERROR_NOT_ENOUGH_QUOTA` -/
def errorNotEnoughQuota : Win32Error := 1816#32

/-- `ERROR_INVALID_OPERATION` -/
def errorInvalidOperation : Win32Error := 4317#32

/-- `ERROR_POSSIBLE_DEADLOCK` -/
def errorPossibleDeadlock : Win32Error := 1131#32

/-- A thread handle. -/
abbrev Handle := ℕ

/-- A thread id. -/
abbrev ThreadId := ℕ

/-- `MessageLoopThreadController::State` -/
inductive ThreadState
  | ready
  | running
  | stopping
  deriving DecidableEq, Repr

/-- `ThreadStopFailurePolicy` -/
inductive ThreadStopFailurePolicy
  | returnTimeout
  | failFast
  deriving DecidableEq, Repr

/-- `ThreadInfo` -/
structure ThreadInfo where
  hthread : Handle
  threadId : ThreadId
  deriving DecidableEq, Repr

/-- The fields of `MessageLoopThreadController`. -/
structure Controller where
  state : ThreadState := .ready
  /-- `none` is `{INVALID_HANDLE_VALUE, 0}`. -/
  data : Option ThreadInfo := none
  /-- The `MaxAttempts` of the states that `retry_factory_` makes. -/
  maxAttempts : ℕ := 1
  stopFailurePolicy : ThreadStopFailurePolicy
  deriving DecidableEq, Repr

/-- What the ledger records beside opening and closing; `τ` is the target of stop messages. -/
inductive Use (τ : Type)
  /-- `WaitForSingleObject` on a thread handle. -/
  | wait (hthread : Handle)
  /-- `postStopMessage` -/
  | post (target : τ)
  /-- `reapThreadAfterStartFailure` is entered, in this state and with this `data_`. -/
  | reapAfterStartFailure (hthread : Handle) (state : ThreadState) (data : Option ThreadInfo)
  deriving DecidableEq, Repr

/-- A controller, the number of threads launched so far, and the ledger. -/
structure World (τ : Type) where
  controller : Controller
  launches : ℕ := 0
  log : List (Ledger.Entry Handle (Use τ)) := []
  deriving DecidableEq, Repr

/-- A section returns, or ends the process. -/
inductive Outcome
  | returned (hr : HResult)
  | fastfail
  deriving DecidableEq, Repr

variable {τ : Type}

/-- The controller changes, the rest stays. -/
def World.setController (c : Controller) (w : World τ) : World τ := { w with controller := c }

/-- Uses are entered, the latest first. -/
def World.note (us : List (Use τ)) (w : World τ) : World τ := { w with log := us.map .use ++ w.log }

/-- `state_ = State::kStopping` -/
def World.stopping (w : World τ) : World τ :=
  w.setController { w.controller with state := .stopping }

/-- The thread has been reaped: its handle is closed, and the controller is ready again. -/
def World.reaped (hthread : Handle) (w : World τ) : World τ :=
  { w with
    controller := { w.controller with data := none, state := .ready }
    log := .release hthread :: w.log }

@[simp] theorem World.setController_controller (c : Controller) (w : World τ) :
    (w.setController c).controller = c := rfl

@[simp] theorem World.setController_launches (c : Controller) (w : World τ) :
    (w.setController c).launches = w.launches := rfl

@[simp] theorem World.setController_log (c : Controller) (w : World τ) :
    (w.setController c).log = w.log := rfl

@[simp] theorem World.note_controller (us : List (Use τ)) (w : World τ) :
    (w.note us).controller = w.controller := rfl

@[simp] theorem World.note_launches (us : List (Use τ)) (w : World τ) :
    (w.note us).launches = w.launches := rfl

@[simp] theorem World.note_log (us : List (Use τ)) (w : World τ) :
    (w.note us).log = us.map .use ++ w.log := rfl

/-! ### Starting a thread -/

/-- `errno` after a failed `_beginthreadex`. -/
inductive Errno
  | einval
  | eagain
  | eacces
  | other
  deriving DecidableEq, Repr

/-- The CRT error indicators after a failed `_beginthreadex`. -/
structure LaunchError where
  doserrno : Win32Error
  errno : Errno
  deriving DecidableEq, Repr

/-- `status`: an indicator that was not set is replaced by one that says what `errno` does. -/
def LaunchError.status (err : LaunchError) : Win32Error :=
  if err.doserrno = 0#32 then
    match err.errno with
    | .einval => 87#32
    | .eagain => 565#32
    | .eacces => 5#32
    | .other => 1627#32
  else err.doserrno

/-- `MessageLoopThreadController::start` with a `proc` that is not null; the second component is
`*info` where it is written.  `launch` is the answer of `_beginthreadex`. -/
def start (launch : Except LaunchError ThreadId) (w : World τ) :
    HResult × Option ThreadInfo × World τ :=
  if w.controller.state ≠ .ready then (HResult.kErrorInvalidOperation, none, w)
  else if w.controller.data ≠ none then (HResult.kErrorInvalidOperation, none, w)
  else match launch with
    | .error err => (HResult.ofWin32 err.status, none, w)
    | .ok threadId =>
      let info : ThreadInfo := ⟨w.launches, threadId⟩
      (HResult.ok, some info,
        { controller := { w.controller with data := some info, state := .running }
          launches := w.launches + 1
          log := .acquire info.hthread :: w.log })

theorem LaunchError.status_ne_zero (err : LaunchError) : err.status ≠ 0#32 := by
  rw [LaunchError.status]
  split
  · cases err.errno <;> decide
  · assumption

/-- A thread has been launched. -/
def World.launched (threadId : ThreadId) (w : World τ) : World τ :=
  { controller :=
      { w.controller with data := some ⟨w.launches, threadId⟩, state := .running }
    launches := w.launches + 1
    log := .acquire w.launches :: w.log }

/-- `start` either refuses and changes nothing, or launches a thread and records it. -/
theorem start_cases (launch : Except LaunchError ThreadId) (w : World τ) :
    ((start launch w).1.failed = true ∧ (start launch w).2 = (none, w)) ∨
    (∃ threadId, w.controller.state = .ready ∧ w.controller.data = none ∧
      start launch w = (HResult.ok, some ⟨w.launches, threadId⟩, w.launched threadId)) := by
  unfold start
  have hfail : HResult.kErrorInvalidOperation.failed = true := by decide
  by_cases hstate : w.controller.state = .ready
  · by_cases hdata : w.controller.data = none
    · rw [if_neg (not_not.2 hstate), if_neg (not_not.2 hdata)]
      cases launch with
      | error err => exact .inl ⟨HResult.failed_ofWin32 err.status_ne_zero, rfl⟩
      | ok threadId => exact .inr ⟨threadId, hstate, hdata, rfl⟩
    · rw [if_neg (not_not.2 hstate), if_pos hdata]
      exact .inl ⟨hfail, rfl⟩
  · rw [if_pos hstate]
    exact .inl ⟨hfail, rfl⟩

/-! ### Reaping a thread -/

/-- The answers to `reapThread`: the exit code or why it could not be read, and the error of
`CloseHandle` if it fails. -/
structure ReapAnswers where
  exitCode : Except Win32Error (BitVec 32)
  closeHandle : Option Win32Error

/-- The exit code as an `HRESULT`. -/
def ReapAnswers.exitHResult (a : ReapAnswers) : HResult :=
  match a.exitCode with
  | .error err => HResult.ofWin32 err
  | .ok code => code

/-- `reapThread` -/
def reapThread (hthread : Handle) (a : ReapAnswers) (w : World τ) : HResult × World τ :=
  match a.closeHandle with
  | some err => (HResult.ofWin32 err, w)
  | none => (a.exitHResult, w.reaped hthread)

/-- The result of `WaitForSingleObject`. -/
inductive WaitStatus
  | object0
  | timeout
  | failed (err : Win32Error)
  deriving DecidableEq, Repr

/-- The code for a wait that did not see the thread exit. -/
def WaitStatus.toHResult : WaitStatus → HResult
  | .object0 => HResult.ok
  | .timeout => HResult.kErrorTimeout
  | .failed err => HResult.ofWin32 err

/-- The answers to `reapThreadAfterStartFailure`. -/
structure StartFailureAnswers where
  wait : WaitStatus
  reap : ReapAnswers

/-- `reapThreadAfterStartFailure`, without the assertion of the debug build. -/
def reapThreadAfterStartFailure (hthread : Handle) (a : StartFailureAnswers) (w : World τ) :
    Outcome × World τ :=
  let w := w.note [.reapAfterStartFailure hthread w.controller.state w.controller.data]
  let w := w.stopping
  let w := w.note [.wait hthread]
  if a.wait = .object0 then
    let (hr, w) := reapThread hthread a.reap w
    (.returned hr, w)
  else if w.controller.stopFailurePolicy = .failFast then (.fastfail, w)
  else (.returned a.wait.toHResult, w)

/-- The thread exited in time and its handle could be closed. -/
def StartFailureAnswers.Reaps (a : StartFailureAnswers) : Prop :=
  a.wait = .object0 ∧ a.reap.closeHandle = none

/-- What `reapThreadAfterStartFailure` leaves when it does not reap the thread. -/
def awaited (hthread : Handle) (w : World τ) : World τ :=
  w.stopping.note
    [.wait hthread, .reapAfterStartFailure hthread w.controller.state w.controller.data]

theorem reapThreadAfterStartFailure_of_reaps {a : StartFailureAnswers} (h : a.Reaps)
    (hthread : Handle) (w : World τ) :
    (reapThreadAfterStartFailure hthread a w).2 = (awaited hthread w).reaped hthread := by
  obtain ⟨hwait, hclose⟩ := h
  simp only [reapThreadAfterStartFailure, hwait, if_pos, reapThread, hclose]
  rfl

theorem reapThreadAfterStartFailure_of_not_reaps {a : StartFailureAnswers} (h : ¬ a.Reaps)
    (hthread : Handle) (w : World τ) :
    (reapThreadAfterStartFailure hthread a w).2 = awaited hthread w := by
  rw [reapThreadAfterStartFailure]
  by_cases hwait : a.wait = .object0
  · cases hclose : a.reap.closeHandle with
    | none => exact absurd ⟨hwait, hclose⟩ h
    | some err =>
      simp only [hwait, if_pos, reapThread, hclose]
      rfl
  · simp only [hwait, if_false]
    split <;> rfl

/-! ### Stopping a thread -/

/-- `validateThreadAccess`, called by the thread `caller`. -/
def validateThreadAccess (caller : ThreadId) (data : Option ThreadInfo) : HResult :=
  match data with
  | none => HResult.ofWin32 errorInvalidOperation
  | some info => HResult.ofWin32 (if caller = info.threadId then errorPossibleDeadlock else 0#32)

/-- The thread that a `stop` called by `caller` gets to, once it is past its checks of the state and
of `validateThreadAccess`. -/
def stopTarget (caller : ThreadId) (c : Controller) : Option ThreadInfo :=
  if c.state = .ready then none else c.data.filter fun info => decide (caller ≠ info.threadId)

theorem stopTarget_eq_some {caller : ThreadId} {c : Controller} {info : ThreadInfo}
    (h : stopTarget caller c = some info) :
    c.state ≠ .ready ∧ c.data = some info ∧ (validateThreadAccess caller c.data).failed = false := by
  by_cases hstate : c.state = .ready
  · simp [stopTarget, hstate] at h
  · rw [stopTarget, if_neg hstate, Option.filter_eq_some_iff] at h
    obtain ⟨hdata, hcaller⟩ := h
    refine ⟨hstate, hdata, ?_⟩
    rw [hdata, validateThreadAccess, if_neg (of_decide_eq_true hcaller)]
    decide

theorem stopTarget_eq_none {caller : ThreadId} {c : Controller} (h : stopTarget caller c = none) :
    c.state = .ready ∨ (validateThreadAccess caller c.data).failed = true := by
  by_cases hstate : c.state = .ready
  · exact .inl hstate
  · refine .inr ?_
    rw [stopTarget, if_neg hstate] at h
    cases hdata : c.data with
    | none =>
      rw [validateThreadAccess]
      decide
    | some info =>
      have hcaller : caller = info.threadId := by simpa [hdata] using h
      rw [validateThreadAccess, if_pos hcaller]
      decide

/-- The answers to one pass of the loop of `stopThread`: the last error when the stop message
could not be posted, and the result of the wait. -/
structure Attempt where
  post : Option Win32Error
  wait : WaitStatus
  deriving DecidableEq, Repr

/-- A pass may be tried again unless posting failed for a reason other than the quota. -/
def Attempt.retryable (a : Attempt) : Bool :=
  match a.post with
  | none => true
  | some err => err = errorNotEnoughQuota

/-- `hr` at the end of a pass that did not see the thread exit: an error of the post goes before
one of the wait. -/
def Attempt.toHResult (a : Attempt) : HResult :=
  let hr := match a.post with
    | none => HResult.ok
    | some err =>
      if err = errorNotEnoughQuota then HResult.kErrorNotEnoughQuota else HResult.ofWin32 err
  if hr = HResult.ok then a.wait.toHResult else hr

/-- The answers to `stopThread`. -/
structure StopAnswers where
  /-- `retry_factory_->make()` finds memory. -/
  retryAllocated : Bool
  /-- The answers to each pass of the loop. -/
  attempts : ℕ → Attempt
  reap : ReapAnswers

/-- The loop of `stopThread` from pass `i` on, with `left` attempts left; the results are `hr`
and the attempts left at the end, none if the retry state has expired. -/
def stopLoop (hthread : Handle) (target : τ) (attempts : ℕ → Attempt) :
    ℕ → ℕ → World τ → HResult × ℕ × World τ
  | left, i, w =>
    let a := attempts i
    let w := w.note [.wait hthread, .post target]
    if a.wait = .object0 then (HResult.ok, left, w)
    else if !a.retryable then (a.toHResult, 0, w)
    else match left with
      | 0 => (a.toHResult, 0, w)
      | left + 1 =>
        if left = 0 then (a.toHResult, 0, w)
        else stopLoop hthread target attempts left (i + 1) w

/-- `stopThread` -/
def stopThread (hthread : Handle) (target : τ) (a : StopAnswers) (w : World τ) :
    Outcome × World τ :=
  if !a.retryAllocated then (.fastfail, w)
  else
    let (hr, left, w) := stopLoop hthread target a.attempts w.controller.maxAttempts 0 w
    if left = 0 then
      if w.controller.stopFailurePolicy = .failFast then (.fastfail, w) else (.returned hr, w)
    else
      let (hr, w) := reapThread hthread a.reap w
      (.returned hr, w)

/-- The thread exits within `left` passes from pass `i` on, and no pass before is the last one for
another reason. -/
def Exits (attempts : ℕ → Attempt) (left i : ℕ) : Prop :=
  ∃ k < left, (attempts (i + k)).wait = .object0 ∧ ∀ j < k, (attempts (i + j)).retryable = true

/-- The thread is reaped: it exits within the attempts and its handle can be closed. -/
def StopAnswers.Reaps (a : StopAnswers) (maxAttempts : ℕ) : Prop :=
  a.retryAllocated = true ∧ Exits a.attempts maxAttempts 0 ∧ a.reap.closeHandle = none

theorem exits_of_object0 {attempts : ℕ → Attempt} {left i : ℕ} (h : (attempts i).wait = .object0) :
    Exits attempts left i ↔ left ≠ 0 := by
  constructor
  · rintro ⟨k, hk, -⟩
    omega
  · intro hleft
    exact ⟨0, Nat.pos_of_ne_zero hleft, h, fun j hj => absurd hj (by omega)⟩

/-- A pass that does not see the thread exit leaves the rest to the next one. -/
theorem exits_succ {attempts : ℕ → Attempt} {left i : ℕ} (h : (attempts i).wait ≠ .object0) :
    Exits attempts (left + 1) i ↔ (attempts i).retryable = true ∧ Exits attempts left (i + 1) := by
  constructor
  · rintro ⟨k, hk, hwait, hretry⟩
    cases k with
    | zero => exact absurd hwait h
    | succ k =>
      refine ⟨hretry 0 (by omega), k, by omega, ?_, fun j hj => ?_⟩
      · rw [show i + 1 + k = i + (k + 1) by omega]
        exact hwait
      · rw [show i + 1 + j = i + (j + 1) by omega]
        exact hretry (j + 1) (by omega)
  · rintro ⟨hfirst, k, hk, hwait, hretry⟩
    refine ⟨k + 1, by omega, ?_, fun j hj => ?_⟩
    · rw [show i + (k + 1) = i + 1 + k by omega]
      exact hwait
    · cases j with
      | zero => exact hfirst
      | succ j =>
        rw [show i + (j + 1) = i + 1 + j by omega]
        exact hretry j (by omega)

theorem not_exits_zero (attempts : ℕ → Attempt) (i : ℕ) : ¬ Exits attempts 0 i := by
  rintro ⟨k, hk, -⟩
  omega

/-- The loop leaves attempts over exactly when the thread exits within them. -/
theorem stopLoop_left (hthread : Handle) (target : τ) (attempts : ℕ → Attempt) (left i : ℕ)
    (w : World τ) :
    (stopLoop hthread target attempts left i w).2.1 ≠ 0 ↔ Exits attempts left i := by
  induction left generalizing i w with
  | zero =>
    rw [stopLoop]
    by_cases hwait : (attempts i).wait = .object0
    · simp [hwait, not_exits_zero]
    · by_cases hretry : (attempts i).retryable <;> simp [hwait, hretry, not_exits_zero]
  | succ left ih =>
    rw [stopLoop]
    by_cases hwait : (attempts i).wait = .object0
    · simp [hwait, exits_of_object0 hwait]
    · rw [exits_succ hwait]
      by_cases hretry : (attempts i).retryable
      · by_cases hleft : left = 0
        · subst hleft
          simp [hwait, hretry, not_exits_zero]
        · simp [hwait, hretry, hleft, ih]
      · simp [hwait, hretry]

/-- All that the loop does is to post to the target and to wait for the thread. -/
theorem stopLoop_note (hthread : Handle) (target : τ) (attempts : ℕ → Attempt) (left i : ℕ)
    (w : World τ) :
    ∃ us : List (Use τ), (∀ u ∈ us, u = .wait hthread ∨ u = .post target) ∧ .post target ∈ us ∧
      (stopLoop hthread target attempts left i w).2.2 = w.note us := by
  have hpass : ∀ u ∈ [Use.wait hthread, .post target], u = .wait hthread ∨ u = .post target := by
    simp
  have hpost : Use.post target ∈ [Use.wait hthread, .post target] := by simp
  induction left generalizing i w with
  | zero =>
    refine ⟨_, hpass, hpost, ?_⟩
    rw [stopLoop]
    split
    · rfl
    · split <;> rfl
  | succ left ih =>
    rw [stopLoop]
    split
    · exact ⟨_, hpass, hpost, rfl⟩
    · split
      · exact ⟨_, hpass, hpost, rfl⟩
      · split
        · exact ⟨_, hpass, hpost, rfl⟩
        · obtain ⟨us, hus, -, hw⟩ := ih (i + 1) (w.note [.wait hthread, .post target])
          refine ⟨us ++ [.wait hthread, .post target], ?_, List.mem_append_right _ hpost, ?_⟩
          · exact List.forall_mem_append.2 ⟨hus, hpass⟩
          · rw [hw]
            simp [World.note]

theorem stopThread_of_reaps {a : StopAnswers} {w : World τ} (h : a.Reaps w.controller.maxAttempts)
    (hthread : Handle) (target : τ) :
    ∃ us : List (Use τ), (∀ u ∈ us, u = .wait hthread ∨ u = .post target) ∧ .post target ∈ us ∧
      stopThread hthread target a w =
        (.returned a.reap.exitHResult, (w.note us).reaped hthread) := by
  obtain ⟨hmake, hexits, hclose⟩ := h
  obtain ⟨us, hus, hpost, hw⟩ :=
    stopLoop_note hthread target a.attempts w.controller.maxAttempts 0 w
  have hleft := (stopLoop_left hthread target a.attempts _ 0 w).2 hexits
  refine ⟨us, hus, hpost, ?_⟩
  simp only [stopThread, hmake, Bool.not_true, Bool.false_eq_true, if_false, hleft, hw, reapThread,
    hclose]

/-- Without a reap the controller keeps its state and its thread. -/
theorem stopThread_of_not_reaps {a : StopAnswers} {w : World τ}
    (h : ¬ a.Reaps w.controller.maxAttempts) (hthread : Handle) (target : τ) :
    ∃ us : List (Use τ), (∀ u ∈ us, u = .wait hthread ∨ u = .post target) ∧
      (stopThread hthread target a w).2 = w.note us := by
  obtain ⟨us, hus, -, hw⟩ :=
    stopLoop_note hthread target a.attempts w.controller.maxAttempts 0 w
  by_cases hmake : a.retryAllocated = true
  · refine ⟨us, hus, ?_⟩
    simp only [stopThread, hmake, Bool.not_true, Bool.false_eq_true, if_false]
    by_cases hleft : (stopLoop hthread target a.attempts w.controller.maxAttempts 0 w).2.1 = 0
    · rw [if_pos hleft]
      split <;> exact hw
    · cases hclose : a.reap.closeHandle with
      | none =>
        exact absurd ⟨hmake, (stopLoop_left hthread target _ _ _ _).1 hleft, hclose⟩ h
      | some err =>
        simp only [hleft, if_false, reapThread, hclose]
        exact hw
  · refine ⟨[], by simp, ?_⟩
    simp only [stopThread, hmake, Bool.not_false, if_true]
    rfl

/-! ### What every section keeps -/

/-- The ledger is legal, handles come from launches, and a controller that is not ready owns the
thread it records. -/
structure Controlled (ok : (Handle → Prop) → Use τ → Prop) (w : World τ) : Prop where
  legal : Ledger.Legal ok w.log
  fresh : ∀ h, .acquire h ∈ w.log ∨ .release h ∈ w.log → h < w.launches
  ready : w.controller.state = .ready ↔ w.controller.data = none
  held : ∀ info, w.controller.data = some info → Ledger.Held w.log info.hthread

section Controlled

variable {ok : (Handle → Prop) → Use τ → Prop} {w : World τ}

theorem Controlled.note (h : Controlled ok w) {us : List (Use τ)}
    (hus : ∀ u ∈ us, ok (Ledger.Held w.log) u) : Controlled ok (w.note us) where
  legal := (Ledger.legal_uses_append us w.log).2 ⟨hus, h.legal⟩
  fresh := fun handle hmem => h.fresh handle (by simpa using hmem)
  ready := h.ready
  held := fun info hinfo => by
    rw [World.note_log, Ledger.held_uses_append]
    exact h.held info hinfo

theorem Controlled.stopping (h : Controlled ok w) (hdata : w.controller.data ≠ none) :
    Controlled ok w.stopping where
  legal := h.legal
  fresh := h.fresh
  ready := ⟨fun hstate => (by cases hstate), fun hnone => absurd hnone hdata⟩
  held := h.held

theorem Controlled.setMaxAttempts (h : Controlled ok w) (n : ℕ) :
    Controlled ok (w.setController { w.controller with maxAttempts := n }) where
  legal := h.legal
  fresh := h.fresh
  ready := h.ready
  held := h.held

/-- The thread recorded may be reaped. -/
theorem Controlled.reaped (h : Controlled ok w) {info : ThreadInfo}
    (hdata : w.controller.data = some info) : Controlled ok (w.reaped info.hthread) where
  legal := ⟨h.held info hdata, h.legal⟩
  fresh := by
    intro handle hmem
    rcases hmem with hmem | hmem
    · exact h.fresh handle (.inl (by simpa [World.reaped] using hmem))
    · rcases List.mem_cons.1 hmem with heq | hmem
      · cases heq
        exact h.fresh _ (.inl (h.held info hdata).1)
      · exact h.fresh handle (.inr hmem)
  ready := ⟨fun _ => rfl, fun _ => rfl⟩
  held := fun info hinfo => by cases hinfo

theorem Controlled.launched (h : Controlled ok w) (threadId : ThreadId) :
    Controlled ok (w.launched threadId) where
  legal := ⟨fun hmem => absurd (h.fresh _ (.inl hmem)) (by omega),
    fun hmem => absurd (h.fresh _ (.inr hmem)) (by omega), h.legal⟩
  fresh := by
    intro handle hmem
    show handle < w.launches + 1
    rcases hmem with hmem | hmem
    · rcases List.mem_cons.1 hmem with heq | hmem
      · cases heq
        omega
      · have := h.fresh handle (.inl hmem)
        omega
    · have := h.fresh handle (.inr (by simpa [World.launched] using hmem))
      omega
  ready := ⟨fun hstate => (by cases hstate), fun hdata => (by cases hdata)⟩
  held := by
    intro info hinfo
    cases hinfo
    refine ⟨List.mem_cons_self, fun hmem => ?_⟩
    rcases List.mem_cons.1 hmem with heq | hmem
    · cases heq
    · exact absurd (h.fresh _ (.inr hmem)) (Nat.lt_irrefl _)

end Controlled

end Win32

end RoxyGlance
