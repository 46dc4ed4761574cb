import RoxyGlance.Win32.MessageLoopThread

/-!
# How a stop of a message loop thread ends

`stopThread` posts a stop message, waits for the thread, and tries again as long as the retry state
allows.  Here it is followed call by call, with the retry state and the backoff policy of the
source: the result, the controller and the calls made to the system.  `MessageLoopThread` has the
same function with the delays left out (`stopThread_eq`).
-/

namespace RoxyGlance

namespace Win32

/-! ### The retry state -/

/-- A `BackoffPolicy` with states in `β`: `next` advances it and returns the delay. -/
structure BackoffPolicy (β : Type) where
  next : β → BitVec 32 × β

/-- The fields of `RetryState<MaxAttempts, Backoff>`. -/
structure RetryState (β : Type) where
  attempts : ℕ := 0
  backoff : β
  deriving DecidableEq, Repr

namespace RetryState

variable {β : Type}

/-- `advanceAttempt` -/
def advanceAttempt (r : RetryState β) : RetryState β := { r with attempts := r.attempts + 1 }

/-- `forceExpire` -/
def forceExpire (maxAttempts : ℕ) (r : RetryState β) : RetryState β :=
  { r with attempts := maxAttempts }

/-- `nextDelay` -/
def nextDelay (policy : BackoffPolicy β) (r : RetryState β) : BitVec 32 × RetryState β :=
  ((policy.next r.backoff).1, { r with backoff := (policy.next r.backoff).2 })

/-- `available` -/
def available (maxAttempts : ℕ) (r : RetryState β) : Bool := decide (r.attempts < maxAttempts)

/-- `expired` -/
def expired (maxAttempts : ℕ) (r : RetryState β) : Bool := decide (maxAttempts ≤ r.attempts)

@[simp] theorem advanceAttempt_attempts (r : RetryState β) :
    r.advanceAttempt.attempts = r.attempts + 1 := rfl

@[simp] theorem forceExpire_attempts (maxAttempts : ℕ) (r : RetryState β) :
    (r.forceExpire maxAttempts).attempts = maxAttempts := rfl

theorem available_iff {maxAttempts : ℕ} {r : RetryState β} :
    r.available maxAttempts = true ↔ r.attempts < maxAttempts := decide_eq_true_iff

theorem expired_iff {maxAttempts : ℕ} {r : RetryState β} :
    r.expired maxAttempts = true ↔ maxAttempts ≤ r.attempts := decide_eq_true_iff

end RetryState

namespace MessageLoopThreadController

/-! ### The calls -/

/-- A call to the system with its answer, which for a failed call is the last error. -/
inductive SystemCall (τ : Type)
  | postStopMessage (target : τ) (lasterr : Option Win32Error)
  | waitForSingleObject (hthread : Handle) (delay : BitVec 32) (status : WaitStatus)
  | getExitCodeThread (hthread : Handle) (exitCode : Except Win32Error (BitVec 32))
  | closeHandle (hthread : Handle) (lasterr : Option Win32Error)

namespace SystemCall

variable {τ : Type}

end SystemCall

variable {τ β : Type}

/-- The local variables of a pass after the stop message was posted. -/
structure Posted (β : Type) where
  hr : HResult
  retryable : Bool
  delay : BitVec 32
  retry : RetryState β

/-- The first half of a pass, up to the wait. -/
def afterPost (policy : BackoffPolicy β) (lasterr : Option Win32Error) (retry : RetryState β) :
    Posted β :=
  match lasterr with
  | none => ⟨HResult.ok, true, (retry.nextDelay policy).1, (retry.nextDelay policy).2⟩
  | some err =>
    if err = errorNotEnoughQuota then
      ⟨HResult.kErrorNotEnoughQuota, true, (retry.nextDelay policy).1, (retry.nextDelay policy).2⟩
    else ⟨HResult.ofWin32 err, false, 0#32, retry⟩

theorem afterPost_attempts (policy : BackoffPolicy β) (lasterr : Option Win32Error)
    (retry : RetryState β) : (afterPost policy lasterr retry).retry.attempts = retry.attempts := by
  unfold afterPost
  split
  · rfl
  · split <;> rfl

/-- A pass is retryable for the retry state exactly when it is for the answers. -/
theorem afterPost_retryable (policy : BackoffPolicy β) (a : Attempt) (retry : RetryState β) :
    (afterPost policy a.post retry).retryable = a.retryable := by
  unfold afterPost Attempt.retryable
  cases a.post with
  | none => rfl
  | some err =>
    by_cases hquota : err = errorNotEnoughQuota
    · simp only [if_pos hquota, decide_eq_true hquota]
    · simp only [if_neg hquota, decide_eq_false hquota]

/-- The calls of a pass. -/
def passCalls (policy : BackoffPolicy β) (hthread : Handle) (target : τ) (a : Attempt)
    (retry : RetryState β) : List (SystemCall τ) :=
  [.postStopMessage target a.post,
    .waitForSingleObject hthread (afterPost policy a.post retry).delay a.wait]

/-- The `do` loop of `stopThread` from pass `i` on: `hr` and the retry state at its end, and the
calls made.  It ends because a pass that is followed by another one uses up an attempt. -/
def stopLoop (policy : BackoffPolicy β) (maxAttempts : ℕ) (hthread : Handle) (target : τ)
    (answers : ℕ → Attempt) (i : ℕ) (retry : RetryState β) :
    HResult × RetryState β × List (SystemCall τ) :=
  let posted := afterPost policy (answers i).post retry
  let status := (answers i).wait
  let calls := passCalls policy hthread target (answers i) retry
  if status = .object0 then (HResult.ok, posted.retry, calls)
  else
    let hr := if posted.hr = HResult.ok then status.toHResult else posted.hr
    if posted.retryable then
      let retry' := posted.retry.advanceAttempt
      if _h : retry'.available maxAttempts then
        let rest := stopLoop policy maxAttempts hthread target answers (i + 1) retry'
        (rest.1, rest.2.1, calls ++ rest.2.2)
      else (hr, retry', calls)
    else (hr, posted.retry.forceExpire maxAttempts, calls)
termination_by maxAttempts - retry.attempts
decreasing_by
  have hlt := RetryState.available_iff.1 _h
  simp only [retry', posted, RetryState.advanceAttempt_attempts, afterPost_attempts] at hlt ⊢
  omega

/-! ### The function -/

/-- How `stopThread` ends: the outcome, the controller it leaves, and the calls it has made. -/
structure StopRun (τ : Type) where
  outcome : Outcome
  controller : Controller
  calls : List (SystemCall τ)

/-- The run, with the calls made before it. -/
def StopRun.after (calls : List (SystemCall τ)) (run : StopRun τ) : StopRun τ :=
  { run with calls := calls ++ run.calls }

/-- `reapThread` -/
def reapThread (hthread : Handle) (a : ReapAnswers) (c : Controller) : StopRun τ :=
  let calls : List (SystemCall τ) :=
    [.getExitCodeThread hthread a.exitCode, .closeHandle hthread a.closeHandle]
  match a.closeHandle with
  | some err => ⟨.returned (HResult.ofWin32 err), c, calls⟩
  | none => ⟨.returned a.exitHResult, { c with data := none, state := .ready }, calls⟩

/-- `stopThread`; `backoff` is the policy state that `retry_factory_` hands out. -/
def stopThread (policy : BackoffPolicy β) (backoff : β) (hthread : Handle) (target : τ)
    (a : StopAnswers) (c : Controller) : StopRun τ :=
  if !a.retryAllocated then ⟨.fastfail, c, []⟩
  else
    let ended := stopLoop policy c.maxAttempts hthread target a.attempts 0 { backoff := backoff }
    if ended.2.1.expired c.maxAttempts then
      if c.stopFailurePolicy = .failFast then ⟨.fastfail, c, ended.2.2⟩
      else ⟨.returned ended.1, c, ended.2.2⟩
    else (reapThread hthread a.reap c).after ended.2.2

/-! ### What the loop guarantees -/

section Loop

variable {policy : BackoffPolicy β} {maxAttempts : ℕ} {hthread : Handle} {target : τ}
  {answers : ℕ → Attempt}

/-- `hr` of a pass that did not see the thread exit. -/
theorem passHResult_eq (a : Attempt) (retry : RetryState β) :
    (if (afterPost policy a.post retry).hr = HResult.ok then a.wait.toHResult
      else (afterPost policy a.post retry).hr) = a.toHResult := by
  unfold afterPost Attempt.toHResult
  cases a.post with
  | none => rfl
  | some err => by_cases hquota : err = errorNotEnoughQuota <;> simp only [hquota, if_true, if_false]

end Loop

/-! ### The outcome -/

variable {policy : BackoffPolicy β} {backoff : β} {hthread : Handle} {target : τ} {a : StopAnswers}
  {c : Controller}

/-- The loop that counts the attempts left takes the same course as the one with a retry state. -/
theorem stopLoop_eq (policy : BackoffPolicy β) (maxAttempts : ℕ) (hthread : Handle) (target : τ)
    (answers : ℕ → Attempt) (i : ℕ) (retry : RetryState β) (w : World τ) :
    let ended := stopLoop policy maxAttempts hthread target answers i retry
    let ended' := Win32.stopLoop hthread target answers (maxAttempts - retry.attempts) i w
    ended'.1 = ended.1 ∧ ended'.2.1 = maxAttempts - ended.2.1.attempts := by
  intro ended ended'
  simp only [ended, ended']
  clear ended ended'
  fun_induction stopLoop policy maxAttempts hthread target answers i retry generalizing w with
  | case1 i retry posted status calls hexit =>
    have hattempts : posted.retry.attempts = retry.attempts := afterPost_attempts policy _ retry
    rw [hattempts]
    unfold Win32.stopLoop
    rw [if_pos hexit]
    exact ⟨rfl, rfl⟩
  | case2 i retry posted status calls hexit hretry retry' havail rest ih =>
    have hlt := RetryState.available_iff.1 havail
    have hnext : retry'.attempts = retry.attempts + 1 :=
      congrArg (· + 1) (afterPost_attempts policy _ retry)
    have hleft : maxAttempts - retry.attempts = (maxAttempts - retry'.attempts) + 1 := by omega
    have hretry' : (answers i).retryable = true :=
      (afterPost_retryable policy _ retry).symm.trans hretry
    have hwait : (answers i).wait ≠ .object0 := hexit
    have hne : maxAttempts - retry'.attempts ≠ 0 := by omega
    rw [hleft, Win32.stopLoop]
    simp only [hretry', hwait, hne, Bool.not_true, Bool.false_eq_true, if_false]
    exact ih _
  | case3 i retry posted status calls hexit hr hretry retry' havail =>
    have hge : maxAttempts ≤ retry'.attempts := by
      rw [RetryState.available_iff] at havail
      omega
    have hnext : retry'.attempts = retry.attempts + 1 :=
      congrArg (· + 1) (afterPost_attempts policy _ retry)
    have hretry' : (answers i).retryable = true :=
      (afterPost_retryable policy _ retry).symm.trans hretry
    have heq : hr = (answers i).toHResult := passHResult_eq (answers i) retry
    have hwait : (answers i).wait ≠ .object0 := hexit
    rw [heq, Nat.sub_eq_zero_of_le hge]
    cases hleft : maxAttempts - retry.attempts with
    | zero => simp [Win32.stopLoop, hwait, hretry']
    | succ left =>
      have hzero : left = 0 := by omega
      simp [Win32.stopLoop, hwait, hretry', hzero]
  | case4 i retry posted status calls hexit hr hretry =>
    have hretry' : ¬ (answers i).retryable = true := fun h =>
      hretry ((afterPost_retryable policy _ retry).trans h)
    have heq : hr = (answers i).toHResult := passHResult_eq (answers i) retry
    -- an attempt that is not to be repeated leaves none in either count
    rw [heq, RetryState.forceExpire_attempts, Nat.sub_self]
    have hwait : (answers i).wait ≠ .object0 := hexit
    unfold Win32.stopLoop
    simp [hwait, hretry']

/-- **The delays do not matter for the outcome**: `stopThread` of `MessageLoopThread` ends as this
one does and leaves the same controller. -/
theorem stopThread_eq (policy : BackoffPolicy β) (backoff : β) (hthread : Handle) (target : τ)
    (a : StopAnswers) (w : World τ) :
    let run := stopThread policy backoff hthread target a w.controller
    let run' := Win32.stopThread hthread target a w
    run'.1 = run.outcome ∧ run'.2.controller = run.controller := by
  intro run run'
  simp only [run, run']
  clear run run'
  have hends := stopLoop_eq policy w.controller.maxAttempts hthread target a.attempts 0
    { backoff := backoff } w
  obtain ⟨us, -, -, hw⟩ := stopLoop_note hthread target a.attempts w.controller.maxAttempts 0 w
  simp only [Nat.sub_zero] at hends
  obtain ⟨hhr, hleft⟩ := hends
  unfold stopThread Win32.stopThread
  by_cases hmake : a.retryAllocated = true
  · simp only [hmake, hhr, hleft, hw, Bool.not_true, Bool.false_eq_true, if_false,
      RetryState.expired_iff, Nat.sub_eq_zero_iff_le, World.note_controller]
    split
    · split <;> exact ⟨rfl, rfl⟩
    · unfold reapThread Win32.reapThread StopRun.after
      cases a.reap.closeHandle <;> exact ⟨rfl, rfl⟩
  · simp only [hmake, Bool.not_false, if_true, and_self]

end MessageLoopThreadController

end Win32

end RoxyGlance
