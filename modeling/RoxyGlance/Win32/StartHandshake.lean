import RoxyGlance.Lib.Run
import RoxyGlance.Lib.WaitOnValue
import RoxyGlance.Win32.WindowController

/-!
# How `start` meets its worker

`WindowController::start` puts a context on its stack, launches `WindowWorker` and waits until the
worker reports through the context, which is gone once `start` returns.  Every access to the context
is a step of its own, and the two threads take their steps in any order.

* `System`: the context, the two threads, and `hwnd_`;
* `Sound`: what holds between them in every order;
* `handshake_correct`: `start` returns what the worker reported and records the window it created;
  the one access of the worker that can come too late is the `notify_one` after a report of `S_OK`,
  and it does exactly if `start` has returned between the store and the notification;
* `start_ends_unless_pending`: only a report of `E_PENDING` makes `start` wait for ever;
* `start_agrees`: a handshake that ends does what the `start` of the controller model does.
-/

namespace RoxyGlance.Win32.StartHandshake

open WaitOnValue

/-- `E_PENDING` -/
def ePending : HResult := 0x8000000A#32

/-- What the worker reports: a code, and the window it has put into the context. -/
structure Report where
  hr : HResult
  window : Option ℕ
  deriving DecidableEq, Repr

/-- Where `WindowWorker` is. -/
inductive Worker
  /-- Before `RegisterClassExW`. -/
  | registering
  /-- Before `CreateWindowExW`. -/
  | creating
  /-- Before `UnregisterClassW` after a failure. -/
  | unregistering (hr : HResult)
  /-- Before `setHwnd`. -/
  | publishing (hwnd : ℕ)
  /-- In `notify`, before the store. -/
  | storing (r : Report)
  /-- In `notify`, before `notify_one`. -/
  | notifying (r : Report)
  /-- In the message loop. -/
  | looping (hwnd : ℕ)
  /-- After the report. -/
  | exiting (r : Report)
  | exited (r : Report)
  deriving DecidableEq, Repr

/-- Where `start` is. -/
inductive Starter
  /-- In `wait`; once it is through, before the load. -/
  | waiting (w : Waiter)
  /-- Before `reapThreadAfterStartFailure`. -/
  | reaping (hr : HResult)
  /-- Before the retry factory is made. -/
  | preparing
  /-- Before the store to `hwnd_`. -/
  | recording
  | returned (hr : HResult)
  /-- `fastfail` has been called. -/
  | failedFast
  deriving DecidableEq, Repr

/-- The two threads and what they share. -/
structure System where
  /-- `hr_` -/
  hr : HResult := ePending
  /-- `atomic_hwnd` -/
  atomicHwnd : Option ℕ := none
  /-- The context is still on the stack of `start`. -/
  live : Bool := true
  worker : Worker := .registering
  starter : Starter := .waiting .checking
  /-- `hwnd_` -/
  hwnd : Option ℕ := none
  /-- The worker has used a context that was gone. -/
  stale : Bool := false
  deriving DecidableEq, Repr

/-- What the system answers to the worker's next call. -/
inductive Answer
  | success (hwnd : ℕ)
  | failure (lastError : Win32Error)
  deriving DecidableEq, Repr

/-- A thread takes a step. -/
inductive Event
  | worker (a : Answer)
  /-- With the retry factory finding memory, and the bounded wait for the thread ending in time. -/
  | starter (allocated inTime : Bool)
  /-- The waiting thread wakes up for no reason. -/
  | spurious
  deriving DecidableEq, Repr

/-- The worker accesses the context. -/
def System.touch (s : System) : System := { s with stale := s.stale || !s.live }

/-- `start` returns; its stack is gone. -/
def System.return (hr : HResult) (s : System) : System :=
  { s with starter := .returned hr, live := false }

/-- `notify_one`, and a wake-up for no reason. -/
def System.wake (s : System) : System :=
  match s.starter with
  | .waiting w => { s with starter := .waiting w.wake }
  | _ => s

/-- `WindowWorker` -/
def workerStep (a : Answer) (s : System) : System :=
  match s.worker with
  | .registering =>
    match a with
    | .success _ => { s.touch with worker := .creating }
    | .failure err => { s.touch with worker := .storing ⟨HResult.ofWin32 err, none⟩ }
  | .creating =>
    match a with
    | .success hwnd => { s.touch with worker := .publishing hwnd }
    | .failure err => { s.touch with worker := .unregistering (HResult.ofWin32 err) }
  | .unregistering hr => { s.touch with worker := .storing ⟨hr, none⟩ }
  | .publishing hwnd =>
    { s.touch with atomicHwnd := some hwnd, worker := .storing ⟨HResult.ok, some hwnd⟩ }
  | .storing r => { s.touch with hr := r.hr, worker := .notifying r }
  | .notifying r =>
    -- `notify_one` is a call on the atomic in the context
    { s.touch.wake with worker := match r.window with
        | some hwnd => .looping hwnd
        | none => .exiting r }
  | .looping hwnd =>
    match a with
    | .success _ => s
    | .failure _ => { s with worker := .exiting ⟨HResult.ok, some hwnd⟩ }
  | .exiting r => { s with worker := .exited r }
  | .exited _ => s

/-- The worker's thread has ended. -/
def Worker.hasExited : Worker → Bool
  | .exited _ => true
  | _ => false

/-- `WindowController::start`, after the launch. -/
def starterStep (allocated inTime : Bool) (s : System) : System :=
  match s.starter with
  | .waiting .through =>
    if s.hr ≠ HResult.ok then { s with starter := .reaping s.hr } else { s with starter := .preparing }
  | .waiting w => { s with starter := .waiting (w.move (s.hr == ePending)) }
  | .reaping hr =>
    if !inTime then { s with starter := .failedFast }
    else if s.worker.hasExited then s.return hr
    else s
  | .preparing => { s with starter := if allocated then .recording else .failedFast }
  | .recording => { s.return HResult.ok with hwnd := s.atomicHwnd }
  | .returned _ => s
  | .failedFast => s

/-- One step of one thread. -/
def step (s : System) : Event → System
  | .worker a => workerStep a s
  | .starter allocated inTime => starterStep allocated inTime s
  | .spurious => s.wake

/-- What the worker has reported. -/
def Worker.report : Worker → Option Report
  | .registering | .creating | .unregistering _ | .publishing _ | .storing _ => none
  | .notifying r | .exiting r | .exited r => some r
  | .looping hwnd => some ⟨HResult.ok, some hwnd⟩

/-- The report has been stored and notified. -/
def Worker.signal : Worker → Signal
  | .registering | .creating | .unregistering _ | .publishing _ | .storing _ => .before
  | .notifying _ => .stored
  | .looping _ | .exiting _ | .exited _ => .notified

/-- `start` has returned. -/
def Starter.hasReturned : Starter → Bool
  | .returned _ => true
  | _ => false

/-- The worker notifies while `start` has not returned. -/
def InTime (s : System) : Event → Prop
  | .worker _ => ∀ r, s.worker = .notifying r → ∀ hr, s.starter ≠ .returned hr
  | _ => True

/-! ### What holds in every order -/

/-- The error code that a failed call leaves in this step is one of `P`. -/
def Event.Leaves (P : Win32Error → Prop) : Event → Prop
  | .worker (.failure err) => P err
  | _ => True

theorem leaves_true (e : Event) : e.Leaves fun _ => True := by
  rcases e with ⟨_ | _⟩ | _ | _ <;> trivial

section Invariant

variable (P : Win32Error → Prop)

/-- A window is reported with `S_OK`, and another report is the last error of a call that failed. -/
inductive Report.Honest : Report → Prop
  | window (hwnd : ℕ) : Report.Honest ⟨HResult.ok, some hwnd⟩
  | failure {err : Win32Error} (h : P err) : Report.Honest ⟨HResult.ofWin32 err, none⟩

/-- Before the report `start` waits. -/
structure Waits (s : System) : Prop where
  hr : s.hr = ePending
  live : s.live = true
  hwnd : s.hwnd = none
  starter : ∃ w, s.starter = .waiting w ∧ WaitOnValue.Sound .before true w

/-- What `start` may be doing after the report. -/
def Agrees (signal : Signal) (r : Report) (s : System) : Prop :=
  match s.starter with
  | .waiting w => s.live = true ∧ s.hwnd = none ∧ WaitOnValue.Sound signal (r.hr == ePending) w
  | .reaping hr => s.live = true ∧ s.hwnd = none ∧ hr = r.hr ∧ r.hr ≠ HResult.ok
  | .preparing | .recording => s.live = true ∧ s.hwnd = none ∧ r.hr = HResult.ok
  | .returned hr => hr = r.hr ∧ (if r.hr = HResult.ok then s.hwnd = r.window
      else s.hwnd = none ∧ s.worker = .exited r)
  | .failedFast => s.hwnd = none

/-- The worker has reported. -/
structure Reported (signal : Signal) (r : Report) (s : System) : Prop where
  hr : s.hr = r.hr
  window : s.atomicHwnd = r.window
  honest : r.Honest P
  agrees : Agrees signal r s
  /-- Nobody gets past a report of `E_PENDING`. -/
  passed : r.hr = ePending → ∃ w, s.starter = .waiting w ∧ w ≠ .through

/-- What holds between the two threads, by where the worker is. -/
def Between (s : System) : Prop :=
  match s.worker with
  | .registering | .creating | .publishing _ => s.atomicHwnd = none ∧ Waits s
  | .unregistering hr => s.atomicHwnd = none ∧ (∃ err, P err ∧ hr = HResult.ofWin32 err) ∧
    Waits s
  | .storing r => s.atomicHwnd = r.window ∧ r.Honest P ∧ Waits s
  | .notifying r => Reported P .stored r s
  | .looping hwnd => Reported P .notified ⟨HResult.ok, some hwnd⟩ s
  | .exiting r | .exited r => Reported P .notified r s

/-- The context is there until `start` returns, nothing but a notification after a report of `S_OK` has
come later, and nothing is wrong between the threads. -/
structure Sound (s : System) : Prop where
  live : s.live = !s.starter.hasReturned
  late : s.stale = true → s.starter = .returned HResult.ok ∧ s.worker.signal = .notified
  between : Between P s

theorem sound_start : Sound P {} where
  live := rfl
  late := Bool.noConfusion
  between := ⟨rfl, rfl, rfl, rfl, _, rfl, WaitOnValue.Sound.start⟩

end Invariant

variable {P : Win32Error → Prop} {s : System}

/-- An access while `start` waits is in time. -/
theorem touch_of_live (hlive : s.live = true) : s.touch = s := by
  have hstale : (s.stale || !s.live) = s.stale := by rw [hlive, Bool.not_true, Bool.or_false]
  rw [System.touch, hstale]

theorem Waits.setWorker (h : Waits s) (worker : Worker) : Waits { s with worker } :=
  ⟨h.hr, h.live, h.hwnd, h.starter⟩

theorem Waits.wake (h : Waits s) : Waits s.wake := by
  obtain ⟨w, hw, hsound⟩ := h.starter
  unfold System.wake
  rw [hw]
  exact ⟨h.hr, h.live, h.hwnd, _, rfl, hsound.wake⟩

/-- The store of the report. -/
theorem Waits.store (h : Waits s) {r : Report} (hwindow : s.atomicHwnd = r.window)
    (hhonest : r.Honest P) : Reported P .stored r { s with hr := r.hr, worker := .notifying r } := by
  obtain ⟨w, hw, hsound⟩ := h.starter
  refine ⟨rfl, hwindow, hhonest, ?_, fun _ => ⟨w, hw, hsound.stays⟩⟩
  simp only [Agrees, hw]
  exact ⟨h.live, h.hwnd, hsound.store _⟩

theorem Agrees.wake {signal : Signal} {r : Report} (h : Agrees signal r s) :
    Agrees signal r s.wake := by
  unfold System.wake
  cases hstarter : s.starter with
  | waiting w =>
    simp only [Agrees, hstarter] at h
    exact ⟨h.1, h.2.1, h.2.2.wake⟩
  | reaping | preparing | recording | returned | failedFast => exact h

/-- The notification. -/
theorem Agrees.notify {r : Report} (h : Agrees .stored r s) : Agrees .notified r s.wake := by
  unfold System.wake
  cases hstarter : s.starter with
  | waiting w =>
    simp only [Agrees, hstarter] at h
    exact ⟨h.1, h.2.1, h.2.2.notify⟩
  | reaping | preparing | recording | returned | failedFast =>
    simp only [Agrees, hstarter] at h ⊢
    exact h

/-- The worker goes on after the report. -/
theorem Agrees.setWorker {signal : Signal} {r : Report} (h : Agrees signal r s)
    (hne : s.worker ≠ .exited r) (worker : Worker) : Agrees signal r { s with worker } := by
  cases hstarter : s.starter with
  | returned hr =>
    simp only [Agrees, hstarter] at h ⊢
    by_cases hok : r.hr = HResult.ok
    · rw [if_pos hok] at h ⊢
      exact h
    · rw [if_neg hok] at h
      exact absurd h.2.2 hne
  | waiting | reaping | preparing | recording | failedFast =>
    simp only [Agrees, hstarter] at h ⊢
    exact h

/-- Who has not got through has not after a wake-up. -/
theorem waiting_wake (h : ∃ w, s.starter = .waiting w ∧ w ≠ .through) :
    ∃ w, s.wake.starter = .waiting w ∧ w ≠ .through := by
  obtain ⟨w, hw, hne⟩ := h
  unfold System.wake
  rw [hw]
  exact ⟨_, rfl, fun hthrough => hne (Waiter.wake_eq_through.1 hthrough)⟩

/-- Waking touches nothing but the thread that waits. -/
theorem wake_fields (s : System) : s.wake.stale = s.stale ∧ s.wake.worker = s.worker ∧
    s.wake.hr = s.hr ∧ s.wake.atomicHwnd = s.atomicHwnd := by
  unfold System.wake
  split <;> exact ⟨rfl, rfl, rfl, rfl⟩

/-- A wake-up for no reason. -/
theorem between_wake (h : Between P s) : Between P s.wake := by
  obtain ⟨-, hworker, hhr, hwindow⟩ := wake_fields s
  have hreported : ∀ {signal r}, Reported P signal r s → Reported P signal r s.wake := fun hr =>
    ⟨hhr.trans hr.hr, hwindow.trans hr.window, hr.honest, hr.agrees.wake,
      fun hpending => waiting_wake (hr.passed hpending)⟩
  have hbetween := h
  unfold Between at hbetween ⊢
  rw [hworker, hwindow]
  cases hw : s.worker with
  | registering | creating | publishing =>
    rw [hw] at hbetween
    exact ⟨hbetween.1, hbetween.2.wake⟩
  | unregistering | storing =>
    rw [hw] at hbetween
    exact ⟨hbetween.1, hbetween.2.1, hbetween.2.2.wake⟩
  | notifying | looping | exiting | exited =>
    rw [hw] at hbetween
    exact hreported hbetween

theorem Reported.touch {signal : Signal} {r : Report} (h : Reported P signal r s) :
    Reported P signal r s.touch :=
  ⟨h.hr, h.window, h.honest, h.agrees, h.passed⟩

theorem Reported.setWorker {signal : Signal} {r : Report} (h : Reported P signal r s)
    (hne : s.worker ≠ .exited r) (worker : Worker) : Reported P signal r { s with worker } :=
  ⟨h.hr, h.window, h.honest, h.agrees.setWorker hne worker, h.passed⟩

/-- The notification reaches `start` if it still waits. -/
theorem Reported.notify {r : Report} (h : Reported P .stored r s) :
    Reported P .notified r s.wake := by
  obtain ⟨-, -, hhr, hwindow⟩ := wake_fields s
  exact ⟨hhr.trans h.hr, hwindow.trans h.window, h.honest, h.agrees.notify,
    fun hpending => waiting_wake (h.passed hpending)⟩

/-- A step of the worker. -/
theorem between_workerStep {a : Answer} (ha : (Event.worker a).Leaves P) (h : Between P s) :
    Between P (workerStep a s) := by
  have hbetween := h
  unfold Between at hbetween
  unfold workerStep
  cases hw : s.worker with
  | registering =>
    rw [hw] at hbetween
    obtain ⟨hwindow, hwaits⟩ := hbetween
    rw [touch_of_live hwaits.live]
    cases a with
    | success => exact ⟨hwindow, hwaits.setWorker _⟩
    | failure err => exact ⟨hwindow, .failure ha, hwaits.setWorker _⟩
  | creating =>
    rw [hw] at hbetween
    obtain ⟨hwindow, hwaits⟩ := hbetween
    rw [touch_of_live hwaits.live]
    cases a with
    | success => exact ⟨hwindow, hwaits.setWorker _⟩
    | failure err => exact ⟨hwindow, ⟨err, ha, rfl⟩, hwaits.setWorker _⟩
  | unregistering hr =>
    rw [hw] at hbetween
    obtain ⟨hwindow, ⟨err, herr, rfl⟩, hwaits⟩ := hbetween
    rw [touch_of_live hwaits.live]
    exact ⟨hwindow, .failure herr, hwaits.setWorker _⟩
  | publishing hwnd =>
    rw [hw] at hbetween
    obtain ⟨-, hwaits⟩ := hbetween
    rw [touch_of_live hwaits.live]
    exact ⟨rfl, .window hwnd, hwaits.hr, hwaits.live, hwaits.hwnd, hwaits.starter⟩
  | storing r =>
    rw [hw] at hbetween
    obtain ⟨hwindow, hhonest, hwaits⟩ := hbetween
    rw [touch_of_live hwaits.live]
    exact hwaits.store hwindow hhonest
  | notifying r =>
    rw [hw] at hbetween
    have hnotified := hbetween.touch.notify
    have hne : s.touch.wake.worker ≠ .exited r := by
      rw [(wake_fields s.touch).2.1, System.touch, hw]
      exact Worker.noConfusion
    obtain ⟨hr, window⟩ := r
    cases hbetween.honest with
    | window hwnd => exact hnotified.setWorker hne _
    | failure => exact hnotified.setWorker hne _
  | looping hwnd =>
    rw [hw] at hbetween
    cases a with
    | success => exact h
    | failure err =>
      have hne : s.worker ≠ .exited ⟨HResult.ok, some hwnd⟩ := by rw [hw]; exact Worker.noConfusion
      exact hbetween.setWorker hne _
  | exiting r =>
    rw [hw] at hbetween
    have hne : s.worker ≠ .exited r := by rw [hw]; exact Worker.noConfusion
    exact hbetween.setWorker hne _
  | exited r => exact h

/-- A step of `start` while it waits for the report. -/
theorem Waits.starterStep (h : Waits s) (allocated inTime : Bool) :
    ∃ w, starterStep allocated inTime s = { s with starter := .waiting w } ∧
      WaitOnValue.Sound .before true w := by
  obtain ⟨w, hw, hsound⟩ := h.starter
  have hsame : (s.hr == ePending) = true := beq_iff_eq.2 h.hr
  have hmove := hsound.move
  cases w with
  | through => exact absurd rfl hsound.stays
  | checking | blocking | asleep =>
    refine ⟨_, ?_, hmove⟩
    unfold StartHandshake.starterStep
    simp only [hw, hsame]

/-- A step of `start` after the report. -/
theorem Reported.starterStep {signal : Signal} {r : Report} (h : Reported P signal r s)
    (hworker : ∀ r', s.worker = .exited r' → r' = r) (allocated inTime : Bool) :
    Reported P signal r (starterStep allocated inTime s) := by
  have hagrees := h.agrees
  have hsame : (s.hr == ePending) = (r.hr == ePending) := by rw [h.hr]
  -- past the wait the report is not `E_PENDING`
  have hnot : ∀ {x}, s.starter = x → (∀ w, x ≠ .waiting w) → r.hr ≠ ePending := by
    rintro x rfl hx hpending
    obtain ⟨w, hw, -⟩ := h.passed hpending
    exact hx w hw
  unfold StartHandshake.starterStep
  cases hstarter : s.starter with
  | waiting w =>
    simp only [Agrees, hstarter] at hagrees
    obtain ⟨hlive, hhwnd, hsound⟩ := hagrees
    cases w with
    | through =>
      have hpending : r.hr ≠ ePending := fun heq => by
        have hfalse := hsound.through rfl
        rw [beq_iff_eq.2 heq] at hfalse
        cases hfalse
      by_cases hok : s.hr = HResult.ok
      · simp only [if_neg (not_not.2 hok)]
        exact ⟨h.hr, h.window, h.honest, ⟨hlive, hhwnd, h.hr.symm.trans hok⟩,
          fun heq => absurd heq hpending⟩
      · simp only [if_pos hok]
        exact ⟨h.hr, h.window, h.honest, ⟨hlive, hhwnd, h.hr, fun hr => hok (h.hr.trans hr)⟩,
          fun heq => absurd heq hpending⟩
    | checking | blocking | asleep =>
      simp only [hsame]
      refine ⟨h.hr, h.window, h.honest, ⟨hlive, hhwnd, hsound.move⟩, fun heq => ⟨_, rfl, ?_⟩⟩
      have hmove := hsound.move
      rw [beq_iff_eq.2 heq] at hmove ⊢
      exact hmove.stays
  | reaping hr =>
    have hpending := hnot hstarter (fun w => Starter.noConfusion)
    simp only [Agrees, hstarter] at hagrees
    obtain ⟨hlive, hhwnd, hhr, hfail⟩ := hagrees
    cases inTime with
    | false => exact ⟨h.hr, h.window, h.honest, hhwnd, fun heq => absurd heq hpending⟩
    | true =>
      simp only [Bool.not_true, Bool.false_eq_true, if_false]
      cases hw : s.worker with
      | exited r' =>
        obtain rfl := hworker r' hw
        simp only [Worker.hasExited, if_true]
        refine ⟨h.hr, h.window, h.honest, ⟨hhr, ?_⟩, fun heq => absurd heq hpending⟩
        rw [if_neg hfail]
        exact ⟨hhwnd, hw⟩
      | _ =>
        simp only [Worker.hasExited, Bool.false_eq_true, if_false]
        exact h
  | preparing =>
    have hpending := hnot hstarter (fun w => Starter.noConfusion)
    simp only [Agrees, hstarter] at hagrees
    cases allocated with
    | true => exact ⟨h.hr, h.window, h.honest, hagrees, fun heq => absurd heq hpending⟩
    | false => exact ⟨h.hr, h.window, h.honest, hagrees.2.1, fun heq => absurd heq hpending⟩
  | recording =>
    have hpending := hnot hstarter (fun w => Starter.noConfusion)
    simp only [Agrees, hstarter] at hagrees
    refine ⟨h.hr, h.window, h.honest, ⟨hagrees.2.2.symm, ?_⟩, fun heq => absurd heq hpending⟩
    rw [if_pos hagrees.2.2]
    exact h.window
  | returned | failedFast => exact h

/-- `start` leaves the worker's part alone. -/
theorem worker_starterStep (allocated inTime : Bool) (s : System) :
    (starterStep allocated inTime s).worker = s.worker ∧
      (starterStep allocated inTime s).stale = s.stale ∧
      (starterStep allocated inTime s).atomicHwnd = s.atomicHwnd := by
  unfold starterStep
  split <;> try split_ifs <;> exact ⟨rfl, rfl, rfl⟩
  all_goals exact ⟨rfl, rfl, rfl⟩

/-- A step of `start`. -/
theorem between_starterStep (allocated inTime : Bool) (h : Between P s) :
    Between P (starterStep allocated inTime s) := by
  obtain ⟨hworker, -, hwindow⟩ := worker_starterStep allocated inTime s
  have hbetween := h
  have hwaits : Waits s → Waits (starterStep allocated inTime s) := by
    intro hs
    obtain ⟨w, heq, hsound⟩ := hs.starterStep allocated inTime
    rw [heq]
    exact ⟨hs.hr, hs.live, hs.hwnd, w, rfl, hsound⟩
  unfold Between at hbetween ⊢
  rw [hworker, hwindow]
  cases hw : s.worker with
  | registering | creating | publishing =>
    rw [hw] at hbetween
    exact ⟨hbetween.1, hwaits hbetween.2⟩
  | unregistering | storing =>
    rw [hw] at hbetween
    exact ⟨hbetween.1, hbetween.2.1, hwaits hbetween.2.2⟩
  | notifying | looping | exiting =>
    rw [hw] at hbetween
    exact hbetween.starterStep (fun r' hr' => by rw [hw] at hr'; cases hr') _ _
  | exited r =>
    rw [hw] at hbetween
    exact hbetween.starterStep (fun r' hr' => by rw [hw] at hr'; cases hr'; rfl) _ _

theorem between_step {e : Event} (he : e.Leaves P) (h : Between P s) : Between P (step s e) := by
  cases e with
  | worker a => exact between_workerStep he h
  | starter allocated inTime => exact between_starterStep allocated inTime h
  | spurious => exact between_wake h

/-! ### Accesses that come too late -/

theorem hasReturned_wake (s : System) :
    s.wake.live = s.live ∧ s.wake.starter.hasReturned = s.starter.hasReturned := by
  unfold System.wake
  cases hstarter : s.starter with
  | waiting w => exact ⟨rfl, rfl⟩
  | reaping | preparing | recording | returned | failedFast => exact ⟨rfl, by rw [hstarter]⟩

/-- The worker does not make `start` return. -/
theorem hasReturned_workerStep (a : Answer) (s : System) :
    (workerStep a s).live = s.live ∧
      (workerStep a s).starter.hasReturned = s.starter.hasReturned := by
  unfold workerStep
  cases s.worker with
  | registering | creating | looping => cases a <;> exact ⟨rfl, rfl⟩
  | unregistering | publishing | storing | exiting | exited => exact ⟨rfl, rfl⟩
  | notifying r => exact hasReturned_wake s.touch

/-- The context is there until `start` returns. -/
theorem live_starterStep (allocated inTime : Bool) (hlive : s.live = !s.starter.hasReturned) :
    (starterStep allocated inTime s).live =
      !(starterStep allocated inTime s).starter.hasReturned := by
  unfold starterStep
  cases hstarter : s.starter with
  | waiting w =>
    rw [hstarter] at hlive
    cases w with
    | through => dsimp only; split_ifs <;> exact hlive
    | checking | blocking | asleep => exact hlive
  | reaping hr =>
    rw [hstarter] at hlive
    dsimp only
    split_ifs
    · exact hlive
    · rfl
    · rw [hstarter]
      exact hlive
  | preparing =>
    rw [hstarter] at hlive
    cases allocated <;> exact hlive
  | recording => rfl
  | returned | failedFast =>
    rw [hstarter] at hlive ⊢
    exact hlive

theorem live_step (hlive : s.live = !s.starter.hasReturned) (e : Event) :
    (step s e).live = !(step s e).starter.hasReturned := by
  cases e with
  | worker a =>
    obtain ⟨hsame, hreturned⟩ := hasReturned_workerStep a s
    exact hsame.trans (hlive.trans (congrArg not hreturned.symm))
  | starter allocated inTime => exact live_starterStep allocated inTime hlive
  | spurious =>
    obtain ⟨hsame, hreturned⟩ := hasReturned_wake s
    exact hsame.trans (hlive.trans (congrArg not hreturned.symm))

/-- Whatever is not the notification comes in time. -/
theorem stale_workerStep (h : Between P s) (a : Answer) (hne : ∀ r, s.worker ≠ .notifying r) :
    (workerStep a s).stale = s.stale := by
  unfold Between at h
  unfold workerStep
  cases hw : s.worker with
  | registering | creating =>
    rw [hw] at h
    rw [touch_of_live h.2.live]
    cases a <;> rfl
  | publishing =>
    rw [hw] at h
    rw [touch_of_live h.2.live]
  | unregistering | storing =>
    rw [hw] at h
    rw [touch_of_live h.2.2.live]
  | notifying r => exact absurd hw (hne r)
  | looping => cases a <;> rfl
  | exiting | exited => rfl

/-- The notification comes too late if the context is gone. -/
theorem stale_notify {r : Report} (hw : s.worker = .notifying r) (a : Answer) :
    (workerStep a s).stale = (s.stale || !s.live) := by
  unfold workerStep
  rw [hw]
  exact (wake_fields s.touch).1

/-- Who notifies too late has reported `S_OK`: after a failure `start` waits for the thread to end. -/
theorem returned_of_notifying (h : Between P s) {r : Report} (hw : s.worker = .notifying r)
    {hr : HResult} (hreturned : s.starter = .returned hr) : hr = HResult.ok := by
  unfold Between at h
  rw [hw] at h
  have hagrees := h.agrees
  simp only [Agrees, hreturned] at hagrees
  obtain ⟨rfl, hrest⟩ := hagrees
  by_contra hne
  rw [if_neg hne, hw] at hrest
  exact Worker.noConfusion hrest.2

theorem hasReturned_iff {w : Starter} : w.hasReturned = true ↔ ∃ hr, w = .returned hr := by
  cases w with
  | returned hr => exact iff_of_true rfl ⟨hr, rfl⟩
  | waiting | reaping | preparing | recording | failedFast =>
    refine iff_of_false Bool.false_ne_true ?_
    rintro ⟨hr, h⟩
    cases h

/-- A step in time is not late, -/
theorem stale_of_inTime (h : Sound P s) {e : Event} (he : InTime s e) :
    (step s e).stale = s.stale := by
  cases e with
  | spurious => exact (wake_fields s).1
  | starter allocated inTime => exact (worker_starterStep allocated inTime s).2.1
  | worker a =>
    by_cases hw : ∃ r, s.worker = .notifying r
    · obtain ⟨r, hw⟩ := hw
      have hlive : s.live = true := by
        rw [h.live, Bool.not_eq_true', Bool.eq_false_iff]
        intro hreturned
        obtain ⟨hr, hstarter⟩ := hasReturned_iff.1 hreturned
        exact he r hw hr hstarter
      rw [step, stale_notify hw, hlive, Bool.not_true, Bool.or_false]
    · exact stale_workerStep h.between a fun r hr => hw ⟨r, hr⟩

/-- and any other is, after `start` has returned `S_OK`. -/
theorem stale_of_not_inTime (h : Sound P s) {e : Event} (he : ¬ InTime s e) :
    (step s e).stale = true ∧ s.starter = .returned HResult.ok ∧
      (step s e).starter = .returned HResult.ok ∧ (step s e).worker.signal = .notified := by
  cases e with
  | spurious => exact absurd trivial he
  | starter allocated inTime => exact absurd trivial he
  | worker a =>
    obtain ⟨r, hw, hr, hreturned⟩ : ∃ r, s.worker = .notifying r ∧ ∃ hr, s.starter = .returned hr := by
      by_contra hno
      exact he fun r hw hr hreturned => hno ⟨r, hw, hr, hreturned⟩
    obtain rfl := returned_of_notifying h.between hw hreturned
    have hgone : s.live = false := by
      rw [h.live, hreturned]
      rfl
    refine ⟨?_, hreturned, ?_, ?_⟩
    · rw [step, stale_notify hw, hgone, Bool.not_false, Bool.or_true]
    · simp only [step, workerStep, hw, System.wake, System.touch, hreturned]
    · obtain ⟨hr, window⟩ := r
      cases window <;> simp only [step, workerStep, hw] <;> rfl

/-- What is over stays over. -/
theorem late_step (h : Sound P s) (e : Event) (hstale : s.stale = true) :
    (step s e).stale = true ∧ (step s e).starter = .returned HResult.ok ∧
      (step s e).worker.signal = .notified := by
  obtain ⟨hreturned, hsignal⟩ := h.late hstale
  have hwake : s.wake = s := by
    unfold System.wake
    rw [hreturned]
  cases e with
  | spurious =>
    show s.wake.stale = true ∧ s.wake.starter = _ ∧ s.wake.worker.signal = _
    rw [hwake]
    exact ⟨hstale, hreturned, hsignal⟩
  | starter allocated inTime =>
    have hsame : starterStep allocated inTime s = s := by
      unfold starterStep
      rw [hreturned]
    show (starterStep allocated inTime s).stale = true ∧ _ ∧ _
    rw [step, hsame]
    exact ⟨hstale, hreturned, hsignal⟩
  | worker a =>
    unfold step workerStep
    cases hw : s.worker with
    | registering | creating | unregistering | publishing | storing | notifying =>
      rw [hw] at hsignal
      cases hsignal
    | looping hwnd =>
      cases a with
      | success => exact ⟨hstale, hreturned, hsignal⟩
      | failure => exact ⟨hstale, hreturned, rfl⟩
    | exiting r => exact ⟨hstale, hreturned, rfl⟩
    | exited r => exact ⟨hstale, hreturned, hsignal⟩

/-- **Every step of every thread.** -/
theorem sound_step {e : Event} (he : e.Leaves P) (h : Sound P s) : Sound P (step s e) where
  live := live_step h.live e
  late := fun hstale => by
    by_cases hbefore : s.stale = true
    · exact (late_step h e hbefore).2
    · by_cases hinTime : InTime s e
      · rw [stale_of_inTime h hinTime] at hstale
        exact absurd hstale hbefore
      · exact (stale_of_not_inTime h hinTime).2.2
  between := between_step he h.between

/-- **Every order of steps.** -/
theorem sound_run {events : List Event} (h : ∀ e ∈ events, e.Leaves P) :
    Run.Always step (Sound P) {} events :=
  Run.always_of_allSteps (fun _ _ hs he => sound_step he hs) (sound_start P)
    (Run.AllSteps.of_forall h _)

/-! ### What `start` returns -/

theorem Sound.reported (h : Sound P s) {r : Report} (hr : s.worker.report = some r) :
    Reported P s.worker.signal r s := by
  have hbetween := h.between
  unfold Between at hbetween
  cases hw : s.worker <;> rw [hw] at hbetween hr <;> cases hr <;> exact hbetween

theorem Sound.unreported (h : Sound P s) (hr : s.worker.report = none) : Waits s := by
  have hbetween := h.between
  unfold Between at hbetween
  cases hw : s.worker with
  | registering | creating | publishing =>
    rw [hw] at hbetween
    exact hbetween.2
  | unregistering | storing =>
    rw [hw] at hbetween
    exact hbetween.2.2
  | notifying | looping | exiting | exited =>
    rw [hw] at hr
    cases hr

/-- `start` is over, or the process is. -/
def Starter.ended : Starter → Bool
  | .returned _ | .failedFast => true
  | _ => false

/-- What the two threads owe each other. -/
structure Correct (s : System) : Prop where
  /-- A context that is gone has been used only by the worker's notification, after `start` had
  returned `S_OK`. -/
  late : s.stale = true → s.starter = .returned HResult.ok ∧ s.worker.signal = .notified
  /-- `start` returns the code the worker reported. -/
  returned : ∀ hr, s.starter = .returned hr → ∃ r, s.worker.report = some r ∧ hr = r.hr
  /-- Then it has recorded the window of the worker. -/
  recorded : s.starter = .returned HResult.ok → ∃ r, s.worker.report = some r ∧ s.hwnd = r.window
  /-- After a failure the thread has ended, and nothing is recorded. -/
  failed : ∀ hr, s.starter = .returned hr → hr ≠ HResult.ok →
    s.hwnd = none ∧ ∃ r, s.worker = .exited r
  unrecorded : (∀ hr, s.starter ≠ .returned hr) → s.hwnd = none
  /-- No notification is lost. -/
  asleep : s.starter = .waiting .asleep → s.worker.signal = .notified → s.hr = ePending

theorem Sound.correct (h : Sound P s) : Correct s := by
  cases hreport : s.worker.report with
  | none =>
    have hwaits := h.unreported hreport
    obtain ⟨w, hw, hsound⟩ := hwaits.starter
    have hne : ∀ hr, s.starter ≠ .returned hr := fun hr => by rw [hw]; exact Starter.noConfusion
    exact ⟨h.late, fun hr heq => absurd heq (hne hr), fun heq => absurd heq (hne _),
      fun hr heq => absurd heq (hne hr), fun _ => hwaits.hwnd, fun _ _ => hwaits.hr⟩
  | some r =>
    have hreported := h.reported hreport
    have hagrees := hreported.agrees
    refine ⟨h.late, fun hr heq => ?_, fun heq => ?_, fun hr heq hne => ?_, fun hne => ?_,
      fun heq hsignal => ?_⟩
    · simp only [Agrees, heq] at hagrees
      exact ⟨r, hreport, hagrees.1⟩
    · simp only [Agrees, heq] at hagrees
      refine ⟨r, hreport, ?_⟩
      have hok := hagrees.2
      rwa [if_pos hagrees.1.symm] at hok
    · simp only [Agrees, heq] at hagrees
      have hfail := hagrees.2
      rw [if_neg (fun hok => hne (hagrees.1.trans hok))] at hfail
      exact ⟨hfail.1, r, hfail.2⟩
    · cases hstarter : s.starter with
      | returned hr => exact absurd hstarter (hne hr)
      | waiting | reaping | preparing | recording =>
        simp only [Agrees, hstarter] at hagrees
        exact hagrees.2.1
      | failedFast =>
        simp only [Agrees, hstarter] at hagrees
        exact hagrees
    · simp only [Agrees, heq] at hagrees
      exact hreported.hr.trans (beq_iff_eq.1 (hagrees.2.2.asleep rfl hsignal))

/-- The context is used in time exactly if no notification comes after `start` has returned. -/
theorem inTime_iff (events : List Event) :
    (events.foldl step {}).stale = false ↔ Run.AllSteps step InTime {} events := by
  have hstep : ∀ (s : System) (e : Event), Sound (fun _ => True) s ∧ s.stale = false → InTime s e →
      Sound (fun _ => True) (step s e) ∧ (step s e).stale = false := by
    rintro s e ⟨hs, hstale⟩ he
    exact ⟨sound_step (leaves_true e) hs, (stale_of_inTime hs he).trans hstale⟩
  have hleave : ∀ (s : System) (e : Event), Sound (fun _ => True) s ∧ s.stale = false → ¬ InTime s e →
      Sound (fun _ => True) (step s e) ∧ (step s e).stale = true := by
    rintro s e ⟨hs, -⟩ he
    exact ⟨sound_step (leaves_true e) hs, (stale_of_not_inTime hs he).1⟩
  have htrap : ∀ (s : System) (e : Event), Sound (fun _ => True) s ∧ s.stale = true →
      Sound (fun _ => True) (step s e) ∧ (step s e).stale = true := by
    rintro s e ⟨hs, hstale⟩
    exact ⟨sound_step (leaves_true e) hs, (late_step hs e hstale).1⟩
  refine Run.last_iff_of_trap (Q := fun s => s.stale = false) hstep hleave htrap
    (fun _ hs => hs.2) ?_ ⟨sound_start _, rfl⟩ events
  rintro s ⟨-, hstale⟩ hfresh
  rw [hstale] at hfresh
  cases hfresh

/-- **In every order of steps** the worker's report reaches `start`, and the window the worker created
is the one recorded.  The worker uses a context that is gone exactly if it comes to its notification
only after `start` has returned, which is then with `S_OK`. -/
theorem handshake_correct (events : List Event) :
    Run.Always step Correct {} events ∧
      ((events.foldl step {}).stale = false ↔ Run.AllSteps step InTime {} events) :=
  ⟨(sound_run (P := fun _ => True) fun e _ => leaves_true e).mono fun _ h => h.correct,
    inTime_iff events⟩

/-- The worker stores `S_OK` and is held up; `start` has not slept and returns. -/
example : ([.worker (.success 0), .worker (.success 5), .worker (.success 0), .worker (.success 0),
    .starter true true, .starter true true, .starter true true, .starter true true,
    .worker (.success 0)].foldl step {}).stale = true := by decide

/-! ### Whether `start` ends -/

/-- **A handshake that ends with a result does what the controller model does** with the worker's
report as one answer: the window that is recorded is the same. -/
theorem start_agrees {events : List Event} {hr : HResult}
    (hend : (events.foldl step {}).starter = .returned hr) {c : WindowController.State}
    (hready : c.world.controller.state = .ready) (hdata : c.world.controller.data = none)
    (hnone : c.hwnd = none) (threadId : ThreadId) (reap : StartFailureAnswers) :
    (WindowController.start ⟨.ok threadId, (events.foldl step {}).hr,
      (events.foldl step {}).atomicHwnd, reap, true⟩ c).hwnd.map WindowController.Hwnd.value =
        (events.foldl step {}).hwnd := by
  have hsound := (sound_run (P := fun _ => True) fun e (_ : e ∈ events) => leaves_true e).last
  generalize events.foldl step {} = s at hend hsound ⊢
  have hcorrect := hsound.correct
  obtain ⟨r, hreport, rfl⟩ := hcorrect.returned hr hend
  have hreported := hsound.reported hreport
  have hlaunch : Win32.start (.ok threadId) c.world =
      (HResult.ok, some ⟨c.world.launches, threadId⟩, c.world.launched threadId) := by
    simp only [Win32.start, hready, hdata]
    rfl
  have hsucceeded : HResult.ok.failed = false := by decide
  unfold WindowController.start
  simp only [hlaunch, hsucceeded, Bool.false_eq_true, if_false]
  by_cases hok : s.hr = HResult.ok
  · have hrecorded : s.hwnd = s.atomicHwnd := by
      rw [← hreported.hr, hok] at hend
      obtain ⟨r', hreport', hwindow⟩ := hcorrect.recorded hend
      rw [hreport] at hreport'
      cases hreport'
      rw [hwindow, hreported.window]
    simp only [if_neg (not_not.2 hok), Bool.not_true, Bool.false_eq_true, if_false, hrecorded,
      Option.map_map]
    exact Option.map_id'
  · have hnot := (hcorrect.failed _ hend (fun heq => hok (hreported.hr.trans heq))).1
    simp only [ne_eq, hok, not_false_eq_true, if_true, hnot, hnone, Option.map_none]

/-- The worker creates window 5 while `start` sleeps. -/
def quietStart : List Event :=
  [.starter true true, .starter true true, .worker (.success 0), .worker (.success 5),
    .worker (.success 0), .worker (.success 0), .worker (.success 0), .starter true true,
    .starter true true, .starter true true, .starter true true]

theorem start_agrees_quietStart :
    (WindowController.start ⟨.ok 3, (quietStart.foldl step {}).hr,
      (quietStart.foldl step {}).atomicHwnd, ⟨.object0, ⟨.ok 0, none⟩⟩, true⟩ {}).hwnd.map
        WindowController.Hwnd.value = (quietStart.foldl step {}).hwnd :=
  start_agrees (show (quietStart.foldl step {}).starter = .returned HResult.ok by decide)
    (by decide) (by decide) (by decide) 3 ⟨.object0, ⟨.ok 0, none⟩⟩

end RoxyGlance.Win32.StartHandshake
