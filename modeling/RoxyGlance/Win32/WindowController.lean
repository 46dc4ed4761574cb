import RoxyGlance.Lib.Run
import RoxyGlance.Win32.MessageLoopThread

/-!
# The window of a `WindowController`

`WindowController` adds the worker's window to the thread controller.  `stop` posts `WM_CLOSE` to
it, so `hwnd_` must go when its thread does.  The code that `stopThread` returns says either that
the stop failed or, once the thread has been reaped, what it exited with, and `stop` forgets the
window by this code alone: an exit code that is a failure leaves the window of a thread that is gone
(`window_forgotten_iff`).
-/

namespace RoxyGlance.Win32.WindowController

/-- A window, with the handle of the thread that created it. -/
structure Hwnd where
  value : ℕ
  thread : Handle
  deriving DecidableEq, Repr

/-- The fields of `WindowController`. -/
structure State where
  world : World Hwnd := { controller := { stopFailurePolicy := .failFast } }
  hwnd : Option Hwnd := none
  /-- `fastfail` has not been called. -/
  alive : Bool := true
  deriving DecidableEq, Repr

/-- What the system answers to `start`. -/
structure StartAnswers where
  launch : Except LaunchError ThreadId
  /-- The worker's report, as `wait_and_load` returns it. -/
  report : HResult
  /-- The window the worker has put into the context, if any. -/
  window : Option ℕ
  reap : StartFailureAnswers
  /-- The retry state factory finds memory. -/
  factoryAllocated : Bool

/-- `WindowController::start` -/
def start (a : StartAnswers) (s : State) : State :=
  match Win32.start a.launch s.world with
  | (hr, info, w) =>
    if hr.failed then { s with world := w }
    else match info with
      | none => { s with world := w }
      | some info =>
        if a.report ≠ HResult.ok then
          let (outcome, w) := reapThreadAfterStartFailure info.hthread a.reap w
          { s with world := w, alive := decide (outcome ≠ .fastfail) }
        else if !a.factoryAllocated then { s with world := w, alive := false }
        else
          { s with
            world := w.setController { w.controller with maxAttempts := 5 }
            hwnd := a.window.map fun value => ⟨value, info.hthread⟩ }

/-- `WindowController::stop` after `stopThread`. -/
def afterStopThread (s : State) (r : Outcome × World Hwnd) : State :=
  match r with
  | (.fastfail, w) => { s with world := w, alive := false }
  | (.returned hr, w) =>
    if hr.failed then { s with world := w } else { s with world := w, hwnd := none }

/-- `WindowController::stop`, called by the thread `caller`. -/
def stop (caller : ThreadId) (a : StopAnswers) (s : State) : State :=
  if s.world.controller.state = .ready then s
  else if (validateThreadAccess caller s.world.controller.data).failed then s
  else match s.world.controller.data, s.hwnd with
    | none, _ => s
    | some _, none => s
    | some info, some hwnd =>
      afterStopThread s (stopThread info.hthread hwnd a s.world.stopping)

/-- A call. -/
inductive Event
  | start (a : StartAnswers)
  | stop (caller : ThreadId) (a : StopAnswers)

/-- One call, as long as the process lives. -/
def step (s : State) (e : Event) : State :=
  if !s.alive then s
  else match e with
    | .start a => start a s
    | .stop caller a => stop caller a s

/-- A stop message goes to a window whose thread has not been reaped. -/
def Permitted (held : Handle → Prop) : Use Hwnd → Prop
  | .post hwnd => held hwnd.thread
  | _ => True

/-- A window is recorded only with its thread, while the controller is not ready. -/
def Recorded (s : State) : Prop :=
  ∀ hwnd, s.hwnd = some hwnd →
    (s.world.controller.state = .running ∨ s.world.controller.state = .stopping) ∧
      s.world.controller.data.map ThreadInfo.hthread = some hwnd.thread

/-- The window recorded is that of the recorded thread, there is none while the controller is ready,
and no message went to a window of a reaped thread. -/
def Sound (s : State) : Prop :=
  Recorded s ∧ (s.world.controller.state = .ready → s.hwnd = none) ∧
    Ledger.Legal Permitted s.world.log

/-- A `stop` that reaps the thread does not read a failure as its exit code. -/
def ExitsWell (s : State) : Event → Prop
  | .start _ => True
  | .stop caller a =>
    s.alive = true → stopTarget caller s.world.controller ≠ none → s.hwnd ≠ none →
      a.Reaps s.world.controller.maxAttempts → a.reap.exitHResult.failed = false

/-! ### The calls -/

/-- What `start` does: nothing, or it launches a thread and then either gives it up or keeps it with
its window. -/
theorem start_cases (a : StartAnswers) (s : State) :
    start a s = s ∨
    (∃ threadId, s.world.controller.state = .ready ∧
      ((∃ alive, start a s =
          { s with
            world := (reapThreadAfterStartFailure s.world.launches a.reap
              (s.world.launched threadId)).2
            alive := alive }) ∨
        start a s = { s with world := s.world.launched threadId, alive := false } ∨
        start a s =
          { s with
            world := (s.world.launched threadId).setController
              { (s.world.launched threadId).controller with maxAttempts := 5 }
            hwnd := a.window.map fun value => ⟨value, s.world.launches⟩ })) := by
  rcases Win32.start_cases a.launch s.world with ⟨hfail, hsame⟩ | ⟨threadId, hready, -, hlaunched⟩
  · refine .inl ?_
    simp only [start, hfail, hsame, if_true]
  · refine .inr ⟨threadId, hready, ?_⟩
    simp only [start, hlaunched, show HResult.ok.failed = false by decide, Bool.false_eq_true,
      if_false]
    split
    · exact .inl ⟨_, rfl⟩
    · split
      · exact .inr (.inl rfl)
      · exact .inr (.inr rfl)

/-- A `stop` that does not get past its checks does nothing. -/
theorem stop_of_checks {caller : ThreadId} {s : State}
    (h : stopTarget caller s.world.controller = none ∨ s.hwnd = none) (a : StopAnswers) :
    stop caller a s = s := by
  rw [stop]
  split
  · rfl
  · split
    · rfl
    · rename_i hstate hvalid
      rcases h with htarget | hhwnd
      · rcases stopTarget_eq_none htarget with h | h
        · exact absurd h hstate
        · exact absurd h hvalid
      · rw [hhwnd]
        split <;> simp_all

/-- A `stop` past its checks reaps the thread and goes by its exit code, or leaves the thread
recorded. -/
theorem stop_cases {caller : ThreadId} {s : State} {info : ThreadInfo} {hwnd : Hwnd}
    (htarget : stopTarget caller s.world.controller = some info) (hhwnd : s.hwnd = some hwnd)
    (a : StopAnswers) :
    ∃ us : List (Use Hwnd), (∀ u ∈ us, u = .wait info.hthread ∨ u = .post hwnd) ∧
      ((a.Reaps s.world.controller.maxAttempts ∧
          stop caller a s =
            { s with
              world := (s.world.stopping.note us).reaped info.hthread
              hwnd := if a.reap.exitHResult.failed then some hwnd else none }) ∨
        (¬ a.Reaps s.world.controller.maxAttempts ∧
          (stop caller a s).world = s.world.stopping.note us ∧
            ((stop caller a s).hwnd = some hwnd ∨ (stop caller a s).hwnd = none))) := by
  obtain ⟨hstate, hdata, hvalid⟩ := stopTarget_eq_some htarget
  have hstop : stop caller a s =
      afterStopThread s (stopThread info.hthread hwnd a s.world.stopping) := by
    rw [stop, if_neg hstate, if_neg (by simp [hvalid]), hdata, hhwnd]
  rw [hstop]
  by_cases hreaps : a.Reaps s.world.controller.maxAttempts
  · obtain ⟨us, hus, -, hw⟩ :=
      stopThread_of_reaps (w := s.world.stopping) hreaps info.hthread hwnd
    refine ⟨us, hus, .inl ⟨hreaps, ?_⟩⟩
    rw [hw, afterStopThread]
    split
    · rw [← hhwnd]
    · rfl
  · obtain ⟨us, hus, hw⟩ :=
      stopThread_of_not_reaps (w := s.world.stopping) hreaps info.hthread hwnd
    refine ⟨us, hus, .inr ⟨hreaps, ?_⟩⟩
    rw [← hw]
    rcases stopThread info.hthread hwnd a s.world.stopping with ⟨outcome, w⟩
    cases outcome with
    | fastfail => exact ⟨rfl, .inl hhwnd⟩
    | returned hr =>
      rw [afterStopThread]
      split
      · exact ⟨rfl, .inl hhwnd⟩
      · exact ⟨rfl, .inr rfl⟩

/-! ### The invariant -/

/-- The sections keep what they keep, and the window is that of the thread recorded. -/
structure Inv (s : State) : Prop where
  controlled : Controlled Permitted s.world
  recorded : Recorded s

theorem inv_init : Inv {} where
  controlled := ⟨trivial, by simp, by simp, by simp⟩
  recorded := fun hwnd h => by cases h

/-- A controller that is ready records no window. -/
theorem hwnd_eq_none_of_ready {s : State} (hs : Recorded s)
    (hready : s.world.controller.state = .ready) : s.hwnd = none := by
  cases hhwnd : s.hwnd with
  | none => rfl
  | some hwnd =>
    rcases (hs hwnd hhwnd).1 with h | h
    · rw [hready] at h
      cases h
    · rw [hready] at h
      cases h

theorem Inv.sound {s : State} (h : Inv s) : Sound s :=
  ⟨h.recorded, hwnd_eq_none_of_ready h.recorded, h.controlled.legal⟩

/-- Giving up a thread that failed to start keeps what every section keeps. -/
theorem controlled_reapAfterStartFailure {w : World Hwnd} (h : Controlled Permitted w)
    {info : ThreadInfo} (hdata : w.controller.data = some info) (a : StartFailureAnswers) :
    Controlled Permitted (reapThreadAfterStartFailure info.hthread a w).2 := by
  have hawaited : Controlled Permitted (awaited info.hthread w) := by
    apply (h.stopping (by simp [hdata])).note
    intro u hu
    rcases List.mem_cons.1 hu with rfl | hu
    · exact trivial
    · rw [List.mem_singleton.1 hu]
      exact trivial
  by_cases hreaps : a.Reaps
  · rw [reapThreadAfterStartFailure_of_reaps hreaps]
    exact hawaited.reaped hdata
  · rw [reapThreadAfterStartFailure_of_not_reaps hreaps]
    exact hawaited

theorem inv_start {s : State} (hs : Inv s) (a : StartAnswers) : Inv (start a s) := by
  rcases start_cases a s with heq | ⟨threadId, hready, hcases⟩
  · rw [heq]
    exact hs
  · have hlaunched := hs.controlled.launched threadId
    have hnone : s.hwnd = none := hwnd_eq_none_of_ready hs.recorded hready
    rcases hcases with ⟨alive, heq⟩ | heq | heq
    · rw [heq]
      refine ⟨controlled_reapAfterStartFailure hlaunched rfl a.reap, fun hwnd h => ?_⟩
      rw [hnone] at h
      cases h
    · rw [heq]
      refine ⟨hlaunched, fun hwnd h => ?_⟩
      rw [hnone] at h
      cases h
    · rw [heq]
      refine ⟨hlaunched.setMaxAttempts 5, fun hwnd h => ?_⟩
      obtain ⟨value, -, rfl⟩ := Option.map_eq_some_iff.1 h
      exact ⟨.inl rfl, rfl⟩

theorem inv_stop {s : State} (hs : Inv s) {caller : ThreadId} {a : StopAnswers}
    (hexit : stopTarget caller s.world.controller ≠ none → s.hwnd ≠ none →
      a.Reaps s.world.controller.maxAttempts → a.reap.exitHResult.failed = false) :
    Inv (stop caller a s) := by
  cases htarget : stopTarget caller s.world.controller with
  | none =>
    rw [stop_of_checks (.inl htarget)]
    exact hs
  | some info =>
    cases hhwnd : s.hwnd with
    | none =>
      rw [stop_of_checks (.inr hhwnd)]
      exact hs
    | some hwnd =>
      obtain ⟨-, hdata, -⟩ := stopTarget_eq_some htarget
      have hthread : info.hthread = hwnd.thread := by
        have h := (hs.recorded hwnd hhwnd).2
        rw [hdata] at h
        exact Option.some.inj h
      have hstopping := hs.controlled.stopping (by simp [hdata])
      obtain ⟨us, hus, hcases⟩ := stop_cases htarget hhwnd a
      -- the window a message is posted to belongs to the thread recorded, which is still held
      have hnote : Controlled Permitted (s.world.stopping.note us) := by
        apply hstopping.note
        intro u hu
        rcases hus u hu with rfl | rfl
        · exact trivial
        · show Ledger.Held s.world.log hwnd.thread
          rw [← hthread]
          exact hs.controlled.held info hdata
      rcases hcases with ⟨hreaps, heq⟩ | ⟨-, hworld, hkeep⟩
      · have hwell := hexit (by simp [htarget]) (by simp [hhwnd]) hreaps
        rw [heq]
        refine ⟨hnote.reaped hdata, fun hwnd' h => ?_⟩
        simp [hwell] at h
      · refine ⟨hworld ▸ hnote, fun hwnd' h => ?_⟩
        rw [hworld]
        rcases hkeep with hkeep | hkeep
        · rw [hkeep] at h
          cases h
          exact ⟨.inr rfl, (hs.recorded hwnd hhwnd).2⟩
        · rw [hkeep] at h
          cases h

/-- A thread that is reaped with a failure leaves its window behind. -/
theorem exitsWell_of_recorded {s : State} {caller : ThreadId} {a : StopAnswers}
    (h : Recorded (stop caller a s)) (htarget : stopTarget caller s.world.controller ≠ none)
    (hhwnd : s.hwnd ≠ none) (hreaps : a.Reaps s.world.controller.maxAttempts) :
    a.reap.exitHResult.failed = false := by
  obtain ⟨info, htarget⟩ := Option.ne_none_iff_exists'.1 htarget
  obtain ⟨hwnd, hhwnd⟩ := Option.ne_none_iff_exists'.1 hhwnd
  obtain ⟨us, -, hcases⟩ := stop_cases htarget hhwnd a
  rcases hcases with ⟨-, heq⟩ | ⟨hnot, -⟩
  · rw [heq] at h
    have hnone := hwnd_eq_none_of_ready h rfl
    by_contra hfailed
    simp [hfailed] at hnone
  · exact absurd hreaps hnot

/-- **Step lemma.** -/
theorem inv_step (s : State) (e : Event) (hs : Inv s) (he : ExitsWell s e) : Inv (step s e) := by
  unfold step
  by_cases halive : s.alive = true
  · simp only [halive, Bool.not_true, Bool.false_eq_true, if_false]
    cases e with
    | start a => exact inv_start hs a
    | stop caller a => exact inv_stop hs (he halive)
  · simp only [halive, Bool.not_false, if_true]
    exact hs

theorem exitsWell_of_sound (s : State) (e : Event) (_ : Inv s) (hsound : Sound (step s e)) :
    ExitsWell s e := by
  cases e with
  | start a => exact trivial
  | stop caller a =>
    intro halive
    simp only [step, halive, Bool.not_true, Bool.false_eq_true, if_false] at hsound
    exact exitsWell_of_recorded hsound.1

/-- **The window of a stopped thread is forgotten**, through every sequence of calls and whatever the
system answers, exactly if no `stop` that reaps the thread reads a failure as its exit code. -/
theorem window_forgotten_iff (es : List Event) :
    Run.Always step Sound {} es ↔ Run.AllSteps step ExitsWell {} es :=
  Run.always_iff_of_invariant inv_step (fun _ => Inv.sound) exitsWell_of_sound inv_init es

/-- Removing the tray icon fails, the worker exits with that code, and the controller is ready with
a window on record. -/
theorem failing_exit_unsound :
    ¬ Run.Always step Sound {}
      [.start
          { launch := .ok 7
            report := HResult.ok
            window := some 100
            reap := ⟨.object0, ⟨.ok 0#32, none⟩⟩
            factoryAllocated := true },
        .stop 9
          { retryAllocated := true
            attempts := fun _ => ⟨none, .object0⟩
            reap := ⟨.ok HResult.fail, none⟩ }] := by
  intro h
  have hready := h.last.2.1 (by decide)
  revert hready
  decide

end RoxyGlance.Win32.WindowController
