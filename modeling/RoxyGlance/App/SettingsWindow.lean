import Mathlib.Data.Finset.Basic
import Mathlib.Logic.Function.Basic
import RoxyGlance.Lib.Run
import RoxyGlance.Message.MessageWindow

/-!
# The settings window of the application

`App` listens to the message window, whose requests it puts into the queue of its dispatcher.  One
task opens the settings window unless it is open, the other one closes it and ends the application.
While a window is open `App` holds it with the token of its handler for `Closed`, by which it learns
that the user has closed the window.

The listeners are not under a lock: the message window iterates over them in its own thread, and
`exitApp` removes `App` from them in the thread of the user interface.  Here a notification finds its
listener and queues the task in one step, before or after the removal, and nothing is said about the
data race.

* `settingsWindow_sound`: in every run there is at most one window, the handler finds the window it
  has been called for, and it is not called for a window that `App` closes itself;
* `staysClosed_iff`: once the application has ended no window is opened any more, exactly if no
  request to show the settings is queued behind a request to exit.
-/

namespace RoxyGlance.App.SettingsWindow

open Message (Notification)

/-- What is queued for the dispatcher. -/
inductive Task
  | exitApp
  | showSettingsWindow
  deriving DecidableEq, Repr

/-- `App`, its dispatcher and the windows.  Windows and tokens are numbered in the order in which
they are made. -/
structure State where
  /-- `settings_window_` -/
  settingsWindow : Option ℕ := none
  /-- `settings_window_closed_token_`, 0 if there is none. -/
  closedToken : ℕ := 0
  /-- The windows that are open. -/
  opened : Finset ℕ := ∅
  /-- The handlers for `Closed` of each window, by their tokens. -/
  handlers : ℕ → List ℕ := fun _ => []
  windows : ℕ := 0
  queue : List Task := []
  /-- `App` listens to the message window. -/
  listening : Bool := true
  /-- `Exit` has been called. -/
  exited : Bool := false
  /-- A null window has been used. -/
  crashed : Bool := false

namespace State

/-- `window.Closed(token)` -/
def revoke (window token : ℕ) (s : State) : State :=
  { s with handlers := Function.update s.handlers window ((s.handlers window).erase token) }

/-- The handler for `Closed`. -/
def onClosed (s : State) : State :=
  let token := s.closedToken
  match s.settingsWindow with
  | none => { s with closedToken := 0, crashed := true }
  | some window => { s with closedToken := 0, settingsWindow := none }.revoke window token

/-- A window that is open is closed, and its handlers are called. -/
def close (window : ℕ) (s : State) : State :=
  if window ∈ s.opened then
    (s.handlers window).foldl (fun s _ => s.onClosed) { s with opened := s.opened.erase window }
  else s

/-- `App::exitApp` -/
def exitApp (s : State) : State :=
  let s := { s with listening := false }
  let s := match s.settingsWindow with
    | none => s
    | some window =>
      let token := s.closedToken
      let s := if token ≠ 0 then { s with closedToken := 0 }.revoke window token else s
      { s with settingsWindow := none }.close window
  { s with exited := true }

/-- `App::showSettingsWindow` -/
def showSettingsWindow (s : State) : State :=
  match s.settingsWindow with
  | some _ => s
  | none =>
    { s with
      settingsWindow := some s.windows
      closedToken := s.windows + 1
      opened := insert s.windows s.opened
      handlers := Function.update s.handlers s.windows [s.windows + 1]
      windows := s.windows + 1 }

/-- The dispatcher runs a task. -/
def run (s : State) : Task → State
  | .exitApp => s.exitApp
  | .showSettingsWindow => s.showSettingsWindow

end State

/-- The task for a notification. -/
def taskOf : Notification → Option Task
  | .appExitRequested => some .exitApp
  | .showSettingsRequested => some .showSettingsWindow
  | .displayChanged => none

/-- What happens next. -/
inductive Event
  /-- The message window notifies its listeners, in one step; `TryEnqueue` succeeds or not. -/
  | notify (notification : Notification) (enqueued : Bool)
  /-- The dispatcher runs the next task. -/
  | run
  /-- The user closes a window. -/
  | close (window : ℕ)
  deriving DecidableEq, Repr

/-- One event. -/
def move (s : State) : Event → State
  | .notify notification enqueued =>
    if s.listening && enqueued then
      { s with queue := s.queue ++ (taskOf notification).toList }
    else s
  | .run =>
    match s.queue with
    | [] => s
    | task :: queue => { s with queue }.run task
  | .close window => s.close window

/-- One event, as long as nothing has crashed. -/
def step (s : State) (e : Event) : State := if s.crashed then s else move s e

/-! ### At most one window -/

/-- Nothing has crashed; the window on record is the only one that is open, and its only handler the
one on record; without one there is no token. -/
structure Sound (s : State) : Prop where
  crashed : s.crashed = false
  window : match s.settingsWindow with
    | none => s.closedToken = 0 ∧ s.opened = ∅
    | some window => s.closedToken ≠ 0 ∧ s.opened = {window} ∧
      s.handlers window = [s.closedToken]
  ended : s.exited = true → s.listening = false

section Sound

variable {s : State}

theorem sound_init : Sound {} := ⟨rfl, ⟨rfl, rfl⟩, fun h => by cases h⟩

/-- Without a window on record none is open. -/
theorem Sound.none_open (hs : Sound s) (hwindow : s.settingsWindow = none) :
    s.closedToken = 0 ∧ s.opened = ∅ := by
  have h := hs.window
  rw [hwindow] at h
  exact h

theorem Sound.one_open (hs : Sound s) {window : ℕ} (hwindow : s.settingsWindow = some window) :
    s.closedToken ≠ 0 ∧ s.opened = {window} ∧ s.handlers window = [s.closedToken] := by
  have h := hs.window
  rw [hwindow] at h
  exact h

/-- **Closing a window**: it is not open, or it is the one on record, whose handler takes it and
itself off the record. -/
theorem close_cases (hs : Sound s) (window : ℕ) :
    s.close window = s ∨ (s.settingsWindow = some window ∧ s.close window =
      { s with closedToken := 0, settingsWindow := none, opened := ∅ }.revoke window
        s.closedToken) := by
  by_cases hopen : window ∈ s.opened
  · cases hwindow : s.settingsWindow with
    | none =>
      rw [(hs.none_open hwindow).2] at hopen
      exact absurd hopen (Finset.notMem_empty _)
    | some window' =>
      obtain ⟨-, hopened, hhandlers⟩ := hs.one_open hwindow
      rw [hopened, Finset.mem_singleton] at hopen
      subst hopen
      refine .inr ⟨rfl, ?_⟩
      rw [State.close, if_pos (by rw [hopened]; exact Finset.mem_singleton_self _), hhandlers,
        hopened, Finset.erase_singleton]
      simp [State.onClosed, hwindow]
  · exact .inl (if_neg hopen)

/-- **Ending the application** closes the window without calling the handler. -/
theorem exitApp_fields (hs : Sound s) :
    s.exitApp.settingsWindow = none ∧ s.exitApp.closedToken = 0 ∧ s.exitApp.opened = ∅ ∧
      s.exitApp.crashed = false ∧ s.exitApp.listening = false ∧ s.exitApp.exited = true ∧
      s.exitApp.queue = s.queue := by
  unfold State.exitApp
  cases hwindow : s.settingsWindow with
  | none =>
    obtain ⟨htoken, hopened⟩ := hs.none_open hwindow
    have hcrashed := hs.crashed
    simp [htoken, hopened, hcrashed]
  | some window =>
    obtain ⟨htoken, hopened, hhandlers⟩ := hs.one_open hwindow
    have hcrashed := hs.crashed
    simp [State.close, State.revoke, htoken, hopened, hhandlers, hcrashed]

theorem sound_close (hs : Sound s) (window : ℕ) : Sound (s.close window) := by
  rcases close_cases hs window with h | ⟨-, h⟩
  · rw [h]
    exact hs
  · rw [h]
    exact ⟨hs.crashed, ⟨rfl, rfl⟩, hs.ended⟩

theorem sound_exitApp (hs : Sound s) : Sound s.exitApp := by
  obtain ⟨hwindow, htoken, hopened, hcrashed, hlistening, -, -⟩ := exitApp_fields hs
  refine ⟨hcrashed, ?_, fun _ => hlistening⟩
  rw [hwindow]
  exact ⟨htoken, hopened⟩

theorem sound_showSettingsWindow (hs : Sound s) : Sound s.showSettingsWindow := by
  unfold State.showSettingsWindow
  cases hwindow : s.settingsWindow with
  | some window => exact hs
  | none =>
    obtain ⟨-, hopened⟩ := hs.none_open hwindow
    refine ⟨hs.crashed, ⟨Nat.succ_ne_zero _, ?_, Function.update_self ..⟩, hs.ended⟩
    rw [hopened]
    rfl

/-- The queue does not matter. -/
theorem Sound.setQueue (hs : Sound s) (queue : List Task) : Sound { s with queue } :=
  ⟨hs.crashed, hs.window, hs.ended⟩

theorem sound_run (hs : Sound s) (task : Task) : Sound (s.run task) := by
  cases task with
  | exitApp => exact sound_exitApp hs
  | showSettingsWindow => exact sound_showSettingsWindow hs

theorem step_eq_move (hs : Sound s) (e : Event) : step s e = move s e :=
  if_neg (by rw [hs.crashed]; exact Bool.false_ne_true)

/-- A notification is lost, or its task is queued. -/
theorem notify_cases (hs : Sound s) (notification : Notification) (enqueued : Bool) :
    step s (.notify notification enqueued) = s ∨
      (s.listening = true ∧ enqueued = true ∧ step s (.notify notification enqueued) =
        { s with queue := s.queue ++ (taskOf notification).toList }) := by
  rw [step_eq_move hs, move]
  split_ifs with hqueued
  · rw [Bool.and_eq_true] at hqueued
    exact .inr ⟨hqueued.1, hqueued.2, rfl⟩
  · exact .inl rfl

/-- The dispatcher has nothing to do, or runs the task at the head of the queue. -/
theorem run_cases (hs : Sound s) :
    step s .run = s ∨ ∃ task queue, s.queue = task :: queue ∧
      step s .run = { s with queue }.run task := by
  rw [step_eq_move hs, move]
  cases hqueue : s.queue with
  | nil => exact .inl rfl
  | cons task queue => exact .inr ⟨task, queue, rfl, rfl⟩

/-- **Step lemma.** -/
theorem sound_step (s : State) (e : Event) (hs : Sound s) : Sound (step s e) := by
  cases e with
  | notify notification enqueued =>
    rcases notify_cases hs notification enqueued with h | ⟨-, -, h⟩
    · rw [h]
      exact hs
    · rw [h]
      exact hs.setQueue _
  | run =>
    rcases run_cases hs with h | ⟨task, queue, -, h⟩
    · rw [h]
      exact hs
    · rw [h]
      exact sound_run (hs.setQueue queue) task
  | close window =>
    rw [step_eq_move hs]
    exact sound_close hs window

/-- **At most one settings window**: in every run the window on record is the only one that is open,
with the token on record for its only handler, and the handler never misses its window. -/
theorem settingsWindow_sound (es : List Event) : Run.Always step Sound {} es :=
  Run.always_of_preserved sound_step sound_init es

end Sound

/-! ### After the end -/

/-- A request to show the settings is queued behind a request to exit. -/
def Behind : List Task → Prop
  | [] => False
  | .exitApp :: queue => .showSettingsWindow ∈ queue ∨ Behind queue
  | .showSettingsWindow :: queue => Behind queue

/-- No request to show the settings gets into the queue behind a request to exit. -/
def InTime (s : State) : Event → Prop
  | .notify .showSettingsRequested true => s.listening = true → Task.exitApp ∉ s.queue
  | _ => True

/-- Once the application has ended there is no settings window. -/
def StaysClosed (s : State) : Prop := s.exited = true → s.settingsWindow = none

/-- No request to show the settings waits behind the end. -/
structure Timely (s : State) : Prop where
  sound : Sound s
  order : ¬ Behind s.queue
  ended : s.exited = true → Task.showSettingsWindow ∉ s.queue ∧ s.settingsWindow = none

/-- A request to show the settings waits behind the end. -/
structure Late (s : State) : Prop where
  sound : Sound s
  waits : Behind s.queue ∨ (s.exited = true ∧ Task.showSettingsWindow ∈ s.queue)

section StaysClosed

variable {s : State}

/-- One more task is behind a request to exit if there is one. -/
theorem behind_append_singleton (queue : List Task) (task : Task) :
    Behind (queue ++ [task]) ↔
      Behind queue ∨ (Task.exitApp ∈ queue ∧ task = .showSettingsWindow) := by
  induction queue with
  | nil => cases task <;> simp [Behind]
  | cons head queue ih =>
    cases head with
    | exitApp => cases task <;> simp [Behind, ih]
    | showSettingsWindow => simp [Behind, ih]

/-- Closing a window and showing one leave the queue and the end alone. -/
theorem close_fields (hs : Sound s) (window : ℕ) :
    (s.close window).queue = s.queue ∧ (s.close window).exited = s.exited := by
  rcases close_cases hs window with h | ⟨-, h⟩
  · rw [h]
    exact ⟨rfl, rfl⟩
  · rw [h]
    exact ⟨rfl, rfl⟩

theorem showSettingsWindow_fields (s : State) :
    s.showSettingsWindow.queue = s.queue ∧ s.showSettingsWindow.exited = s.exited ∧
      s.showSettingsWindow.settingsWindow ≠ none := by
  unfold State.showSettingsWindow
  cases hwindow : s.settingsWindow with
  | some window => exact ⟨rfl, rfl, by rw [hwindow]; exact Option.some_ne_none _⟩
  | none => exact ⟨rfl, rfl, Option.some_ne_none _⟩

/-- A task leaves the queue alone. -/
theorem queue_run (hs : Sound s) (task : Task) : (s.run task).queue = s.queue := by
  cases task with
  | exitApp => exact (exitApp_fields hs).2.2.2.2.2.2
  | showSettingsWindow => exact (showSettingsWindow_fields s).1

theorem timely_init : Timely {} := ⟨sound_init, id, fun h => by cases h⟩

/-- A task that is queued. -/
theorem timely_notify (hs : Timely s) {notification : Notification} {enqueued : Bool}
    (hintime : InTime s (.notify notification enqueued)) :
    Timely (step s (.notify notification enqueued)) := by
  rcases notify_cases hs.sound notification enqueued with h | ⟨hlistening, rfl, h⟩
  · rw [h]
    exact hs
  · have hrunning : s.exited ≠ true := fun hexited => by
      rw [hs.sound.ended hexited] at hlistening
      cases hlistening
    rw [h]
    refine ⟨hs.sound.setQueue _, ?_, fun hexited => absurd hexited hrunning⟩
    show ¬ Behind (s.queue ++ (taskOf notification).toList)
    cases notification with
    | displayChanged =>
      rw [taskOf, Option.toList_none, List.append_nil]
      exact hs.order
    | appExitRequested =>
      rw [taskOf, Option.toList_some, behind_append_singleton]
      exact fun h => h.elim hs.order fun h => Task.noConfusion h.2
    | showSettingsRequested =>
      rw [taskOf, Option.toList_some, behind_append_singleton]
      exact fun h => h.elim hs.order fun h => hintime hlistening h.1

/-- A task that is run. -/
theorem timely_run (hs : Timely s) : Timely (step s .run) := by
  rcases run_cases hs.sound with h | ⟨task, queue, hqueue, h⟩
  · rw [h]
    exact hs
  · have hsound := hs.sound.setQueue queue
    have horder := hs.order
    have hended := hs.ended
    rw [hqueue] at horder hended
    rw [h]
    refine ⟨sound_run hsound task, ?_, fun hexited => ?_⟩
    · rw [queue_run hsound]
      cases task with
      | exitApp => exact (not_or.1 horder).2
      | showSettingsWindow => exact horder
    · rw [queue_run hsound]
      cases task with
      | exitApp => exact ⟨(not_or.1 horder).1, (exitApp_fields hsound).1⟩
      | showSettingsWindow =>
        -- a request to show the settings is not run after the end
        have hbefore := (showSettingsWindow_fields { s with queue }).2.1.symm.trans hexited
        exact absurd List.mem_cons_self (hended hbefore).1

/-- **Step lemma**: what gets into the queue in time stays so. -/
theorem timely_step (s : State) (e : Event) (hs : Timely s) (hintime : InTime s e) :
    Timely (step s e) := by
  cases e with
  | notify notification enqueued => exact timely_notify hs hintime
  | run => exact timely_run hs
  | close window =>
    have hsound := sound_step s (.close window) hs.sound
    rw [step_eq_move hs.sound] at hsound ⊢
    obtain ⟨hqueue, hexited⟩ := close_fields hs.sound window
    refine ⟨hsound, ?_, fun h => ?_⟩
    · show ¬ Behind (s.close window).queue
      rw [hqueue]
      exact hs.order
    · obtain ⟨hnone, hwindow⟩ := hs.ended (hexited.symm.trans h)
      show _ ∉ (s.close window).queue ∧ (s.close window).settingsWindow = none
      rw [hqueue]
      refine ⟨hnone, ?_⟩
      rcases close_cases hs.sound window with heq | ⟨-, heq⟩
      · rw [heq]
        exact hwindow
      · rw [heq]
        rfl

/-- A request that is not in time is late. -/
theorem late_of_not_inTime (hs : Timely s) {e : Event} (hnot : ¬ InTime s e) : Late (step s e) := by
  refine ⟨sound_step s e hs.sound, .inl ?_⟩
  rw [step_eq_move hs.sound]
  cases e with
  | run => exact absurd trivial hnot
  | close => exact absurd trivial hnot
  | notify notification enqueued =>
    cases notification with
    | appExitRequested => exact absurd trivial hnot
    | displayChanged => exact absurd trivial hnot
    | showSettingsRequested =>
      cases enqueued with
      | false => exact absurd trivial hnot
      | true =>
        obtain ⟨hlistening, hexit⟩ := Classical.not_imp.1 hnot
        show Behind (move s (.notify .showSettingsRequested true)).queue
        rw [move, hlistening, Bool.true_and, if_pos rfl]
        exact (behind_append_singleton _ _).2 (.inr ⟨not_not.1 hexit, rfl⟩)

theorem late_notify (hs : Late s) (notification : Notification) (enqueued : Bool) :
    Late (step s (.notify notification enqueued)) := by
  rcases notify_cases hs.sound notification enqueued with h | ⟨-, -, h⟩
  · rw [h]
    exact hs
  · rw [h]
    refine ⟨hs.sound.setQueue _, ?_⟩
    rcases hs.waits with hbehind | ⟨hexited, hmem⟩
    · refine .inl ?_
      show Behind (s.queue ++ (taskOf notification).toList)
      cases notification with
      | displayChanged =>
        rw [taskOf, Option.toList_none, List.append_nil]
        exact hbehind
      | appExitRequested => exact (behind_append_singleton _ _).2 (.inl hbehind)
      | showSettingsRequested => exact (behind_append_singleton _ _).2 (.inl hbehind)
    · exact .inr ⟨hexited, List.mem_append_left _ hmem⟩

/-- Running a task makes the end come, or opens the window after it, or leaves what is late. -/
theorem late_run (hs : Late s) : Late (step s .run) ∨ ¬ StaysClosed (step s .run) := by
  rcases run_cases hs.sound with h | ⟨task, queue, hqueue, h⟩
  · rw [h]
    exact .inl hs
  · have hsound := hs.sound.setQueue queue
    have hwaits := hs.waits
    rw [hqueue] at hwaits
    rw [h]
    cases task with
    | exitApp =>
      refine .inl ⟨sound_run hsound .exitApp, ?_⟩
      have hexited : (State.run { s with queue } .exitApp).exited = true :=
        (exitApp_fields hsound).2.2.2.2.2.1
      rw [queue_run hsound, hexited]
      rcases hwaits with (hmem | hbehind) | ⟨-, hmem⟩
      · exact .inr ⟨rfl, hmem⟩
      · exact .inl hbehind
      · exact .inr ⟨rfl, List.mem_of_ne_of_mem Task.noConfusion hmem⟩
    | showSettingsWindow =>
      obtain ⟨-, hexited, hwindow⟩ := showSettingsWindow_fields { s with queue }
      rcases hwaits with hbehind | ⟨hended, -⟩
      · refine .inl ⟨sound_run hsound .showSettingsWindow, .inl ?_⟩
        rw [queue_run hsound]
        exact hbehind
      · exact .inr fun hstays => hwindow (hstays (hexited.trans hended))

/-- **What is late stays late** until it opens the window again. -/
theorem late_step (s : State) (e : Event) (hs : Late s) :
    Late (step s e) ∨ ¬ StaysClosed (step s e) := by
  cases e with
  | notify notification enqueued => exact .inl (late_notify hs notification enqueued)
  | run => exact late_run hs
  | close window =>
    obtain ⟨hqueue, hexited⟩ := close_fields hs.sound window
    refine .inl ⟨sound_step s _ hs.sound, ?_⟩
    rw [step_eq_move hs.sound]
    show Behind (s.close window).queue ∨ (s.close window).exited = true ∧ _ ∈ (s.close window).queue
    rw [hqueue, hexited]
    exact hs.waits

/-- **No window after the end, exactly if every request is in time**, in every run whose tasks have
all been run. -/
theorem staysClosed_iff {es : List Event} (hdrained : (es.foldl step {}).queue = []) :
    Run.Always step StaysClosed {} es ↔ Run.AllSteps step InTime {} es := by
  have hdone : ∀ s : State, Late s → ¬ s.queue = [] := by
    intro s hs hempty
    have hwaits := hs.waits
    rw [hempty] at hwaits
    rcases hwaits with h | ⟨-, h⟩
    · exact h
    · cases h
  exact Run.always_iff_of_debt timely_step (fun s hs hexited => (hs.ended hexited).2)
    (fun s e hs hnot => late_of_not_inTime hs hnot) late_step hdone timely_init hdrained

/-- The icon is clicked while the application is asked to exit. -/
def lateClick : List Event :=
  [.notify .appExitRequested true, .notify .showSettingsRequested true, .run, .run]

/-- The settings window is opened after the end. -/
theorem staysClosed_lateClick :
    (lateClick.foldl step {}).queue = [] ∧ ¬ Run.Always step StaysClosed {} lateClick := by
  have hdrained : (lateClick.foldl step {}).queue = [] := rfl
  refine ⟨hdrained, fun hstays => ?_⟩
  obtain ⟨-, hintime, -⟩ := (staysClosed_iff hdrained).1 hstays
  exact hintime rfl (List.mem_singleton_self _)

end StaysClosed

end RoxyGlance.App.SettingsWindow
