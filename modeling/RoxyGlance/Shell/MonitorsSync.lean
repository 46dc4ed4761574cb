import RoxyGlance.Lib.Mirror
import RoxyGlance.Shell.MonitorsViewModel
import RoxyGlance.Utility.CallbackHost

/-!
# View models and the monitor cache

A `MonitorsViewModel` takes its items from the cache when it is made and then registers for changes,
in the thread of the user interface.  Display changes come in on the thread of the message window:
`initialize` stores the new states and invokes the callbacks under the lock of `CallbackHost`, and
each of them queues new items for its view model.  Only the registry is under the lock.  The states
themselves are not: the constructor of a view model iterates over `storage_` while the other thread
may be replacing it.  Here it reads them in one step, before or after they are replaced, and nothing
is said about the data race.

* `monitorItems_upToDate_iff`: in which orders of steps no view model is left behind;
* `monitorItems_current`: in these, a view model whose queue is drained shows the monitors there are.
-/

namespace RoxyGlance.Shell

open Monitor (Storage Answers)

variable {F : Type} [FloatLike F]

/-- `makeMonitorViewModels`, where it does not throw.  The constructor of a view model then makes
none; in `onMonitorChanged`, which is `noexcept`, an exception ends the process. -/
def viewItems (res : Resources) (storage : Storage F) : Option (Option (List (MonitorViewModel F))) :=
  (makeMonitorViewModels res storage).toOption

/-- What `initialize` stores when it invokes the callbacks. -/
def nextStorage (storage : Storage F) (a : Answers) : Option (Storage F) :=
  match Monitor.rebuild [()] storage a with
  | .ok r => if r.calls.isEmpty then none else some r.storage
  | .error _ => none

/-- The cache, its thread, and the view models with their queues. -/
abbrev MonitorSystem (F : Type) := Mirror.System (Storage F) (Option (List (MonitorViewModel F)))

/-- One step of either thread: `create` and `register` are the two halves of the constructor,
`destroy` is the destructor, `change` to `unlock` are a display change. -/
def MonitorSystem.step (res : Resources) : MonitorSystem F → Mirror.Event Answers → MonitorSystem F :=
  Mirror.step (viewItems res) nextStorage Utility.CallbackHost.kCapacity

/-- There is room for the callback, no callbacks have been invoked for a change between the two halves
of the constructor, and `TryEnqueue` succeeds where there is something new. -/
def MonitorSystem.Timely (res : Resources) : MonitorSystem F → Mirror.Event Answers → Prop :=
  Mirror.Timely (viewItems res) Utility.CallbackHost.kCapacity

/-- Between display changes, every view model with an empty queue shows the monitors of the cache. -/
def MonitorSystem.ShowsCurrent (res : Resources) (s : MonitorSystem F) : Prop :=
  s.alive = true → s.writer = .idle → ∀ id c, s.copies id = some c → s.fresh ≠ some id →
    c.queue = [] → makeMonitorViewModels res s.source = .ok c.shown

/-- **No view model is left behind** exactly in the runs in which every registration and every call is
timely. -/
theorem monitorItems_upToDate_iff (res : Resources) (storage : Storage F)
    (events : List (Mirror.Event Answers)) :
    Run.Always (MonitorSystem.step res) Mirror.UpToDate { source := storage } events ↔
      Run.AllSteps (MonitorSystem.step res) (MonitorSystem.Timely res) { source := storage }
        events :=
  Mirror.upToDate_iff storage events

/-- **View models show the current monitors** in these runs. -/
theorem monitorItems_current {res : Resources} {storage : Storage F}
    {events : List (Mirror.Event Answers)}
    (h : Run.AllSteps (MonitorSystem.step res) (MonitorSystem.Timely res) { source := storage }
      events) :
    Run.Always (MonitorSystem.step res) (MonitorSystem.ShowsCurrent res) { source := storage }
      events := by
  refine (Mirror.always_of_timely h).mono fun s hs halive hidle id c hc hfresh hdrained => ?_
  have hshown := hs.1.shown_eq hs.2 halive hidle hc hfresh hdrained
  unfold viewItems at hshown
  cases hitems : makeMonitorViewModels res s.source with
  | error fault =>
    rw [hitems] at hshown
    cases hshown
  | ok items =>
    rw [hitems] at hshown
    cases hshown
    rfl

/-- A display change: a first monitor appears. -/
def firstMonitor : Answers where
  monitorCount := 1
  reserved := true
  friendlyNames := []
  monitors := [⟨1, ⟨0, 0, 1920, 1080⟩, true,
    some (⟨⟨0, 0, 1920, 1080⟩, ⟨0, 0, 1920, 1040⟩, 1⟩, true)⟩]
  completed := true

/-- A view model made before the first monitor appears. -/
theorem monitorItems_current_firstMonitor :
    Run.Always (MonitorSystem.step plainResources) (MonitorSystem.ShowsCurrent plainResources)
      ({ source := .empty } : MonitorSystem ℚ)
      [.create, .register, .change firstMonitor, .lock, .notify true, .unlock, .deliver 0] :=
  monitorItems_current ⟨trivial, fun _ _ id c hid hc => by
    cases hid
    cases hc
    exact ⟨by decide, Or.inl rfl⟩, trivial, trivial, fun _ _ _ _ _ _ _ => Or.inl rfl, trivial,
    trivial, trivial⟩

end RoxyGlance.Shell
