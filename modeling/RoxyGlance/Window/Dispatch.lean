import RoxyGlance.Window.StateWatcher

/-!
# What a window event makes the watcher do

`winEventProcStatic` notifies the listeners of foreground and show events, and passes the others on
to `processWindowEvent`, which assumes that it gets neither of the two.  Here the handler is
followed for one event with any identifiers, any answer of `IsRootWindow` and with or without
memory for the entry of the cache; what it does is recorded in order.

* `winEventProcStatic_respects_iff` says for which events at most one thing is done and the
  assumption holds;
* `winEventProcStatic_eq`: in the course of events of `StateWatcher`, the same handler runs.
-/

namespace RoxyGlance.Window.Dispatch

open StateWatcher (Hwnd StateCache EventId WinEvent System eventSystemForeground eventObjectShow
  objidWindow childidSelf)

variable {F : Type}

/-- What the watcher does about an event. -/
inductive Task
  /-- `notify` with `onForegroundEvent`. -/
  | notifyForeground (hwnd : Hwnd)
  /-- `notify` with `onShowEvent`. -/
  | notifyShow (hwnd : Hwnd)
  /-- `processWindowEvent` -/
  | processWindowEvent (event : EventId) (hwnd : Hwnd)
  deriving DecidableEq, Repr

/-- What has been done, in order, and the cache it leaves. -/
structure Handled (F : Type) where
  tasks : List Task
  cache : Except Fault (StateCache F)

/-- `winEventProcStatic` from the test of the object on, with what has been done before. -/
def dispatch (allocated root : Bool) (event : EventId) (hwnd : Hwnd) (objectId childId : BitVec 32)
    (tasks : List Task) (cache : StateCache F) : Handled F :=
  if objectId ≠ objidWindow ∨ childId ≠ childidSelf then ⟨tasks, .ok cache⟩
  else if !root then ⟨tasks, .ok cache⟩
  else if event = eventObjectShow then
    match cache.getOrCreate allocated hwnd with
    | (none, cache) => ⟨tasks, .ok cache⟩
    | (some _, cache) => ⟨tasks ++ [.notifyShow hwnd], .ok cache⟩
  else ⟨tasks ++ [.processWindowEvent event hwnd], cache.processWindowEvent event hwnd⟩

/-- `winEventProcStatic`.  `root` is the answer of `IsRootWindow`, and `allocated` says whether
there is memory for a new entry of the cache. -/
def winEventProcStatic (allocated root : Bool) (event : EventId) (hwnd : Hwnd)
    (objectId childId : BitVec 32) (cache : StateCache F) : Handled F :=
  if event = eventSystemForeground then
    match cache.getOrCreate allocated hwnd with
    | (none, cache) => ⟨[], .ok cache⟩
    | (some _, cache) =>
      dispatch allocated root event hwnd objectId childId [.notifyForeground hwnd] cache
  else dispatch allocated root event hwnd objectId childId [] cache

/-- At most one thing is done, and what is passed on meets the assumption. -/
structure Respects (tasks : List Task) : Prop where
  atMostOne : tasks.length ≤ 1
  assumed : ∀ event hwnd, .processWindowEvent event hwnd ∈ tasks →
    event ≠ eventSystemForeground ∧ event ≠ eventObjectShow

/-- The event is the one that falls through: it says that a top-level window, itself, has come to
the foreground, and the window is in the cache or can be added. -/
def FallsThrough (allocated root : Bool) (event : EventId) (hwnd : Hwnd)
    (objectId childId : BitVec 32) (cache : StateCache F) : Prop :=
  event = eventSystemForeground ∧ (cache hwnd ≠ none ∨ allocated = true) ∧
    objectId = objidWindow ∧ childId = childidSelf ∧ root = true

section

variable {allocated root : Bool} {event : EventId} {hwnd : Hwnd} {objectId childId : BitVec 32}
  {tasks : List Task} {cache : StateCache F}

theorem getOrCreate_isSome :
    (cache.getOrCreate allocated hwnd).1.isSome = true ↔ cache hwnd ≠ none ∨ allocated = true := by
  unfold StateCache.getOrCreate
  cases hcached : cache hwnd with
  | some c => simp
  | none => cases allocated <;> simp

theorem getOrCreate_some {state : StateWatcher.Cached F} {cache' : StateCache F}
    (h : cache.getOrCreate allocated hwnd = (some state, cache')) :
    cache hwnd ≠ none ∨ allocated = true := by
  apply getOrCreate_isSome.1
  rw [h]
  rfl

theorem getOrCreate_none {cache' : StateCache F}
    (h : cache.getOrCreate allocated hwnd = (none, cache')) : cache' = cache := by
  unfold StateCache.getOrCreate at h
  cases hcached : cache hwnd with
  | some c => simp [hcached] at h
  | none =>
    cases allocated
    · simpa [hcached] using h.symm
    · simp [hcached] at h

/-- An event that is not for a top-level window itself is dropped. -/
theorem dispatch_of_filtered
    (h : ¬ (objectId = objidWindow ∧ childId = childidSelf ∧ root = true)) :
    dispatch allocated root event hwnd objectId childId tasks cache = ⟨tasks, .ok cache⟩ := by
  unfold dispatch
  by_cases hids : objectId ≠ objidWindow ∨ childId ≠ childidSelf
  · rw [if_pos hids]
  · obtain ⟨hobject, hchild⟩ := not_or.1 hids
    have hroot : root = false := by
      apply Bool.eq_false_iff.2
      exact fun hroot => h ⟨not_not.1 hobject, not_not.1 hchild, hroot⟩
    rw [if_neg hids, hroot]
    rfl

/-- An event for a top-level window itself that is not a show event is passed on. -/
theorem dispatch_of_passedOn (hobject : objectId = objidWindow) (hchild : childId = childidSelf)
    (hroot : root = true) (hshow : event ≠ eventObjectShow) :
    dispatch allocated root event hwnd objectId childId tasks cache =
      ⟨tasks ++ [.processWindowEvent event hwnd], cache.processWindowEvent event hwnd⟩ := by
  subst hobject hchild hroot
  simp [dispatch, hshow]

/-- Nothing else adds more than one task, which is not to pass a foreground event on. -/
theorem respects_dispatch (h : event ≠ eventSystemForeground) :
    Respects (dispatch allocated root event hwnd objectId childId [] cache).tasks := by
  by_cases hids : objectId = objidWindow ∧ childId = childidSelf ∧ root = true
  · obtain ⟨hobject, hchild, hroot⟩ := hids
    by_cases hshow : event = eventObjectShow
    · subst hobject hchild hroot hshow
      have htasks : (dispatch allocated true eventObjectShow hwnd objidWindow childidSelf []
          cache).tasks = [] ∨ (dispatch allocated true eventObjectShow hwnd objidWindow childidSelf
            [] cache).tasks = [.notifyShow hwnd] := by
        simp only [dispatch, ne_eq, not_true_eq_false, or_self, if_false, Bool.not_true,
          Bool.false_eq_true, if_true]
        split
        · exact .inl rfl
        · exact .inr rfl
      rcases htasks with htasks | htasks <;> rw [htasks]
      · exact ⟨by simp, by simp⟩
      · exact ⟨by simp, by simp⟩
    · rw [dispatch_of_passedOn hobject hchild hroot hshow]
      refine ⟨by simp, fun event' hwnd' hmem => ?_⟩
      cases List.mem_singleton.1 hmem
      exact ⟨h, hshow⟩
  · rw [dispatch_of_filtered hids]
    exact ⟨by simp, by simp⟩

end

/-- A foreground event that gets past the filters is passed on after the notification. -/
theorem winEventProcStatic_of_fallsThrough {allocated root : Bool} {event : EventId} {hwnd : Hwnd}
    {objectId childId : BitVec 32} {cache : StateCache F}
    (h : FallsThrough allocated root event hwnd objectId childId cache) :
    winEventProcStatic allocated root event hwnd objectId childId cache =
      ⟨[.notifyForeground hwnd, .processWindowEvent event hwnd], .error .undefined⟩ := by
  obtain ⟨hevent, hcached, hobject, hchild, hroot⟩ := h
  have hshow : event ≠ eventObjectShow := by
    rw [hevent]
    decide
  have hassumed : ∀ cache : StateCache F, cache.processWindowEvent event hwnd = .error .undefined :=
    fun cache => if_neg fun h => h.1 hevent
  have hsome := getOrCreate_isSome.2 hcached
  unfold winEventProcStatic
  rw [if_pos hevent]
  generalize cache.getOrCreate allocated hwnd = got at hsome ⊢
  obtain ⟨_ | state, cache'⟩ := got
  · cases hsome
  · simp only [dispatch_of_passedOn hobject hchild hroot hshow, hassumed]
    rfl

/-- **Which events respect the assumption**: all but the foreground events that fall through. -/
theorem winEventProcStatic_respects_iff (allocated root : Bool) (event : EventId) (hwnd : Hwnd)
    (objectId childId : BitVec 32) (cache : StateCache F) :
    Respects (winEventProcStatic allocated root event hwnd objectId childId cache).tasks ↔
      ¬ FallsThrough allocated root event hwnd objectId childId cache := by
  by_cases hfalls : FallsThrough allocated root event hwnd objectId childId cache
  · refine iff_of_false (fun h => ?_) (not_not.2 hfalls)
    have hmost := h.atMostOne
    rw [winEventProcStatic_of_fallsThrough hfalls] at hmost
    simp at hmost
  · refine iff_of_true ?_ hfalls
    unfold winEventProcStatic
    by_cases hevent : event = eventSystemForeground
    · rw [if_pos hevent]
      cases hgot : cache.getOrCreate allocated hwnd with
      | mk state cache' =>
        cases state with
        | none => exact ⟨by simp, by simp⟩
        | some state =>
          have hids : ¬ (objectId = objidWindow ∧ childId = childidSelf ∧ root = true) :=
            fun hids => hfalls ⟨hevent, getOrCreate_some hgot, hids⟩
          simp only [dispatch_of_filtered hids]
          exact ⟨by simp, by simp⟩
    · rw [if_neg hevent]
      exact respects_dispatch hevent

/-- A window that comes to the foreground for the first time does two things, the second of them
against the assumption. -/
theorem foreground_fallsThrough :
    ¬ Respects (winEventProcStatic (F := ℚ) true true eventSystemForeground 5 objidWindow childidSelf
      fun _ => none).tasks := by
  intro h
  have hmost := h.atMostOne
  simp [winEventProcStatic, StateCache.getOrCreate, dispatch, eventSystemForeground,
    eventObjectShow] at hmost

/-! ### The same handler in the course of events -/

/-- The cache of the system, or what the program has violated. -/
def result (s : System F) : Except Fault (StateCache F) :=
  match s.fault with
  | none => .ok s.cache
  | some fault => .error fault

theorem result_of_defined {s : System F} (h : s.fault = none) : result s = .ok s.cache := by
  rw [result, h]

section

variable {s : System F} {e : WinEvent}

/-- The rest of the handler comes to the same in both, -/
theorem dispatch_eq (hdefined : s.fault = none) (allocated : Bool) (tasks : List Task) :
    (dispatch allocated (StateWatcher.isRootWindow s.live e.hwnd) e.event e.hwnd e.objectId e.childId
      tasks s.cache).cache = result (StateWatcher.dispatch allocated e s) := by
  unfold dispatch StateWatcher.dispatch
  dsimp only
  split
  · exact (result_of_defined hdefined).symm
  · split
    · exact (result_of_defined hdefined).symm
    · split
      · cases hgot : s.cache.getOrCreate allocated e.hwnd with
        | mk state cache =>
          cases state with
          | none => simp only [result, hdefined, getOrCreate_none hgot]
          | some state => simp only [result, hdefined]
      · cases s.cache.processWindowEvent e.event e.hwnd with
        | ok cache => simp only [result, hdefined]
        | error fault => rfl

/-- and unless the event is a foreground event, the return of its listeners adds nothing. -/
theorem returned_dispatch (hforeground : e.event ≠ eventSystemForeground) (allocated : Bool) :
    result (StateWatcher.step (StateWatcher.dispatch allocated e s) .listenersReturned) =
      result (StateWatcher.dispatch allocated e s) := by
  have hnotifying : (StateWatcher.dispatch allocated e s).notifying = none ∨
      (StateWatcher.dispatch allocated e s).notifying = some e := by
    unfold StateWatcher.dispatch
    dsimp only
    split_ifs
    · exact .inl rfl
    · exact .inl rfl
    · split
      · exact .inl rfl
      · exact .inr rfl
    · split
      · exact .inl rfl
      · exact .inl rfl
  rcases hnotifying with h | h
  · simp only [StateWatcher.step, h]
  · simp only [StateWatcher.step, h, if_neg hforeground, result]

end

/-- **The handler is the one of the watcher**: delivering an event and returning from the listeners
leaves what the handler leaves, be it a cache or a violated assumption. -/
theorem winEventProcStatic_eq (allocated : Bool) (e : WinEvent) {s : System F}
    (hidle : s.notifying = none) (hdefined : s.fault = none) :
    (winEventProcStatic allocated (StateWatcher.isRootWindow s.live e.hwnd) e.event e.hwnd e.objectId
        e.childId s.cache).cache =
      result (StateWatcher.step (StateWatcher.winEventProcStatic allocated e s)
        .listenersReturned) := by
  unfold winEventProcStatic StateWatcher.winEventProcStatic
  by_cases hevent : e.event = eventSystemForeground
  · simp only [if_pos hevent]
    cases hgot : s.cache.getOrCreate allocated e.hwnd with
    | mk state cache =>
      cases state with
      | none =>
        rw [getOrCreate_none hgot]
        simp only [StateWatcher.step, hidle]
        exact (result_of_defined hdefined).symm
      | some state =>
        -- the entry that was created does not depend on whether a second one could be
        have hshow : e.event ≠ eventObjectShow := by
          rw [hevent]
          decide
        have hdispatch := dispatch_eq (s := { s with cache := cache, notifying := some e })
          (e := e) hdefined true [.notifyForeground e.hwnd]
        simp only [StateWatcher.step, if_pos hevent, ← hdispatch]
        simp only [dispatch, if_neg hshow]
  · simp only [if_neg hevent, dispatch_eq hdefined, returned_dispatch hevent]

end RoxyGlance.Window.Dispatch
