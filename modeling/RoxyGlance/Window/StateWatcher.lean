import RoxyGlance.Lib.Run
import RoxyGlance.Window

/-!
# The window cache and the windows behind it

`StateWatcher` receives the window events of the system in the order in which they happened, but
only some time after; in between, windows go away and their handles are given to new ones.  The
cache drops a state when it is told that the window was destroyed.

* `System`: the live windows, the events under way, the cache, and the event that listeners are
  being told about;
* `Move`: windows come and go, events are raised, and the watcher takes the next event;
* `Sound`: a destroy event leaves no state behind, and the state a listener is given holds nothing
  that was asked of an earlier window with the same handle;
* `cache_tracks_iff`: this holds exactly in the runs in which, whenever the destroy event of a
  top-level window is handled, its handle is not cached or names another top-level window already,
  and no foreground event gets to `processWindowEvent`, which assumes that none does.

A window is a number of its own, so that two windows with one handle are told apart.  Where the
assumption is violated the behaviour of the program is undefined, and so `Sound` is given up.
-/

namespace RoxyGlance.Window.StateWatcher

/-- An `HWND` value. -/
abbrev Hwnd := ℕ

/-- A window, as the number of windows created before it. -/
abbrev Ident := ℕ

variable {F : Type}

/-! ### The cache -/

/-- What is fetched when first asked for; the process id comes with the path of the image. -/
inductive Property
  | process
  | windowClass
  | windowTitle
  deriving DecidableEq, Repr

/-- The property is remembered. -/
def Property.loaded (p : Property) (state : State F) : Bool :=
  match p with
  | .process => state.processImageName.isSome
  | .windowClass => state.windowClass.isSome
  | .windowTitle => state.windowTitle.isSome

/-- The getter of the property; one that throws leaves the state as it was. -/
def Property.read (p : Property) (q : Queries F) (state : State F) : State F :=
  let result := match p with
    | .process => state.getProcessImageName q
    | .windowClass => state.getWindowClass q
    | .windowTitle => state.getWindowTitle q
  match result with
  | .ok (_, state) => state
  | .error _ => state

/-- A state in the cache, with the window that each remembered property was asked of. -/
structure Cached (F : Type) where
  state : State F := {}
  source : Property → Option Ident := fun _ => none

/-- A getter is called while the handle names the window `ident`. -/
def Cached.read (p : Property) (q : Queries F) (ident : Ident) (c : Cached F) : Cached F where
  state := p.read q c.state
  source :=
    if !p.loaded c.state && p.loaded (p.read q c.state) then Function.update c.source p (some ident)
    else c.source

/-- `window::StateCache` -/
abbrev StateCache (F : Type) := Hwnd → Option (Cached F)

namespace StateCache

/-- `getOrCreate`; the state is null when it has to be created and there is no memory. -/
def getOrCreate (allocated : Bool) (hwnd : Hwnd) (cache : StateCache F) :
    Option (Cached F) × StateCache F :=
  match cache hwnd with
  | some c => (some c, cache)
  | none =>
    if allocated then (some {}, Function.update cache hwnd (some {})) else (none, cache)

/-- `remove` -/
def remove (hwnd : Hwnd) (cache : StateCache F) : StateCache F := Function.update cache hwnd none

/-- A change of the state that is there, if any. -/
def modify (hwnd : Hwnd) (f : Cached F → Cached F) (cache : StateCache F) : StateCache F :=
  Function.update cache hwnd ((cache hwnd).map f)

end StateCache

/-- The id of an event. -/
abbrev EventId := BitVec 32

/-- `EVENT_SYSTEM_FOREGROUND` -/
def eventSystemForeground : EventId := 0x0003#32

/-- `EVENT_OBJECT_DESTROY` -/
def eventObjectDestroy : EventId := 0x8001#32

/-- `EVENT_OBJECT_SHOW` -/
def eventObjectShow : EventId := 0x8002#32

/-- `EVENT_OBJECT_LOCATIONCHANGE` -/
def eventObjectLocationChange : EventId := 0x800B#32

/-- `EVENT_OBJECT_NAMECHANGE` -/
def eventObjectNameChange : EventId := 0x800C#32

/-- `processWindowEvent`, undefined where its `assume` attribute does not hold. -/
def StateCache.processWindowEvent (event : EventId) (hwnd : Hwnd) (cache : StateCache F) :
    Except Fault (StateCache F) :=
  if event ≠ eventSystemForeground ∧ event ≠ eventObjectShow then
    if event = eventObjectDestroy then .ok (cache.remove hwnd)
    else if event = eventObjectLocationChange then
      .ok (cache.modify hwnd fun c => { c with state := c.state.invalidateWindowLocation })
    else if event = eventObjectNameChange then
      .ok (cache.modify hwnd fun c =>
        { state := c.state.invalidateWindowTitle
          source := Function.update c.source .windowTitle none })
    else .ok cache
  else .error .undefined

/-! ### The system -/

/-- A window that exists; `root` says that it is a top-level window. -/
structure LiveWindow where
  ident : Ident
  root : Bool
  deriving DecidableEq, Repr

/-- `OBJID_WINDOW` -/
def objidWindow : BitVec 32 := 0#32

/-- `CHILDID_SELF` -/
def childidSelf : BitVec 32 := 0#32

/-- A window event, with the window that it is about. -/
structure WinEvent where
  event : EventId
  hwnd : Hwnd
  objectId : BitVec 32 := objidWindow
  childId : BitVec 32 := childidSelf
  window : Ident
  root : Bool
  deriving DecidableEq, Repr

/-- The event says that its window was destroyed, rather than some object in it. -/
def WinEvent.Ends (e : WinEvent) : Prop :=
  e.event = eventObjectDestroy ∧ e.objectId = objidWindow ∧ e.childId = childidSelf

instance (e : WinEvent) : Decidable e.Ends := inferInstanceAs (Decidable (_ ∧ _))

/-- `IsRootWindow`: `GetAncestor` returns null for a handle that names no window, and another
window for one that is not top-level. -/
def isRootWindow (live : Hwnd → Option LiveWindow) (hwnd : Hwnd) : Bool :=
  match live hwnd with
  | none => false
  | some w => w.root

/-- The windows, the events that have not been delivered yet, and the watcher. -/
structure System (F : Type) where
  live : Hwnd → Option LiveWindow := fun _ => none
  created : ℕ := 0
  queue : List WinEvent := []
  cache : StateCache F := fun _ => none
  /-- The event whose listeners are being called. -/
  notifying : Option WinEvent := none
  /-- The event that was handled last, if none is being handled. -/
  processed : Option WinEvent := none
  /-- The assumption that was violated; from there on anything may have happened. -/
  fault : Option Fault := none

/-- `winEventProcStatic` from the test of the object on. -/
def dispatch (allocated : Bool) (e : WinEvent) (s : System F) : System F :=
  let finished := { s with notifying := none, processed := some e }
  if e.objectId ≠ objidWindow ∨ e.childId ≠ childidSelf then finished
  else if !isRootWindow s.live e.hwnd then finished
  else if e.event = eventObjectShow then
    match s.cache.getOrCreate allocated e.hwnd with
    | (none, _) => finished
    | (some _, cache) => { s with cache := cache, notifying := some e }
  else
    match s.cache.processWindowEvent e.event e.hwnd with
    | .ok cache => { finished with cache := cache }
    | .error fault => { finished with fault := some fault }

/-- `winEventProcStatic`, until it returns or calls listeners. -/
def winEventProcStatic (allocated : Bool) (e : WinEvent) (s : System F) : System F :=
  if e.event = eventSystemForeground then
    match s.cache.getOrCreate allocated e.hwnd with
    | (none, _) => { s with processed := some e }
    | (some _, cache) => { s with cache := cache, notifying := some e }
  else dispatch allocated e s

/-- What can happen. -/
inductive Move (F : Type)
  /-- A window is created, with a handle that is free. -/
  | create (hwnd : Hwnd) (root : Bool)
  /-- A window is destroyed, which raises the event that says so. -/
  | destroy (hwnd : Hwnd)
  /-- Another event is raised for a window.  Only top-level windows come to the foreground. -/
  | raise (event : EventId) (hwnd : Hwnd) (objectId childId : BitVec 32)
  /-- The watcher takes the next event. -/
  | deliver (allocated : Bool)
  /-- A listener asks the state it was given for a property. -/
  | query (p : Property) (q : Queries F)
  /-- The listeners have returned. -/
  | listenersReturned

/-- One move; one that is not possible does nothing. -/
def step (s : System F) (m : Move F) : System F :=
  match m with
  | .create hwnd root =>
    match s.live hwnd with
    | some _ => s
    | none =>
      { s with
        live := Function.update s.live hwnd (some ⟨s.created, root⟩)
        created := s.created + 1 }
  | .destroy hwnd =>
    match s.live hwnd with
    | none => s
    | some w =>
      { s with
        live := Function.update s.live hwnd none
        queue := s.queue ++
          [{ event := eventObjectDestroy, hwnd := hwnd, window := w.ident, root := w.root }] }
  | .raise event hwnd objectId childId =>
    match s.live hwnd with
    | none => s
    | some w =>
      let e : WinEvent := ⟨event, hwnd, objectId, childId, w.ident, w.root⟩
      if e.Ends ∨ (event = eventSystemForeground ∧ w.root = false) then s
      else { s with queue := s.queue ++ [e] }
  | .deliver allocated =>
    match s.notifying, s.queue with
    | none, e :: queue =>
      winEventProcStatic allocated e { s with queue := queue, processed := none }
    | _, _ => s
  | .query p q =>
    match s.notifying with
    | none => s
    | some e =>
      match s.live e.hwnd with
      | none => s
      | some w => { s with cache := s.cache.modify e.hwnd (Cached.read p q w.ident) }
  | .listenersReturned =>
    match s.notifying with
    | none => s
    | some e =>
      if e.event = eventSystemForeground then dispatch true e s
      else { s with notifying := none, processed := some e }

/-- The destroy event of a top-level window leaves no state for its handle. -/
def Forgotten (s : System F) : Prop :=
  ∀ e, s.processed = some e → e.Ends → e.root = true → s.cache e.hwnd = none

/-- What a listener is given was not asked of a window earlier than the one the event is about. -/
def UpToDate (s : System F) : Prop :=
  ∀ e c, s.notifying = some e → s.cache e.hwnd = some c →
    ∀ p ident, c.source p = some ident → e.window ≤ ident

/-- The cache tracks the windows, and the behaviour has been defined so far. -/
structure Sound (s : System F) : Prop where
  defined : s.fault = none
  forgotten : Forgotten s
  upToDate : UpToDate s

/-- When the destroy event of a top-level window is taken, its handle is not cached or names a
top-level window again. -/
def Reused (s : System F) (m : Move F) : Prop :=
  match m with
  | .deliver _ =>
    ∀ e ∈ s.queue.head?, s.notifying = none → e.Ends → e.root = true →
      s.cache e.hwnd ≠ none → isRootWindow s.live e.hwnd = true
  | _ => True

/-- The foreground event whose listeners return is for a top-level window itself, so that it falls
through to `processWindowEvent`. -/
def FallsThrough (s : System F) (m : Move F) : Prop :=
  match m with
  | .listenersReturned =>
    ∃ e, s.notifying = some e ∧ e.event = eventSystemForeground ∧ e.objectId = objidWindow ∧
      e.childId = childidSelf ∧ isRootWindow s.live e.hwnd = true
  | _ => False

/-- What a move has to meet. -/
def Tracked (s : System F) (m : Move F) : Prop := Reused s m ∧ ¬ FallsThrough s m

/-! ### Order of events -/

/-- The window is there, or the event of its destruction is under way. -/
def Pending (live : Hwnd → Option LiveWindow) (queue : List WinEvent) (hwnd : Hwnd) (w : LiveWindow) :
    Prop :=
  live hwnd = some w ∨ ∃ d ∈ queue, d.Ends ∧ d.hwnd = hwnd ∧ d.window = w.ident ∧ d.root = w.root

/-- The events after `e` are about the same window or later ones, and so is the live window; unless
`e` ends its window, that has not ended yet. -/
structure Before (live : Hwnd → Option LiveWindow) (later : List WinEvent) (e : WinEvent) : Prop where
  le_later : ∀ e' ∈ later, e'.hwnd = e.hwnd → e.window ≤ e'.window
  le_live : ∀ w, live e.hwnd = some w → e.window ≤ w.ident
  pending : ¬ e.Ends → Pending live later e.hwnd ⟨e.window, e.root⟩

/-- The queue is in the order in which things happened. -/
def Ordered (live : Hwnd → Option LiveWindow) : List WinEvent → Prop
  | [] => True
  | e :: queue => Before live queue e ∧ Ordered live queue

/-- A window that is still pending is at least as late as the event. -/
theorem Before.le_pending {live : Hwnd → Option LiveWindow} {later : List WinEvent} {e : WinEvent}
    (h : Before live later e) {w : LiveWindow} (hw : Pending live later e.hwnd w) :
    e.window ≤ w.ident := by
  rcases hw with hw | ⟨d, hd, -, hhwnd, hwindow, -⟩
  · exact h.le_live w hw
  · exact hwindow ▸ h.le_later d hd hhwnd

/-- What keeps every event before the later ones keeps the queue in order. -/
theorem Ordered.append {live live' : Hwnd → Option LiveWindow} {queue new : List WinEvent}
    (h : Ordered live queue) (hnew : Ordered live' new)
    (hbefore : ∀ later, ∀ e ∈ queue, Before live later e → Before live' (later ++ new) e) :
    Ordered live' (queue ++ new) := by
  induction queue with
  | nil => exact hnew
  | cons e queue ih =>
    refine ⟨hbefore queue e List.mem_cons_self h.1, ih h.2 fun later e' he' => ?_⟩
    exact hbefore later e' (List.mem_cons_of_mem e he')

section Create

variable {live : Hwnd → Option LiveWindow} {hwnd : Hwnd} {new : LiveWindow}

theorem Pending.create (hfree : live hwnd = none) {queue : List WinEvent} {hwnd' : Hwnd}
    {w : LiveWindow} (h : Pending live queue hwnd' w) :
    Pending (Function.update live hwnd (some new)) queue hwnd' w := by
  rcases h with h | h
  · refine .inl ?_
    rw [Function.update_of_ne]
    · exact h
    · rintro rfl
      rw [hfree] at h
      cases h
  · exact .inr h

theorem Before.create (hfree : live hwnd = none) {later : List WinEvent} {e : WinEvent}
    (hnew : e.window ≤ new.ident) (h : Before live later e) :
    Before (Function.update live hwnd (some new)) later e where
  le_later := h.le_later
  le_live := fun w hw => by
    by_cases heq : e.hwnd = hwnd
    · rw [heq, Function.update_self] at hw
      cases hw
      exact hnew
    · rw [Function.update_of_ne heq] at hw
      exact h.le_live w hw
  pending := fun hends => (h.pending hends).create hfree

end Create

section Destroy

variable {live : Hwnd → Option LiveWindow} {hwnd : Hwnd} {w : LiveWindow}

/-- The event of a destruction. -/
def destroyed (hwnd : Hwnd) (w : LiveWindow) : WinEvent :=
  { event := eventObjectDestroy, hwnd := hwnd, window := w.ident, root := w.root }

theorem Pending.destroy (hlive : live hwnd = some w) {queue : List WinEvent} {hwnd' : Hwnd}
    {w' : LiveWindow} (h : Pending live queue hwnd' w') :
    Pending (Function.update live hwnd none) (queue ++ [destroyed hwnd w]) hwnd' w' := by
  rcases h with h | ⟨d, hd, hrest⟩
  · by_cases heq : hwnd' = hwnd
    · obtain rfl : w = w' := by
        rw [heq, hlive] at h
        exact Option.some.inj h
      exact .inr ⟨destroyed hwnd w, by simp, ⟨rfl, rfl, rfl⟩, heq.symm, rfl, rfl⟩
    · refine .inl ?_
      rw [Function.update_of_ne heq]
      exact h
  · exact .inr ⟨d, List.mem_append_left _ hd, hrest⟩

theorem Before.destroy (hlive : live hwnd = some w) {later : List WinEvent} {e : WinEvent}
    (h : Before live later e) :
    Before (Function.update live hwnd none) (later ++ [destroyed hwnd w]) e where
  le_later := fun e' he' hhwnd => by
    rcases List.mem_append.1 he' with he' | he'
    · exact h.le_later e' he' hhwnd
    · obtain rfl := List.mem_singleton.1 he'
      have hsame : hwnd = e.hwnd := hhwnd
      exact h.le_live w (hsame ▸ hlive)
  le_live := fun w' hw' => by
    by_cases heq : e.hwnd = hwnd
    · rw [heq, Function.update_self] at hw'
      cases hw'
    · rw [Function.update_of_ne heq] at hw'
      exact h.le_live w' hw'
  pending := fun hends => (h.pending hends).destroy hlive

end Destroy

section Raise

variable {live : Hwnd → Option LiveWindow} {new : WinEvent}

theorem Pending.raise {queue : List WinEvent} {hwnd : Hwnd} {w : LiveWindow}
    (h : Pending live queue hwnd w) : Pending live (queue ++ [new]) hwnd w := by
  rcases h with h | ⟨d, hd, hrest⟩
  · exact .inl h
  · exact .inr ⟨d, List.mem_append_left _ hd, hrest⟩

theorem Before.raise (hlive : live new.hwnd = some ⟨new.window, new.root⟩) {later : List WinEvent}
    {e : WinEvent} (h : Before live later e) : Before live (later ++ [new]) e where
  le_later := fun e' he' hhwnd => by
    rcases List.mem_append.1 he' with he' | he'
    · exact h.le_later e' he' hhwnd
    · obtain rfl := List.mem_singleton.1 he'
      exact h.le_live _ (hhwnd ▸ hlive)
  le_live := h.le_live
  pending := fun hends => (h.pending hends).raise

end Raise

/-! ### The invariant -/

/-- A state in the cache is for a top-level window that is still pending, and holds nothing from
before it. -/
def Anchored (live : Hwnd → Option LiveWindow) (queue : List WinEvent) (cache : StateCache F) : Prop :=
  ∀ hwnd c, cache hwnd = some c → ∃ w : LiveWindow, w.root = true ∧ Pending live queue hwnd w ∧
    ∀ p ident, c.source p = some ident → w.ident ≤ ident

/-- The windows are numbered as they come, events are in order, and cached states are anchored. -/
structure Inv (s : System F) : Prop where
  live_lt : ∀ hwnd w, s.live hwnd = some w → w.ident < s.created
  window_lt : ∀ e ∈ s.notifying.toList ++ s.queue, e.window < s.created
  root : ∀ e ∈ s.queue, e.event = eventSystemForeground → e.root = true
  ordered : Ordered s.live (s.notifying.toList ++ s.queue)
  running : ∀ e, s.notifying = some e → ¬ e.Ends ∧ s.processed = none
  anchored : Anchored s.live s.queue s.cache
  forgotten : Forgotten s
  defined : s.fault = none

theorem inv_init : Inv ({} : System F) where
  live_lt := by simp
  window_lt := by simp
  root := by simp
  ordered := trivial
  running := by simp
  anchored := fun hwnd c h => by cases h
  forgotten := fun e h => by cases h
  defined := rfl

/-- The event being handled comes before those in the queue. -/
theorem Inv.before {s : System F} (h : Inv s) {e : WinEvent} (he : s.notifying = some e) :
    Before s.live s.queue e := by
  have hordered := h.ordered
  rw [he] at hordered
  exact hordered.1

theorem Inv.upToDate {s : System F} (h : Inv s) : UpToDate s := by
  intro e c he hc p ident hsource
  obtain ⟨w, -, hw, hge⟩ := h.anchored e.hwnd c hc
  exact (h.before he).le_pending hw |>.trans (hge p ident hsource)

theorem Inv.sound {s : System F} (h : Inv s) : Sound s := ⟨h.defined, h.forgotten, h.upToDate⟩

/-! ### What `processWindowEvent` does -/

section ProcessWindowEvent

variable {event : EventId} {hwnd : Hwnd} {cache : StateCache F}

theorem processWindowEvent_destroy :
    cache.processWindowEvent eventObjectDestroy hwnd = .ok (cache.remove hwnd) := rfl

theorem processWindowEvent_foreground :
    cache.processWindowEvent eventSystemForeground hwnd = .error .undefined := rfl

/-- It has an outcome for all the others. -/
theorem exists_processWindowEvent (hforeground : event ≠ eventSystemForeground)
    (hshow : event ≠ eventObjectShow) (hwnd : Hwnd) (cache : StateCache F) :
    ∃ cache', cache.processWindowEvent event hwnd = .ok cache' := by
  unfold StateCache.processWindowEvent
  rw [if_pos ⟨hforeground, hshow⟩]
  split_ifs <;> exact ⟨_, rfl⟩

/-- **The outcomes**: a state is removed, one of its fields is to be fetched again, or nothing. -/
theorem processWindowEvent_cases {cache' : StateCache F}
    (h : cache.processWindowEvent event hwnd = .ok cache') :
    cache' = cache.remove hwnd ∨
      cache' = cache.modify hwnd (fun c =>
        { c with state := c.state.invalidateWindowLocation }) ∨
      cache' = cache.modify hwnd (fun c =>
        { state := c.state.invalidateWindowTitle
          source := Function.update c.source .windowTitle none }) ∨
      cache' = cache := by
  unfold StateCache.processWindowEvent at h
  split_ifs at h with hassumed hdestroy hlocation hname
  · exact .inl (Except.ok.inj h).symm
  · exact .inr (.inl (Except.ok.inj h).symm)
  · exact .inr (.inr (.inl (Except.ok.inj h).symm))
  · exact .inr (.inr (.inr (Except.ok.inj h).symm))

end ProcessWindowEvent

/-! ### Anchored states -/

section Anchored

variable {live : Hwnd → Option LiveWindow} {queue : List WinEvent} {cache : StateCache F}

theorem Anchored.mono {live' : Hwnd → Option LiveWindow} {queue' : List WinEvent}
    (h : Anchored live queue cache)
    (hpending : ∀ hwnd w, Pending live queue hwnd w → Pending live' queue' hwnd w) :
    Anchored live' queue' cache := by
  intro hwnd c hc
  obtain ⟨w, hroot, hw, hge⟩ := h hwnd c hc
  exact ⟨w, hroot, hpending hwnd w hw, hge⟩

/-- One state is replaced. -/
theorem Anchored.update (h : Anchored live queue cache) (hwnd : Hwnd) {new : Option (Cached F)}
    (hnew : ∀ c, new = some c → ∃ w : LiveWindow, w.root = true ∧ Pending live queue hwnd w ∧
      ∀ p ident, c.source p = some ident → w.ident ≤ ident) :
    Anchored live queue (Function.update cache hwnd new) := by
  intro hwnd' c hc
  by_cases heq : hwnd' = hwnd
  · subst heq
    rw [Function.update_self] at hc
    exact hnew c hc
  · rw [Function.update_of_ne heq] at hc
    exact h hwnd' c hc

/-- Forgetting where a property came from keeps a state anchored. -/
theorem Anchored.modify (h : Anchored live queue cache) (hwnd : Hwnd) {f : Cached F → Cached F}
    (hf : ∀ c p ident, (f c).source p = some ident → c.source p = some ident) :
    Anchored live queue (cache.modify hwnd f) := by
  apply h.update
  intro c hc
  obtain ⟨c', hc', rfl⟩ := Option.map_eq_some_iff.1 hc
  obtain ⟨w, hroot, hw, hge⟩ := h hwnd c' hc'
  exact ⟨w, hroot, hw, fun p ident hsource => hge p ident (hf c' p ident hsource)⟩

/-- A property is asked of a live window that no pending window comes after. -/
theorem Anchored.read (h : Anchored live queue cache) {hwnd : Hwnd} {ident : Ident}
    (hlast : ∀ w, Pending live queue hwnd w → w.ident ≤ ident) (p : Property) (q : Queries F) :
    Anchored live queue (cache.modify hwnd (Cached.read p q ident)) := by
  apply h.update
  intro c hc
  obtain ⟨c', hc', rfl⟩ := Option.map_eq_some_iff.1 hc
  obtain ⟨w, hroot, hw, hge⟩ := h hwnd c' hc'
  refine ⟨w, hroot, hw, fun p' ident' hsource => ?_⟩
  simp only [Cached.read] at hsource
  split at hsource
  · by_cases heq : p' = p
    · rw [heq, Function.update_self] at hsource
      cases hsource
      exact hlast w hw
    · rw [Function.update_of_ne heq] at hsource
      exact hge p' ident' hsource
  · exact hge p' ident' hsource

theorem Anchored.processWindowEvent (h : Anchored live queue cache) {event : EventId} {hwnd : Hwnd}
    {cache' : StateCache F} (hok : cache.processWindowEvent event hwnd = .ok cache') :
    Anchored live queue cache' := by
  rcases processWindowEvent_cases hok with rfl | rfl | rfl | rfl
  · exact h.update hwnd fun c hc => by cases hc
  · exact h.modify hwnd fun c p ident hsource => hsource
  · apply h.modify
    intro c p ident hsource
    by_cases heq : p = .windowTitle
    · subst heq
      simp at hsource
    · simpa [Function.update_of_ne heq] using hsource
  · exact h

/-- An event that has been handled anchors nothing once its handle is not cached. -/
theorem Anchored.tail {e : WinEvent} (h : Anchored live (e :: queue) cache)
    (hgone : e.Ends → e.root = true → cache e.hwnd = none) : Anchored live queue cache := by
  intro hwnd c hc
  obtain ⟨w, hroot, hw, hge⟩ := h hwnd c hc
  refine ⟨w, hroot, ?_, hge⟩
  rcases hw with hw | ⟨d, hd, hends, hhwnd, hwindow, hdroot⟩
  · exact .inl hw
  · rcases List.mem_cons.1 hd with rfl | hd
    · have hnone := hgone hends (hdroot.trans hroot)
      rw [hhwnd, hc] at hnone
      cases hnone
    · exact .inr ⟨d, hd, hends, hhwnd, hwindow, hdroot⟩

end Anchored

/-- No window that is pending comes after the live one. -/
theorem Ordered.pending_le {live : Hwnd → Option LiveWindow} {queue : List WinEvent}
    (h : Ordered live queue) {hwnd : Hwnd} {w w' : LiveWindow} (hw : Pending live queue hwnd w)
    (hlive : live hwnd = some w') : w.ident ≤ w'.ident := by
  rcases hw with hw | ⟨d, hd, -, rfl, hwindow, -⟩
  · obtain rfl := Option.some.inj (hw.symm.trans hlive)
    exact le_rfl
  · rw [← hwindow]
    induction queue with
    | nil => cases hd
    | cons e queue ih =>
      rcases List.mem_cons.1 hd with rfl | hd
      · exact h.1.le_live w' hlive
      · exact ih h.2 hd

/-! ### Windows come and go -/

theorem inv_create {s : System F} (hs : Inv s) (hwnd : Hwnd) (root : Bool) :
    Inv (step s (.create hwnd root)) := by
  unfold step
  dsimp only
  split
  · exact hs
  · rename_i hfree
    constructor
    · intro hwnd' w hw
      show w.ident < s.created + 1
      dsimp only at hw
      by_cases heq : hwnd' = hwnd
      · rw [heq, Function.update_self] at hw
        cases hw
        exact Nat.lt_succ_self _
      · rw [Function.update_of_ne heq] at hw
        exact Nat.lt_succ_of_lt (hs.live_lt hwnd' w hw)
    · exact fun e he => Nat.lt_succ_of_lt (hs.window_lt e he)
    · exact hs.root
    · have happend : Ordered (Function.update s.live hwnd (some ⟨s.created, root⟩))
          (s.notifying.toList ++ s.queue ++ []) :=
        hs.ordered.append trivial fun later e he hbefore => by
          rw [List.append_nil]
          exact hbefore.create hfree (Nat.le_of_lt (hs.window_lt e he))
      rwa [List.append_nil] at happend
    · exact hs.running
    · exact hs.anchored.mono fun hwnd' w hw => hw.create hfree
    · exact hs.forgotten
    · exact hs.defined

theorem destroy_ne_foreground : eventObjectDestroy ≠ eventSystemForeground := by decide

/-- An event that is raised is for a window that has been created. -/
theorem Inv.window_lt_append {s : System F} (hs : Inv s) {new : WinEvent}
    (hnew : new.window < s.created) :
    ∀ e ∈ s.notifying.toList ++ (s.queue ++ [new]), e.window < s.created := by
  intro e he
  rw [← List.append_assoc] at he
  rcases List.mem_append.1 he with he | he
  · exact hs.window_lt e he
  · rwa [List.mem_singleton.1 he]

theorem Inv.root_append {s : System F} (hs : Inv s) {new : WinEvent}
    (hnew : new.event = eventSystemForeground → new.root = true) :
    ∀ e ∈ s.queue ++ [new], e.event = eventSystemForeground → e.root = true := by
  intro e he
  rcases List.mem_append.1 he with he | he
  · exact hs.root e he
  · rwa [List.mem_singleton.1 he]

theorem inv_destroy {s : System F} (hs : Inv s) (hwnd : Hwnd) : Inv (step s (.destroy hwnd)) := by
  unfold step
  dsimp only
  split
  · exact hs
  · rename_i w hlive
    constructor
    · intro hwnd' w' hw'
      dsimp only at hw'
      by_cases heq : hwnd' = hwnd
      · rw [heq, Function.update_self] at hw'
        cases hw'
      · rw [Function.update_of_ne heq] at hw'
        exact hs.live_lt hwnd' w' hw'
    · exact hs.window_lt_append (hs.live_lt hwnd w hlive)
    · exact hs.root_append fun hevent => absurd hevent destroy_ne_foreground
    · rw [← List.append_assoc]
      refine hs.ordered.append ⟨⟨by simp, ?_, fun hends => absurd ⟨rfl, rfl, rfl⟩ hends⟩, trivial⟩
        fun later e _ hbefore => hbefore.destroy hlive
      intro w' hw'
      dsimp only at hw'
      rw [Function.update_self] at hw'
      cases hw'
    · exact hs.running
    · exact hs.anchored.mono fun hwnd' w' hw' => hw'.destroy hlive
    · exact hs.forgotten
    · exact hs.defined

theorem inv_raise {s : System F} (hs : Inv s) (event : EventId) (hwnd : Hwnd)
    (objectId childId : BitVec 32) : Inv (step s (.raise event hwnd objectId childId)) := by
  unfold step
  dsimp only
  split
  · exact hs
  · rename_i w hlive
    split
    · exact hs
    · rename_i hallowed
      constructor
      · exact hs.live_lt
      · exact hs.window_lt_append (hs.live_lt hwnd w hlive)
      · refine hs.root_append fun hevent => ?_
        by_contra hroot
        exact hallowed (.inr ⟨hevent, by simpa using hroot⟩)
      · rw [← List.append_assoc]
        refine hs.ordered.append ⟨⟨by simp, fun w' hw' => ?_, fun _ => .inl hlive⟩, trivial⟩
          fun later e _ hbefore => hbefore.raise hlive
        obtain rfl := Option.some.inj (hlive.symm.trans hw')
        exact le_rfl
      · exact hs.running
      · exact hs.anchored.mono fun hwnd' w' hw' => hw'.raise
      · exact hs.forgotten
      · exact hs.defined

/-! ### Events are handled -/

theorem not_ends_of_foreground {e : WinEvent} (h : e.event = eventSystemForeground) : ¬ e.Ends := by
  intro hends
  rw [hends.1] at h
  exact destroy_ne_foreground h

theorem not_ends_of_show {e : WinEvent} (h : e.event = eventObjectShow) : ¬ e.Ends := by
  intro hends
  rw [hends.1] at h
  exact absurd h (by decide)

/-- What holds while an event is handled, with the event itself still counted. -/
structure Handling (e : WinEvent) (s : System F) : Prop where
  live_lt : ∀ hwnd w, s.live hwnd = some w → w.ident < s.created
  window_lt : ∀ e' ∈ e :: s.queue, e'.window < s.created
  root : ∀ e' ∈ s.queue, e'.event = eventSystemForeground → e'.root = true
  ordered : Ordered s.live (e :: s.queue)
  anchored : Anchored s.live (e :: s.queue) s.cache
  defined : s.fault = none

theorem Handling.setCache {e : WinEvent} {s : System F} (h : Handling e s) {cache : StateCache F}
    (hcache : Anchored s.live (e :: s.queue) cache) : Handling e { s with cache := cache } :=
  ⟨h.live_lt, h.window_lt, h.root, h.ordered, hcache, h.defined⟩

/-- The event is done with. -/
theorem Handling.finished {e : WinEvent} {s : System F} (h : Handling e s)
    (hgone : e.Ends → e.root = true → s.cache e.hwnd = none) :
    Inv { s with notifying := none, processed := some e } where
  live_lt := h.live_lt
  window_lt := fun e' he' => h.window_lt e' (List.mem_cons_of_mem e he')
  root := h.root
  ordered := h.ordered.2
  running := fun e' he' => by cases he'
  anchored := h.anchored.tail hgone
  forgotten := fun e' he' hends hroot => by
    cases he'
    exact hgone hends hroot
  defined := h.defined

/-- Listeners are called. -/
theorem Handling.notified {e : WinEvent} {s : System F} (h : Handling e s) (hends : ¬ e.Ends)
    (hprocessed : s.processed = none) : Inv { s with notifying := some e } where
  live_lt := h.live_lt
  window_lt := h.window_lt
  root := h.root
  ordered := h.ordered
  running := fun e' he' => by
    cases he'
    exact ⟨hends, hprocessed⟩
  anchored := h.anchored.tail fun h' => absurd h' hends
  forgotten := fun e' he' => by
    change s.processed = some e' at he'
    rw [hprocessed] at he'
    cases he'
  defined := h.defined

/-- A state that is created is anchored in a top-level window that is pending. -/
theorem Anchored.getOrCreate {live : Hwnd → Option LiveWindow} {queue : List WinEvent}
    {cache : StateCache F} (h : Anchored live queue cache) {hwnd : Hwnd} {w : LiveWindow}
    (hroot : w.root = true) (hw : Pending live queue hwnd w) (allocated : Bool) :
    Anchored live queue (cache.getOrCreate allocated hwnd).2 := by
  unfold StateCache.getOrCreate
  split
  · exact h
  · split
    · apply h.update
      intro c hc
      cases hc
      exact ⟨w, hroot, hw, fun p ident hsource => by cases hsource⟩
    · exact h

theorem exists_live_of_isRootWindow {live : Hwnd → Option LiveWindow} {hwnd : Hwnd}
    (h : isRootWindow live hwnd = true) : ∃ w, live hwnd = some w ∧ w.root = true := by
  unfold isRootWindow at h
  split at h
  · cases h
  · exact ⟨_, by assumption, h⟩

theorem inv_dispatch {e : WinEvent} {s : System F} (h : Handling e s) (allocated : Bool)
    (hprocessed : s.processed = none)
    (hreused : e.Ends → e.root = true → s.cache e.hwnd ≠ none → isRootWindow s.live e.hwnd = true)
    (hassumed : e.event = eventSystemForeground → e.objectId = objidWindow →
      e.childId = childidSelf → isRootWindow s.live e.hwnd = false) :
    Inv (dispatch allocated e s) := by
  unfold dispatch
  split
  · rename_i hother
    refine h.finished fun hends => ?_
    rcases hother with hother | hother
    · exact absurd hends.2.1 hother
    · exact absurd hends.2.2 hother
  · rename_i hids
    obtain ⟨hobject, hchild⟩ := not_or.1 hids
    split
    · rename_i hroot
      refine h.finished fun hends hwindow => ?_
      by_contra hcached
      simp [hreused hends hwindow hcached] at hroot
    · rename_i hroot
      obtain ⟨w, hlive, hw⟩ := exists_live_of_isRootWindow (by simpa using hroot)
      split
      · rename_i hshow
        have hends := not_ends_of_show hshow
        have hcache := h.anchored.getOrCreate hw (.inl hlive) allocated
        split
        · exact h.finished fun hends' => absurd hends' hends
        · rename_i cache hget
          rw [hget] at hcache
          exact (h.setCache hcache).notified hends hprocessed
      · rename_i hshow
        -- no foreground event has come this far
        have hforeground : e.event ≠ eventSystemForeground := fun hevent => by
          simp [hassumed hevent (not_not.1 hobject) (not_not.1 hchild)] at hroot
        obtain ⟨cache, hcache⟩ := exists_processWindowEvent hforeground hshow e.hwnd s.cache
        simp only [hcache]
        refine (h.setCache (h.anchored.processWindowEvent hcache)).finished fun hends _ => ?_
        rw [hends.1, processWindowEvent_destroy] at hcache
        cases hcache
        exact Function.update_self ..

theorem inv_winEventProcStatic {e : WinEvent} {s : System F} (h : Handling e s) (allocated : Bool)
    (hprocessed : s.processed = none) (hnotifying : s.notifying = none)
    (hforeground : e.event = eventSystemForeground → e.root = true)
    (hreused : e.Ends → e.root = true → s.cache e.hwnd ≠ none →
      isRootWindow s.live e.hwnd = true) : Inv (winEventProcStatic allocated e s) := by
  unfold winEventProcStatic
  split
  · rename_i hevent
    have hends := not_ends_of_foreground hevent
    have hpending : Pending s.live (e :: s.queue) e.hwnd ⟨e.window, e.root⟩ :=
      (h.ordered.1.pending hends).imp_right fun ⟨d, hd, hrest⟩ =>
        ⟨d, List.mem_cons_of_mem e hd, hrest⟩
    have hcache := h.anchored.getOrCreate (hforeground hevent) hpending allocated
    split
    · have hinv := h.finished fun hends' => absurd hends' hends
      rwa [← hnotifying] at hinv
    · rename_i cache hget
      rw [hget] at hcache
      exact (h.setCache hcache).notified hends hprocessed
  · rename_i hevent
    exact inv_dispatch h allocated hprocessed hreused fun hforeground' => absurd hforeground' hevent

theorem inv_deliver {s : System F} (hs : Inv s) (allocated : Bool)
    (hreused : Reused s (.deliver allocated)) : Inv (step s (.deliver allocated)) := by
  unfold step
  dsimp only
  split
  · rename_i e queue hnotifying hqueue
    have hordered := hs.ordered
    rw [hnotifying, hqueue] at hordered
    have hlt := hs.window_lt
    rw [hnotifying, hqueue] at hlt
    apply inv_winEventProcStatic
    · constructor
      · exact hs.live_lt
      · exact hlt
      · intro e' he'
        exact hs.root e' (by rw [hqueue]; exact List.mem_cons_of_mem e he')
      · exact hordered
      · exact hqueue ▸ hs.anchored
      · exact hs.defined
    · rfl
    · exact hnotifying
    · exact hs.root e (by rw [hqueue]; exact List.mem_cons_self)
    · exact hreused e (by rw [hqueue]; rfl) hnotifying
  · exact hs

theorem inv_query {s : System F} (hs : Inv s) (p : Property) (q : Queries F) :
    Inv (step s (.query p q)) := by
  unfold step
  dsimp only
  split
  · exact hs
  · rename_i e he
    split
    · exact hs
    · rename_i w hlive
      have hordered := hs.ordered
      rw [he] at hordered
      refine ⟨hs.live_lt, hs.window_lt, hs.root, hs.ordered, hs.running, ?_, ?_, hs.defined⟩
      · exact hs.anchored.read (fun w' hw' => hordered.2.pending_le hw' hlive) p q
      · intro e' he'
        exact absurd ((hs.running e he).2.symm.trans he') (by simp)

theorem inv_listenersReturned {s : System F} (hs : Inv s)
    (hpassed : ¬ FallsThrough s (.listenersReturned : Move F)) :
    Inv (step s (.listenersReturned : Move F)) := by
  unfold step
  dsimp only
  split
  · exact hs
  · rename_i e he
    have hordered := hs.ordered
    rw [he] at hordered
    have hlt := hs.window_lt
    rw [he] at hlt
    obtain ⟨hends, hprocessed⟩ := hs.running e he
    have handling : Handling e s :=
      ⟨hs.live_lt, hlt, hs.root, hordered, hs.anchored.mono fun hwnd w hw =>
        hw.imp_right fun ⟨d, hd, hrest⟩ => ⟨d, List.mem_cons_of_mem e hd, hrest⟩, hs.defined⟩
    split
    · refine inv_dispatch handling true hprocessed (fun hends' => absurd hends' hends)
        fun hevent hobject hchild => Bool.eq_false_iff.2 fun hroot => ?_
      exact hpassed ⟨e, he, hevent, hobject, hchild, hroot⟩
    · exact handling.finished fun hends' => absurd hends' hends

/-- **Step lemma.** -/
theorem inv_step (s : System F) (m : Move F) (hs : Inv s) (hm : Tracked s m) : Inv (step s m) := by
  cases m with
  | create hwnd root => exact inv_create hs hwnd root
  | destroy hwnd => exact inv_destroy hs hwnd
  | raise event hwnd objectId childId => exact inv_raise hs event hwnd objectId childId
  | deliver allocated => exact inv_deliver hs allocated hm.1
  | query p q => exact inv_query hs p q
  | listenersReturned => exact inv_listenersReturned hs hm.2

/-- The destroy event of a window that is gone stops at the test of the ancestor. -/
theorem dispatch_of_not_root {e : WinEvent} {s : System F} (allocated : Bool)
    (h : isRootWindow s.live e.hwnd = false) :
    dispatch allocated e s = { s with notifying := none, processed := some e } := by
  unfold dispatch
  split
  · rfl
  · rw [if_pos (by simp [h])]

/-- A foreground event for a top-level window itself is passed on, against the assumption. -/
theorem dispatch_of_foreground {e : WinEvent} {s : System F} (allocated : Bool)
    (hevent : e.event = eventSystemForeground) (hobject : e.objectId = objidWindow)
    (hchild : e.childId = childidSelf) (hroot : isRootWindow s.live e.hwnd = true) :
    dispatch allocated e s =
      { s with notifying := none, processed := some e, fault := some .undefined } := by
  unfold dispatch
  rw [if_neg (by simp [hobject, hchild]), if_neg (by simp [hroot]), hevent, if_neg (by decide),
    processWindowEvent_foreground]

/-- A cached handle whose destroy event is taken has to name a top-level window. -/
theorem reused_of_forgotten {s : System F} {allocated : Bool}
    (hsound : Sound (step s (.deliver allocated))) : Reused s (.deliver allocated) := by
  intro e he hnotifying hends hroot hcached
  obtain ⟨queue, hqueue⟩ : ∃ queue, s.queue = e :: queue := by
    cases hq : s.queue with
    | nil => simp [hq] at he
    | cons e' queue =>
      rw [hq] at he
      cases he
      exact ⟨queue, rfl⟩
  by_contra hgone
  -- the event is done with, and the state is where it was
  have hstep : step s (.deliver allocated) =
      { s with queue := queue, notifying := none, processed := some e } := by
    simp only [step, hnotifying, hqueue, winEventProcStatic]
    rw [if_neg (by rw [hends.1]; decide), dispatch_of_not_root _ (by simpa using hgone)]
  rw [hstep] at hsound
  exact hcached (hsound.forgotten e rfl hends hroot)

theorem not_fallsThrough_of_defined {s : System F} {m : Move F} (hdefined : (step s m).fault = none) :
    ¬ FallsThrough s m := by
  cases m with
  | listenersReturned =>
    rintro ⟨e, he, hevent, hobject, hchild, hroot⟩
    have hstep : step s (.listenersReturned : Move F) = dispatch true e s := by
      simp only [step, he, if_pos hevent]
    rw [hstep, dispatch_of_foreground true hevent hobject hchild hroot] at hdefined
    cases hdefined
  | create hwnd root => exact not_false
  | destroy hwnd => exact not_false
  | raise event hwnd objectId childId => exact not_false
  | deliver allocated => exact not_false
  | query p q => exact not_false

theorem tracked_of_sound (s : System F) (m : Move F) (_ : Inv s) (hsound : Sound (step s m)) :
    Tracked s m := by
  refine ⟨?_, not_fallsThrough_of_defined hsound.defined⟩
  cases m with
  | deliver allocated => exact reused_of_forgotten hsound
  | create hwnd root => exact trivial
  | destroy hwnd => exact trivial
  | raise event hwnd objectId childId => exact trivial
  | query p q => exact trivial
  | listenersReturned => exact trivial

/-- **The cache tracks the live window.**  Through every course of windows and events, the behaviour
is defined, destroyed windows are forgotten and no state mixes two windows, exactly if each destroy
event of a top-level window that is cached is handled when its handle names a top-level window again,
and no foreground event falls through. -/
theorem cache_tracks_iff (ms : List (Move F)) :
    Run.Always step Sound ({} : System F) ms ↔ Run.AllSteps step Tracked {} ms :=
  Run.always_iff_of_invariant inv_step (fun _ => Inv.sound) tracked_of_sound inv_init ms

/-- A window is shown and its state cached; it is destroyed, and by the time the event arrives
there is no such window.  The state stays. -/
theorem destroyed_stays_cached :
    ¬ Run.Always step Sound ({} : System ℚ)
      [.create 10 true, .raise eventObjectShow 10 objidWindow childidSelf, .deliver true,
        .listenersReturned, .destroy 10, .deliver true] := by
  intro h
  have hforgotten := h.last.forgotten (destroyed 10 ⟨0, true⟩) rfl ⟨rfl, rfl, rfl⟩ rfl
  cases hforgotten

end RoxyGlance.Window.StateWatcher
