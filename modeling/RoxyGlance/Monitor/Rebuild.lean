import RoxyGlance.Lib.FirstOfEach
import RoxyGlance.Lib.KeyedList
import RoxyGlance.Monitor

/-!
# Rebuilding the monitor cache

`StateCache::initialize` enumerates the monitors into a new map, compares it with the one it has,
and only then replaces that one and calls back.  The states here are whole: with the friendly name
and the flag of the primary monitor, which the comparison looks at too.

* `enumDisplayMonitors_spec`: the map that an enumeration builds;
* `rebuild_spec`: a rebuild either fails and changes nothing, or leaves the first monitor of each
  display area, with one call of every callback if that is news;
* `enumDisplayMonitors_toStates`: without the two fields this is the enumeration the compiler and the
  operations are modelled with.
-/

namespace RoxyGlance

/-- `kErrorInvalidMonitorHandle` -/
def HResult.kErrorInvalidMonitorHandle : HResult := ofWin32 1461#32

namespace Monitor

/-- `monitor::State` -/
structure FullState (F : Type) extends State F where
  friendlyName : Wide
  primary : Bool
  deriving DecidableEq, Repr

/-- The container of the cache: states by handle, in the order of iteration. -/
structure Storage (F : Type) where
  entries : List (Handle × FullState F)
  distinct : KeyedList.Distinct entries

namespace Storage

variable {F : Type}

/-- A container without states. -/
def empty : Storage F := ⟨[], List.nodup_nil⟩

/-- `find` -/
def find (storage : Storage F) (hmonitor : Handle) : Option (FullState F) :=
  KeyedList.lookup hmonitor storage.entries

/-- The states, in the order of iteration. -/
def states (storage : Storage F) : List (FullState F) := storage.entries.map Prod.snd

/-- `try_emplace` of a key that is not there; the assertion after it says that it is not. -/
def tryEmplace (storage : Storage F) (hmonitor : Handle) (state : FullState F) :
    Except Fault (Storage F) :=
  if h : hmonitor ∈ storage.entries.map Prod.fst then .error .undefined
  else .ok
    { entries := storage.entries ++ [(hmonitor, state)]
      distinct := by
        show ((storage.entries ++ [(hmonitor, state)]).map Prod.fst).Nodup
        rw [List.map_append, List.map_singleton, List.nodup_append]
        refine ⟨storage.distinct, List.nodup_singleton _, fun k hk k' hk' => ?_⟩
        rw [List.mem_singleton.1 hk']
        rintro rfl
        exact h hk }

end Storage

/-- `operator==` of states compares every field. -/
def sameState {F : Type} [FloatLike F] (a b : FullState F) : Bool :=
  StateCache.sameArea a.displayArea b.displayArea && StateCache.sameArea a.workArea b.workArea &&
    decide (a.friendlyName = b.friendlyName) && decide (a.handle = b.handle) &&
    decide (a.id = b.id) && decide (a.primary = b.primary)

/-! ### Enumerating the monitors -/

/-- One monitor as `EnumDisplayMonitors` reports it. -/
structure Reported where
  handle : Handle
  rect : Long4
  /-- There is memory for the state. -/
  allocated : Bool
  /-- The answer of `GetMonitorInfoW`, with the flag of the primary monitor; `none` if it fails. -/
  info : Option (StateCache.Info × Bool)
  deriving DecidableEq, Repr

/-- The state of a monitor: `State::initialize`, then the friendly name found for its number. -/
def makeState {F : Type} [FloatLike F] (names : List (ℤ × Wide)) (handle : Handle)
    (info : StateCache.Info) (primary : Bool) : FullState F where
  handle := handle
  id := info.deviceId
  displayArea := StateCache.toArea info.rcMonitor
  workArea := StateCache.toArea info.rcWork
  friendlyName := (KeyedList.lookup info.deviceId names).getD []
  primary := primary

section Enumerate

variable {F : Type} [FloatLike F]

/-- `EnumDisplayMonitorsCallback` over the monitors reported: the container built, or the code with
which the callback stops the enumeration. -/
def enumDisplayMonitors (names : List (ℤ × Wide)) :
    Storage F → List Reported → Except Fault (Except HResult (Storage F))
  | storage, [] => .ok (.ok storage)
  | storage, m :: monitors =>
    let displayArea : Vec4 F := StateCache.toArea m.rect
    -- a mirror of a monitor that is there already
    if storage.states.any fun state => StateCache.sameArea state.displayArea displayArea then
      enumDisplayMonitors names storage monitors
    else if !m.allocated then .ok (.error HResult.outOfMemory)
    else match m.info with
      | none => .ok (.error HResult.kErrorInvalidMonitorHandle)
      | some (info, primary) => do
        let storage ← storage.tryEmplace m.handle (makeState names m.handle info primary)
        enumDisplayMonitors names storage monitors

/-- What the system answers to `initialize`. -/
structure Answers where
  /-- `GetMonitorCount` -/
  monitorCount : ℤ
  /-- `reserve` finds memory. -/
  reserved : Bool
  /-- The names that `GetMonitorFriendlyNames` has collected, whether it succeeds or not. -/
  friendlyNames : List (ℤ × Wide)
  /-- The monitors that `EnumDisplayMonitors` reports before it ends. -/
  monitors : List Reported
  /-- It does not fail by itself. -/
  completed : Bool

/-- How `initialize` ends: the code, the container, and the callbacks that were called, each with the
container it could see. -/
structure Rebuilt (F C : Type) where
  hresult : HResult
  storage : Storage F
  calls : List (C × Storage F)

/-- `invoke` -/
def invoke {C : Type} (callbacks : List C) (storage : Storage F) : List (C × Storage F) :=
  callbacks.map fun callback => (callback, storage)

/-- `StateCache::initialize`, with the callbacks that are registered. -/
def rebuild {C : Type} (callbacks : List C) (storage : Storage F) (a : Answers) :
    Except Fault (Rebuilt F C) :=
  if a.monitorCount ≤ 0 then
    if storage.entries.isEmpty then .ok ⟨HResult.ok, storage, []⟩
    else .ok ⟨HResult.ok, .empty, invoke callbacks .empty⟩
  else if !a.reserved then .ok ⟨HResult.outOfMemory, storage, []⟩
  else do
    match ← enumDisplayMonitors a.friendlyNames .empty a.monitors with
    | .error hr => .ok ⟨hr, storage, []⟩
    | .ok states =>
      if !a.completed then .ok ⟨HResult.fail, storage, []⟩
      else if KeyedList.equal sameState storage.entries states.entries then
        .ok ⟨HResult.ok, storage, []⟩
      else .ok ⟨HResult.ok, states, invoke callbacks states⟩

/-- The report without what the enumeration of plain states does not look at. -/
def Reported.toEnumerated (m : Reported) : StateCache.Enumerated :=
  ⟨m.handle, m.rect, m.info.map Prod.fst⟩

/-- The states without names and flags. -/
def Storage.toStates (storage : Storage F) : StateCache F :=
  storage.states.map FullState.toState

omit [FloatLike F] in
theorem Storage.toStates_tryEmplace {storage storage' : Storage F} {hmonitor : Handle}
    {state : FullState F} (h : storage.tryEmplace hmonitor state = .ok storage') :
    storage'.toStates = storage.toStates ++ [state.toState] := by
  unfold tryEmplace at h
  split at h
  · cases h
  · cases h
    simp [toStates, states]

/-- An enumeration builds the plain states it is modelled with elsewhere. -/
theorem enumDisplayMonitors_toStates (names : List (ℤ × Wide)) {storage states : Storage F}
    {monitors : List Reported}
    (h : enumDisplayMonitors names storage monitors = .ok (.ok states)) :
    StateCache.enumerate storage.toStates (monitors.map Reported.toEnumerated) =
      some states.toStates := by
  induction monitors generalizing storage with
  | nil =>
    cases h
    rfl
  | cons m monitors ih =>
    rw [enumDisplayMonitors] at h
    rw [List.map_cons, StateCache.enumerate]
    have hany : (storage.toStates.any fun state =>
          StateCache.sameArea state.displayArea (StateCache.toArea m.toEnumerated.rect)) =
        storage.states.any fun state =>
          StateCache.sameArea state.displayArea (StateCache.toArea m.rect) := by
      rw [Storage.toStates, List.any_map]
      rfl
    simp only [hany]
    split at h
    · rename_i hmirror
      rw [if_pos hmirror]
      exact ih h
    · rename_i hmirror
      rw [if_neg hmirror]
      split at h
      · cases h
      · cases hinfo : m.info with
        | none =>
          rw [hinfo] at h
          cases h
        | some answer =>
          rw [hinfo] at h
          obtain ⟨storage', hemplace, hrest⟩ := bind_eq_ok.1 h
          have hstates := ih hrest
          rw [Storage.toStates_tryEmplace hemplace] at hstates
          simp only [Reported.toEnumerated, hinfo, Option.map_some]
          exact hstates

end Enumerate

/-! ### Exact areas -/

theorem sameArea_iff (a b : Vec4 ℚ) : StateCache.sameArea a b = true ↔ a = b := by
  obtain ⟨ax, ay, az, aw⟩ := a
  obtain ⟨bx, bY, bz, bw⟩ := b
  simp only [StateCache.sameArea, FloatLike.ne, Bool.not_or, Bool.and_eq_true, Bool.not_eq_true',
    decide_eq_false_iff_not, not_not, Vec4.mk.injEq]
  tauto

theorem sameState_iff (a b : FullState ℚ) : sameState a b = true ↔ a = b := by
  obtain ⟨⟨ha, ia, da, wa⟩, na, pa⟩ := a
  obtain ⟨⟨hb, ib, db, wb⟩, nb, pb⟩ := b
  simp only [sameState, Bool.and_eq_true, sameArea_iff, decide_eq_true_eq, FullState.mk.injEq,
    State.mk.injEq]
  tauto

/-- Different rectangles are different areas. -/
theorem toArea_injective : Function.Injective (StateCache.toArea : Long4 → Vec4 ℚ) := by
  rintro ⟨ax, ay, az, aw⟩ ⟨bx, bY, bz, bw⟩ h
  simp only [StateCache.toArea, Vec4.map, Vec4.mk.injEq, FloatLike.ofLong, Int.cast_inj] at h
  obtain ⟨rfl, rfl, hz, hw⟩ := h
  rw [sub_left_inj] at hz hw
  rw [hz, hw]

theorem sameArea_toArea (a b : Long4) :
    StateCache.sameArea (StateCache.toArea a : Vec4 ℚ) (StateCache.toArea b) = decide (a = b) := by
  rw [Bool.eq_iff_iff, sameArea_iff, decide_eq_true_eq, toArea_injective.eq_iff]

/-! ### What a rebuild leaves -/

/-- The entry that a monitor gets. -/
def Describes (names : List (ℤ × Wide)) (m : Reported) (e : Handle × FullState ℚ) : Prop :=
  ∃ info primary, m.info = some (info, primary) ∧
    e = (m.handle, makeState names m.handle info primary)

/-- The system reports monitors with different handles and the rectangles `GetMonitorInfoW` knows,
the primary one first. -/
structure Consistent (a : Answers) : Prop where
  handles : (a.monitors.map Reported.handle).Nodup
  rects : ∀ m ∈ a.monitors, ∀ info primary, m.info = some (info, primary) → info.rcMonitor = m.rect
  primaryFirst : ∀ m ∈ a.monitors.head?, ∀ info primary, m.info = some (info, primary) →
    primary = true
  nonempty : 0 < a.monitorCount → a.completed = true → a.monitors ≠ []

/-- The container holds the first monitor of each rectangle and nothing else. -/
structure Exact (a : Answers) (storage : Storage ℚ) : Prop where
  find_iff : ∀ h state, storage.find h = some state ↔
    ∃ m info primary, FirstOfEach.IsFirst Reported.rect a.monitors m ∧ m.handle = h ∧
      m.info = some (info, primary) ∧ state = makeState a.friendlyNames h info primary
  areas : ∀ h h' state state', storage.find h = some state → storage.find h' = some state' →
    state.displayArea = state'.displayArea → h = h'
  primary : ∃ h state, storage.find h = some state ∧ state.primary = true
  named : ∀ h state, storage.find h = some state →
    state.friendlyName = (KeyedList.lookup state.id a.friendlyNames).getD []

section Forall

variable {names : List (ℤ × Wide)} {seen : List Reported} {entries : List (Handle × FullState ℚ)}

theorem keys_of_describes (h : List.Forall₂ (Describes names) seen entries) :
    entries.map Prod.fst = seen.map Reported.handle := by
  induction h with
  | nil => rfl
  | cons hhead _ ih =>
    obtain ⟨info, primary, -, rfl⟩ := hhead
    rw [List.map_cons, List.map_cons, ih]

/-- A monitor is taken for a mirror when one with its rectangle has been seen. -/
theorem any_of_describes (h : List.Forall₂ (Describes names) seen entries)
    (hrects : ∀ m ∈ seen, ∀ info primary, m.info = some (info, primary) → info.rcMonitor = m.rect)
    (rect : Long4) :
    ((entries.map Prod.snd).any fun state =>
        StateCache.sameArea state.displayArea (StateCache.toArea rect)) =
      seen.any fun m => decide (m.rect = rect) := by
  induction h with
  | nil => rfl
  | cons hhead _ ih =>
    obtain ⟨info, primary, hinfo, rfl⟩ := hhead
    rw [List.forall_mem_cons] at hrects
    rw [List.map_cons, List.any_cons, List.any_cons, ih hrects.2, makeState, sameArea_toArea,
      hrects.1 info primary hinfo]

theorem mem_of_describes (h : List.Forall₂ (Describes names) seen entries)
    {e : Handle × FullState ℚ} : e ∈ entries ↔ ∃ m ∈ seen, Describes names m e := by
  induction h with
  | nil => simp
  | @cons m e' seen entries hhead _ ih =>
    obtain ⟨info, primary, hinfo, rfl⟩ := hhead
    rw [List.mem_cons, ih]
    constructor
    · rintro (rfl | ⟨m', hm', hdescribes⟩)
      · exact ⟨m, List.mem_cons_self, info, primary, hinfo, rfl⟩
      · exact ⟨m', List.mem_cons_of_mem m hm', hdescribes⟩
    · rintro ⟨m', hm', hdescribes⟩
      rcases List.mem_cons.1 hm' with rfl | hm'
      · obtain ⟨info', primary', hinfo', rfl⟩ := hdescribes
        rw [hinfo] at hinfo'
        cases hinfo'
        exact .inl rfl
      · exact .inr ⟨m', hm', hdescribes⟩

theorem exists_describes (h : List.Forall₂ (Describes names) seen entries) {m : Reported}
    (hm : m ∈ seen) : ∃ e ∈ entries, Describes names m e := by
  induction h with
  | nil => cases hm
  | cons hhead _ ih =>
    rcases List.mem_cons.1 hm with rfl | hm
    · exact ⟨_, List.mem_cons_self, hhead⟩
    · obtain ⟨e, he, hdescribes⟩ := ih hm
      exact ⟨e, List.mem_cons_of_mem _ he, hdescribes⟩

end Forall

/-- **Loop lemma.**  With the entries of the monitors in `seen`, an enumeration fails, or adds those
of the monitors it keeps. -/
theorem enumDisplayMonitors_spec (names : List (ℤ × Wide)) {seen monitors : List Reported}
    {storage : Storage ℚ} (hstorage : List.Forall₂ (Describes names) seen storage.entries)
    (hhandles : ((seen ++ monitors).map Reported.handle).Nodup)
    (hrects : ∀ m ∈ seen ++ monitors, ∀ info primary, m.info = some (info, primary) →
      info.rcMonitor = m.rect) :
    (∃ hr, hr.failed = true ∧ enumDisplayMonitors names storage monitors = .ok (.error hr)) ∨
    (∃ states, enumDisplayMonitors names storage monitors = .ok (.ok states) ∧
      List.Forall₂ (Describes names) (seen ++ FirstOfEach.keep Reported.rect seen monitors)
        states.entries) := by
  induction monitors generalizing seen storage with
  | nil => exact .inr ⟨storage, rfl, by rwa [FirstOfEach.keep, List.append_nil]⟩
  | cons m monitors ih =>
    have hseen : seen ++ m :: monitors = (seen ++ [m]) ++ monitors := by simp
    rw [enumDisplayMonitors, FirstOfEach.keep]
    have hany := any_of_describes hstorage
      (fun m' hm' => hrects m' (List.mem_append_left _ hm')) m.rect
    simp only [Storage.states, hany]
    split
    · -- the sublist of the monitors without this one is as consistent
      have hsub : (seen ++ monitors).Sublist (seen ++ m :: monitors) :=
        (List.Sublist.refl seen).append (List.sublist_cons_self m monitors)
      exact ih hstorage (hhandles.sublist (hsub.map _)) fun m' hm' => hrects m' (hsub.subset hm')
    · split
      · exact .inl ⟨_, by decide, rfl⟩
      · cases hinfo : m.info with
        | none => exact .inl ⟨_, by decide, rfl⟩
        | some answer =>
          obtain ⟨info, primary⟩ := answer
          -- the handles are distinct, so the entry is really added
          have hnew : m.handle ∉ storage.entries.map Prod.fst := by
            rw [keys_of_describes hstorage]
            rw [hseen, List.map_append, List.map_append] at hhandles
            have hdisjoint := (List.nodup_append.1 (List.nodup_append.1 hhandles).1).2.2
            exact fun hmem => hdisjoint _ hmem _ (by simp) rfl
          have hnext : List.Forall₂ (Describes names) (seen ++ [m])
              (storage.entries ++ [(m.handle, makeState names m.handle info primary)]) :=
            List.rel_append hstorage (.cons ⟨info, primary, hinfo, rfl⟩ .nil)
          rw [hseen] at hhandles hrects
          simp only [Storage.tryEmplace, hnew, dif_neg, not_false_iff]
          rw [show seen ++ m :: FirstOfEach.keep Reported.rect (seen ++ [m]) monitors =
            (seen ++ [m]) ++ FirstOfEach.keep Reported.rect (seen ++ [m]) monitors by simp]
          exact @ih (seen ++ [m]) ⟨_, _⟩ hnext hhandles hrects

/-- An enumeration that is not stopped finds the first monitor of each rectangle. -/
theorem exact_of_describes {a : Answers} (ha : Consistent a) (hne : a.monitors ≠ [])
    {states : Storage ℚ}
    (h : List.Forall₂ (Describes a.friendlyNames) (FirstOfEach.keep Reported.rect [] a.monitors)
      states.entries) : Exact a states := by
  have hfind : ∀ handle state, states.find handle = some state ↔
      ∃ m info primary, FirstOfEach.IsFirst Reported.rect a.monitors m ∧ m.handle = handle ∧
        m.info = some (info, primary) ∧ state = makeState a.friendlyNames handle info primary := by
    intro handle state
    rw [Storage.find, ← states.distinct.mem_iff, mem_of_describes h]
    constructor
    · rintro ⟨m, hm, info, primary, hinfo, heq⟩
      obtain ⟨rfl, rfl⟩ := Prod.mk.inj heq
      exact ⟨m, info, primary, (FirstOfEach.mem_keep_iff.1 hm).1, rfl, hinfo, rfl⟩
    · rintro ⟨m, info, primary, hfirst, rfl, hinfo, rfl⟩
      exact ⟨m, FirstOfEach.mem_keep_iff.2 ⟨hfirst, by simp⟩, info, primary, hinfo, rfl⟩
  refine ⟨hfind, ?_, ?_, ?_⟩
  · intro handle handle' state state' hstate hstate' harea
    obtain ⟨m, info, primary, hfirst, rfl, hinfo, rfl⟩ := (hfind _ _).1 hstate
    obtain ⟨m', info', primary', hfirst', rfl, hinfo', rfl⟩ := (hfind _ _).1 hstate'
    -- two monitors with one area have one rectangle, and only the first of these is kept
    have hrect : m.rect = m'.rect := by
      rw [← ha.rects m hfirst.mem info primary hinfo,
        ← ha.rects m' hfirst'.mem info' primary' hinfo']
      exact toArea_injective harea
    rw [hfirst.eq_of_key hfirst' hrect]
  · obtain ⟨m, monitors, hmonitors⟩ := List.exists_cons_of_ne_nil hne
    have hfirst : FirstOfEach.IsFirst Reported.rect a.monitors m := by
      rw [hmonitors]
      exact FirstOfEach.isFirst_head m monitors
    obtain ⟨-, -, info, primary, hinfo, -⟩ :=
      exists_describes h (FirstOfEach.mem_keep_iff.2 ⟨hfirst, by simp⟩)
    have hprimary := ha.primaryFirst m (by simp [hmonitors]) info primary hinfo
    exact ⟨m.handle, _, (hfind _ _).2 ⟨m, info, primary, hfirst, rfl, hinfo, rfl⟩, hprimary⟩
  · intro handle state hstate
    obtain ⟨m, info, primary, -, -, -, rfl⟩ := (hfind _ _).1 hstate
    rfl

/-- Containers in which the same is found are exact together. -/
theorem Exact.congr {a : Answers} {storage storage' : Storage ℚ} (h : Exact a storage)
    (hsame : ∀ hmonitor, storage'.find hmonitor = storage.find hmonitor) : Exact a storage' := by
  obtain ⟨hfind, hareas, hprimary, hnamed⟩ := h
  constructor <;> simp only [hsame]
  exacts [hfind, hareas, hprimary, hnamed]

/-- The container is the same map as before. -/
def SameMap (storage storage' : Storage ℚ) : Prop :=
  ∀ hmonitor, storage.find hmonitor = storage'.find hmonitor

/-- How a rebuild of `storage` may end: a failure leaves the container alone and calls nobody; a
success with monitors there leaves an exact container, and calls each callback once if that is
another map than before, and nobody if it is the same. -/
structure AtomicAndExact {C : Type} (callbacks : List C) (storage : Storage ℚ) (a : Answers)
    (r : Rebuilt ℚ C) : Prop where
  code : r.hresult = HResult.ok ∨ r.hresult.failed = true
  unchanged : r.hresult.failed = true → r.storage = storage ∧ r.calls = []
  exact : r.hresult = HResult.ok → 0 < a.monitorCount → Exact a r.storage
  quiet : r.hresult = HResult.ok → 0 < a.monitorCount → SameMap storage r.storage → r.calls = []
  called : r.hresult = HResult.ok → 0 < a.monitorCount → ¬ SameMap storage r.storage →
    r.calls = callbacks.map fun callback => (callback, r.storage)

section Endings

variable {C : Type} {callbacks : List C} {storage : Storage ℚ} {a : Answers}

theorem atomicAndExact_of_failed {hr : HResult} (h : hr.failed = true) :
    AtomicAndExact callbacks storage a ⟨hr, storage, []⟩ := by
  have hne : hr ≠ HResult.ok := by
    rintro rfl
    exact absurd h (by decide)
  exact ⟨.inr h, fun _ => ⟨rfl, rfl⟩, fun h => absurd h hne, fun h => absurd h hne,
    fun h => absurd h hne⟩

theorem atomicAndExact_of_no_monitors (hcount : a.monitorCount ≤ 0) (storage' : Storage ℚ)
    (calls : List (C × Storage ℚ)) :
    AtomicAndExact callbacks storage a ⟨HResult.ok, storage', calls⟩ :=
  ⟨.inl rfl, fun h => absurd h (show ¬ HResult.ok.failed = true by decide),
    fun _ h => absurd h (by omega), fun _ h => absurd h (by omega), fun _ h => absurd h (by omega)⟩

theorem atomicAndExact_of_same {states : Storage ℚ} (hexact : Exact a states)
    (hsame : SameMap storage states) :
    AtomicAndExact callbacks storage a ⟨HResult.ok, storage, []⟩ :=
  ⟨.inl rfl, fun h => absurd h (show ¬ HResult.ok.failed = true by decide),
    fun _ _ => hexact.congr hsame, fun _ _ _ => rfl, fun _ _ h => absurd (fun _ => rfl) h⟩

theorem atomicAndExact_of_differs {states : Storage ℚ} (hexact : Exact a states)
    (hdiffers : ¬ SameMap storage states) :
    AtomicAndExact callbacks storage a ⟨HResult.ok, states, invoke callbacks states⟩ :=
  ⟨.inl rfl, fun h => absurd h (show ¬ HResult.ok.failed = true by decide), fun _ _ => hexact,
    fun _ _ h => absurd h hdiffers, fun _ _ _ => rfl⟩

end Endings

/-- **Rebuilding is atomic and exact**, for every content before, every enumeration and every step
that may fail. -/
theorem rebuild_spec {C : Type} (callbacks : List C) (storage : Storage ℚ) {a : Answers}
    (ha : Consistent a) :
    ∃ r, rebuild callbacks storage a = .ok r ∧ AtomicAndExact callbacks storage a r := by
  rw [rebuild]
  by_cases hcount : a.monitorCount ≤ 0
  · rw [if_pos hcount]
    split
    · exact ⟨_, rfl, atomicAndExact_of_no_monitors hcount _ _⟩
    · exact ⟨_, rfl, atomicAndExact_of_no_monitors hcount _ _⟩
  · rw [if_neg hcount]
    split
    · exact ⟨_, rfl, atomicAndExact_of_failed (by decide)⟩
    · rcases @enumDisplayMonitors_spec a.friendlyNames [] a.monitors .empty .nil ha.handles
        ha.rects with ⟨hr, hfailed, henum⟩ | ⟨states, henum, hstates⟩
      · rw [henum]
        exact ⟨_, rfl, atomicAndExact_of_failed hfailed⟩
      · rw [henum]
        show ∃ r, (if !a.completed then _ else _) = Except.ok r ∧ _
        split
        · exact ⟨_, rfl, atomicAndExact_of_failed (by decide)⟩
        · rename_i hcompleted
          have hne := ha.nonempty (by omega) (by simpa using hcompleted)
          have hexact := exact_of_describes ha hne hstates
          have hequal : _ ↔ SameMap storage states :=
            KeyedList.equal_iff sameState_iff storage.distinct states.distinct
          split
          · rename_i hsame
            exact ⟨_, rfl, atomicAndExact_of_same hexact (hequal.1 hsame)⟩
          · rename_i hdiffers
            exact ⟨_, rfl, atomicAndExact_of_differs hexact fun h => hdiffers (hequal.2 h)⟩

/-- Two monitors, the second a mirror of the first. -/
def mirrored : Answers where
  monitorCount := 2
  reserved := true
  friendlyNames := [(1, wide "LCD")]
  monitors :=
    [⟨10, ⟨0, 0, 1920, 1080⟩, true,
        some (⟨⟨0, 0, 1920, 1080⟩, ⟨0, 0, 1920, 1040⟩, 1⟩, true)⟩,
      ⟨11, ⟨0, 0, 1920, 1080⟩, true,
        some (⟨⟨0, 0, 1920, 1080⟩, ⟨0, 0, 1920, 1080⟩, 2⟩, false)⟩]
  completed := true

theorem rebuild_mirrored :
    ∃ r, rebuild ["refresh"] .empty mirrored = .ok r ∧
      AtomicAndExact ["refresh"] .empty mirrored r :=
  rebuild_spec ["refresh"] .empty
    { handles := by decide
      rects := by
        intro m hm info primary hinfo
        simp only [mirrored, List.mem_cons, List.not_mem_nil, or_false] at hm
        rcases hm with rfl | rfl
        · cases hinfo
          rfl
        · cases hinfo
          rfl
      primaryFirst := by
        intro m hm info primary hinfo
        cases hm
        cases hinfo
        rfl
      nonempty := by simp [mirrored] }

end Monitor

end RoxyGlance
