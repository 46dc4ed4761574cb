import RoxyGlance.Fault
import RoxyGlance.Lib.KeyedList

/-!
# The names of the monitors

`GetMonitorFriendlyNames` asks for the active display paths, in at most three passes, and then for
two names of each path.  A path whose queries fail is skipped.  A name that is too long for
`MonitorFriendlyName` ends the function by an exception instead, and with it the search: the paths
that come after it get no names.

* `getMonitorFriendlyNames_independent_iff`: the names are collected independently exactly when no
  such path comes before one that would be the first with its display number.

Allocations succeed.
-/

namespace RoxyGlance.Win32

open KeyedList

/-! ### The names -/

/-- `ERROR_INSUFFICIENT_BUFFER` of `QueryDisplayConfig`. -/
def displayConfigInsufficientBuffer : BitVec 32 := 122#32

/-- `kDisplayConfigMaxRetries` -/
def kDisplayConfigMaxRetries : ℕ := 3

/-- `MonitorFriendlyName`: a static string of at most 14 units. -/
abbrev MonitorFriendlyName := { name : Wide // name.length ≤ 14 }

/-- `MonitorFriendlyNameContainer` -/
abbrev MonitorFriendlyNameContainer := List (ℤ × MonitorFriendlyName)

/-- `_wtoi`: white space, a sign and digits; a number that is too large is replaced by the closest
one that is not. -/
def wtoi (text : Wide) : ℤ :=
  let text := text.dropWhile fun c => c = 32 || 9 ≤ c && c ≤ 13
  let negative := text.head? = some 45
  let text := if text.head? = some 45 || text.head? = some 43 then text.tail else text
  let digits := text.takeWhile fun c => 48 ≤ c && c ≤ 57
  let value : ℤ := digits.foldl (fun value c => 10 * value + (c.toNat - 48)) 0
  max (-2 ^ 31) (min (if negative then -value else value) (2 ^ 31 - 1))

/-- `GetMonitorDeviceId` -/
def getMonitorDeviceId (deviceName : Wide) : ℤ := wtoi (deviceName.drop 11)

/-- The text of an array of characters: what stands before the first NUL. -/
structure TextField (size : ℕ) where
  text : Wide
  noNul : ∀ c ∈ text, c ≠ 0
  length_lt : text.length < size

/-- What is read of `DISPLAYCONFIG_TARGET_DEVICE_NAME`. -/
structure TargetDeviceName where
  friendlyNameFromEdid : Bool
  monitorFriendlyDeviceName : TextField 64

/-- An active path: the answers to the queries for its two names. -/
structure DisplayPath where
  /-- `viewGdiDeviceName`, or an error. -/
  sourceName : Except (BitVec 32) (TextField 32)
  targetName : Except (BitVec 32) TargetDeviceName

/-- One pass of the first loop: the answer of `GetDisplayConfigBufferSizes`, if it fails, and of
`QueryDisplayConfig`. -/
structure QueryPass where
  bufferSizesError : Option (BitVec 32)
  query : Except (BitVec 32) (List DisplayPath)

/-! ### The function -/

/-- The first loop, from a pass on, with `count - 1` more to come: its outcome, and the number of
passes it has made in the end. -/
def queryPaths (passes : ℕ → QueryPass) (pass : ℕ) (more : ℕ) : Except HResult (List DisplayPath) × ℕ :=
  match (passes pass).bufferSizesError with
  | some rc => (.error (HResult.ofWin32 rc), pass + 1)
  | none =>
    match (passes pass).query with
    | .ok paths => (.ok paths, pass + 1)
    | .error rc =>
      if rc ≠ displayConfigInsufficientBuffer then (.error (HResult.ofWin32 rc), pass + 1)
      else
        match more with
        | 0 => (.error (HResult.ofWin32 rc), pass + 1)
        | more + 1 => queryPaths passes (pass + 1) more

/-- `friendly_names.try_emplace`, where `none` is `std::length_error`.  A key that is there already
keeps its value, and no new one is made. -/
def tryEmplace (names : MonitorFriendlyNameContainer) (deviceId : ℤ) (name : Wide) :
    Option MonitorFriendlyNameContainer :=
  if (lookup deviceId names).isSome then some names
  else if h : name.length ≤ 14 then some (names ++ [(deviceId, ⟨name, h⟩)])
  else none

/-- The second loop.  The exception leaves it for the handler of the function. -/
def collectNames : List DisplayPath → HResult → MonitorFriendlyNameContainer →
    HResult × MonitorFriendlyNameContainer
  | [], hr, names => (hr, names)
  | path :: paths, hr, names =>
    match path.sourceName with
    | .error rc => collectNames paths (HResult.ofWin32 rc) names
    | .ok viewGdiDeviceName =>
      match path.targetName with
      | .error rc => collectNames paths (HResult.ofWin32 rc) names
      | .ok targetName =>
        if !targetName.friendlyNameFromEdid then collectNames paths hr names
        else
          let deviceId := getMonitorDeviceId viewGdiDeviceName.text
          match tryEmplace names deviceId targetName.monitorFriendlyDeviceName.text with
          | some names => collectNames paths hr names
          | none => (HResult.invalidArg, names)

/-- How `GetMonitorFriendlyNames` ends; `passes` is not in the program and counts the passes of the
first loop. -/
structure FriendlyNames where
  hresult : HResult
  names : MonitorFriendlyNameContainer
  passes : ℕ

/-- `GetMonitorFriendlyNames` -/
def getMonitorFriendlyNames (passes : ℕ → QueryPass) (names : MonitorFriendlyNameContainer) :
    FriendlyNames :=
  match queryPaths passes 0 (kDisplayConfigMaxRetries - 1) with
  | (.error hr, made) => ⟨hr, names, made⟩
  | (.ok paths, made) =>
    let (hr, names) := collectNames paths HResult.ok names
    ⟨hr, names, made⟩

/-! ### Names of paths -/

namespace DisplayPath

/-- The display number and the EDID name of a path whose queries succeed. -/
def edidName (path : DisplayPath) : Option (ℤ × Wide) :=
  match path.sourceName, path.targetName with
  | .ok viewGdiDeviceName, .ok targetName =>
    if targetName.friendlyNameFromEdid then
      some (getMonitorDeviceId viewGdiDeviceName.text, targetName.monitorFriendlyDeviceName.text)
    else none
  | _, _ => none

/-- The entry of a path with a name that is short enough. -/
def entry (path : DisplayPath) : Option (ℤ × MonitorFriendlyName) :=
  match path.edidName with
  | some (deviceId, name) => if h : name.length ≤ 14 then some (deviceId, ⟨name, h⟩) else none
  | none => none

end DisplayPath

/-- The entries that paths should have, in order. -/
def entries (paths : List DisplayPath) : List (ℤ × MonitorFriendlyName) :=
  paths.filterMap DisplayPath.entry

/-- **Collecting independently**: the first loop ends in time, and after it every path that has an
entry finds the name of the first one with its display number. -/
structure Independent (passes : ℕ → QueryPass) (names : MonitorFriendlyNameContainer) : Prop where
  passes_le : (getMonitorFriendlyNames passes names).passes ≤ kDisplayConfigMaxRetries
  found : ∀ paths, (queryPaths passes 0 (kDisplayConfigMaxRetries - 1)).1 = .ok paths →
    ∀ entry ∈ entries paths, lookup entry.1 (getMonitorFriendlyNames passes names).names =
      lookup entry.1 (names ++ entries paths)

/-- No path with a name that is too long, and without an entry for its display number yet, comes
before one that would be the first with its number. -/
def NothingBehind (names : MonitorFriendlyNameContainer) (paths : List DisplayPath) : Prop :=
  ∀ before path rest, paths = before ++ path :: rest →
    ∀ deviceId name, path.edidName = some (deviceId, name) → 14 < name.length →
      (lookup deviceId (names ++ entries before)).isSome = false →
        ∀ entry ∈ entries rest, (lookup entry.1 (names ++ entries before)).isSome = true

/-! ### The first loop -/

/-- The first loop makes no more passes than it may. -/
theorem queryPaths_passes_le (passes : ℕ → QueryPass) (pass more : ℕ) :
    (queryPaths passes pass more).2 ≤ pass + more + 1 := by
  induction more generalizing pass with
  | zero =>
    unfold queryPaths
    split
    · exact le_rfl
    · split
      · exact le_rfl
      · split_ifs <;> exact le_rfl
  | succ more ih =>
    unfold queryPaths
    split
    · simp
    · split
      · simp
      · split_ifs
        · simp
        · exact (ih (pass + 1)).trans (by omega)

/-! ### The second loop -/

section Collecting

variable {path : DisplayPath} {paths : List DisplayPath} {hr : HResult}
variable {names names' : MonitorFriendlyNameContainer} {deviceId : ℤ} {name : Wide}

/-- A path without a name is skipped. -/
theorem collectNames_of_none (h : path.edidName = none) : ∃ hr',
    collectNames (path :: paths) hr names = collectNames paths hr' names := by
  unfold DisplayPath.edidName at h
  rw [collectNames]
  cases hsource : path.sourceName with
  | error rc => exact ⟨_, rfl⟩
  | ok viewGdiDeviceName =>
    cases htarget : path.targetName with
    | error rc => exact ⟨_, rfl⟩
    | ok targetName =>
      simp only [hsource, htarget] at h ⊢
      cases hedid : targetName.friendlyNameFromEdid with
      | false => exact ⟨hr, rfl⟩
      | true =>
        rw [hedid, if_pos rfl] at h
        cases h

/-- A path with a name goes to `try_emplace`. -/
theorem collectNames_of_some (h : path.edidName = some (deviceId, name)) :
    collectNames (path :: paths) hr names =
      match tryEmplace names deviceId name with
      | some names => collectNames paths hr names
      | none => (HResult.invalidArg, names) := by
  unfold DisplayPath.edidName at h
  rw [collectNames]
  cases hsource : path.sourceName with
  | error rc => simp [hsource] at h
  | ok viewGdiDeviceName =>
    cases htarget : path.targetName with
    | error rc => simp [hsource, htarget] at h
    | ok targetName =>
      simp only [hsource, htarget] at h ⊢
      split_ifs at h with hedid
      cases h
      rw [hedid]
      rfl

/-- What `try_emplace` adds is found, and what was there before. -/
theorem lookup_tryEmplace (names : MonitorFriendlyNameContainer) (deviceId : ℤ)
    (h : name.length ≤ 14) : ∃ names', tryEmplace names deviceId name = some names' ∧
      ∀ k, lookup k names' = lookup k (names ++ [(deviceId, ⟨name, h⟩)]) := by
  unfold tryEmplace
  by_cases hthere : (lookup deviceId names).isSome
  · rw [if_pos hthere]
    refine ⟨names, rfl, fun k => ?_⟩
    rw [lookup_append_eq_or]
    by_cases hk : deviceId = k
    · rw [← hk, Option.or_of_isSome hthere]
    · simp [lookup, hk]
  · rw [if_neg hthere, dif_pos h]
    exact ⟨_, rfl, fun _ => rfl⟩

theorem tryEmplace_of_isSome (h : (lookup deviceId names).isSome = true) :
    tryEmplace names deviceId name = some names := if_pos h

theorem tryEmplace_eq_none (h : (lookup deviceId names).isSome = false) (hlong : 14 < name.length) :
    tryEmplace names deviceId name = none := by
  unfold tryEmplace
  rw [if_neg (by simp [h]), dif_neg (not_le.2 hlong)]

/-- **One path** gives its entry, if it has one and is the first with its number, or its name is too
long and ends the loop. -/
theorem collectNames_cons_cases (path : DisplayPath) (paths : List DisplayPath) (hr : HResult)
    (names : MonitorFriendlyNameContainer) :
    (∃ hr' names', collectNames (path :: paths) hr names = collectNames paths hr' names' ∧
        (∀ k, lookup k names' = lookup k (names ++ path.entry.toList)) ∧
        ∀ deviceId name, path.edidName = some (deviceId, name) → 14 < name.length →
          (lookup deviceId names).isSome = true) ∨
      (collectNames (path :: paths) hr names = (HResult.invalidArg, names) ∧ path.entry = none ∧
        ∃ deviceId name, path.edidName = some (deviceId, name) ∧ 14 < name.length ∧
          (lookup deviceId names).isSome = false) := by
  cases hname : path.edidName with
  | none =>
    obtain ⟨hr', heq⟩ : ∃ hr', collectNames (path :: paths) hr names =
        collectNames paths hr' names := collectNames_of_none hname
    have hentry : path.entry = none := by rw [DisplayPath.entry, hname]
    refine Or.inl ⟨hr', names, heq, fun k => ?_, fun _ _ hsome => by cases hsome⟩
    rw [hentry, Option.toList_none, List.append_nil]
  | some named =>
    obtain ⟨deviceId, name⟩ := named
    rw [collectNames_of_some hname]
    by_cases hshort : name.length ≤ 14
    · obtain ⟨names', hemplaced, hlookup⟩ := lookup_tryEmplace names deviceId hshort
      have hentry : path.entry = some (deviceId, ⟨name, hshort⟩) := by
        simp only [DisplayPath.entry, hname, dif_pos hshort]
      rw [hemplaced, hentry, Option.toList_some]
      refine Or.inl ⟨hr, names', rfl, hlookup, fun deviceId' name' hsome hlong => ?_⟩
      cases hsome
      omega
    · have hentry : path.entry = none := by
        simp only [DisplayPath.entry, hname, dif_neg hshort]
      by_cases hthere : (lookup deviceId names).isSome = true
      · rw [tryEmplace_of_isSome hthere, hentry, Option.toList_none, List.append_nil]
        refine Or.inl ⟨hr, names, rfl, fun _ => rfl, fun deviceId' name' hsome _ => ?_⟩
        cases hsome
        exact hthere
      · have hnew := Bool.eq_false_iff.2 hthere
        rw [tryEmplace_eq_none hnew (not_le.1 hshort)]
        exact Or.inr ⟨rfl, hentry, deviceId, name, rfl, not_le.1 hshort, hnew⟩

/-- **An entry is not changed any more.** -/
theorem lookup_collectNames {k : ℤ} (h : (lookup k names).isSome = true) :
    lookup k (collectNames paths hr names).2 = lookup k names := by
  induction paths generalizing hr names with
  | nil => rfl
  | cons path paths ih =>
    rcases collectNames_cons_cases path paths hr names with ⟨hr', names', heq, hlookup, -⟩ | ⟨heq, -⟩
    · have hk : lookup k names' = lookup k names := by rw [hlookup, lookup_append h]
      rw [heq]
      exact (ih (by rw [hk]; exact h)).trans hk
    · rw [heq]

theorem entries_cons (path : DisplayPath) (paths : List DisplayPath) :
    entries (path :: paths) = path.entry.toList ++ entries paths := by
  unfold entries
  rw [List.filterMap_cons]
  cases path.entry <;> rfl

theorem entries_append (before rest : List DisplayPath) :
    entries (before ++ rest) = entries before ++ entries rest := List.filterMap_append

theorem isSome_lookup_of_mem {entry : ℤ × MonitorFriendlyName} (h : entry ∈ names) :
    (lookup entry.1 names).isSome = true := by
  rw [← Option.ne_none_iff_isSome, Ne, lookup_eq_none_iff, not_not]
  exact List.mem_map_of_mem h

/-- The condition, for the first path and for the others. -/
theorem nothingBehind_cons : NothingBehind names (path :: paths) ↔
    (∀ deviceId name, path.edidName = some (deviceId, name) → 14 < name.length →
      (lookup deviceId names).isSome = false →
        ∀ entry ∈ entries paths, (lookup entry.1 names).isSome = true) ∧
      NothingBehind (names ++ path.entry.toList) paths := by
  constructor
  · intro h
    refine ⟨fun deviceId name hname hlong hnew => ?_, fun before path' rest heq => ?_⟩
    · have hfirst := h [] path paths rfl deviceId name hname hlong
      simp only [entries, List.filterMap_nil, List.append_nil] at hfirst
      exact hfirst hnew
    · have hlater := h (path :: before) path' rest (by rw [heq, List.cons_append])
      rw [entries_cons, ← List.append_assoc] at hlater
      exact hlater
  · rintro ⟨hfirst, hlater⟩ before path' rest heq
    cases before with
    | nil =>
      cases heq
      simpa only [entries, List.filterMap_nil, List.append_nil] using hfirst
    | cons path'' before =>
      cases heq
      rw [entries_cons, ← List.append_assoc]
      exact hlater before path' rest rfl

/-- Only the keys matter. -/
theorem NothingBehind.congr (hkeys : ∀ k, lookup k names = lookup k names')
    (h : NothingBehind names paths) : NothingBehind names' paths := by
  intro before path rest heq deviceId name hname hlong hnew entry hentry
  have hboth : ∀ k, lookup k (names ++ entries before) = lookup k (names' ++ entries before) := by
    intro k
    rw [lookup_append_eq_or, lookup_append_eq_or, hkeys]
  rw [← hboth] at hnew ⊢
  exact h before path rest heq deviceId name hname hlong hnew entry hentry

theorem nothingBehind_congr (hkeys : ∀ k, lookup k names = lookup k names') :
    NothingBehind names paths ↔ NothingBehind names' paths :=
  ⟨.congr hkeys, .congr fun k => (hkeys k).symm⟩

/-- Nothing is lost when all entries are there already. -/
theorem nothingBehind_of_isSome (h : ∀ entry ∈ entries paths, (lookup entry.1 names).isSome = true) :
    NothingBehind names paths := by
  rintro before path rest rfl deviceId name hname hlong hnew entry hentry
  have hmem : entry ∈ entries (before ++ path :: rest) := by
    rw [entries_append, entries_cons]
    exact List.mem_append_right _ (List.mem_append_right _ hentry)
  rw [lookup_append (h entry hmem)]
  exact h entry hmem

/-- **What the second loop finds**, by induction on the paths. -/
theorem collectNames_found_iff (paths : List DisplayPath) (hr : HResult)
    (names : MonitorFriendlyNameContainer) :
    (∀ entry ∈ entries paths, lookup entry.1 (collectNames paths hr names).2 =
      lookup entry.1 (names ++ entries paths)) ↔ NothingBehind names paths := by
  induction paths generalizing hr names with
  | nil =>
    refine iff_of_true (fun entry hentry => by cases hentry) fun before path rest heq => ?_
    exact absurd heq (List.append_ne_nil_of_right_ne_nil _ (List.cons_ne_nil _ _)).symm
  | cons path paths ih =>
    rw [nothingBehind_cons, entries_cons]
    rcases collectNames_cons_cases path paths hr names with
      ⟨hr', names', heq, hlookup, hthere⟩ | ⟨heq, hentry, deviceId, name, hname, hlong, hnew⟩
    · have hfirst : ∀ deviceId name, path.edidName = some (deviceId, name) → 14 < name.length →
          (lookup deviceId names).isSome = false →
            ∀ entry ∈ entries paths, (lookup entry.1 names).isSome = true := by
        intro deviceId name hname hlong hnew
        rw [hthere deviceId name hname hlong] at hnew
        cases hnew
      have hall : ∀ k, lookup k (names ++ (path.entry.toList ++ entries paths)) =
          lookup k (names' ++ entries paths) := by
        intro k
        rw [← List.append_assoc, lookup_append_eq_or, ← hlookup, ← lookup_append_eq_or]
      rw [and_iff_right hfirst, ← nothingBehind_congr hlookup, ← ih hr' names', heq]
      simp only [hall]
      constructor
      · exact fun h entry hmem => h entry (List.mem_append_right _ hmem)
      · intro h entry hmem
        rcases List.mem_append.1 hmem with hown | hlater
        · -- the entry of the path itself is in the map from here on
          have hsome : (lookup entry.1 names').isSome = true := by
            rw [hlookup]
            exact isSome_lookup_of_mem (List.mem_append_right _ hown)
          rw [lookup_collectNames hsome, lookup_append hsome]
        · exact h entry hlater
    · -- the exception: nothing more is added
      have hsame : (∀ entry ∈ entries paths,
            lookup entry.1 names = lookup entry.1 (names ++ entries paths)) ↔
          ∀ entry ∈ entries paths, (lookup entry.1 names).isSome = true := by
        refine forall₂_congr fun entry hmem => ⟨fun h => ?_, fun h => (lookup_append h _).symm⟩
        rw [h]
        exact isSome_lookup_of_mem (List.mem_append_right _ hmem)
      rw [heq, hentry, Option.toList_none, List.nil_append, List.append_nil, hsame]
      constructor
      · exact fun h => ⟨fun _ _ _ _ _ => h, nothingBehind_of_isSome h⟩
      · exact fun h => h.1 deviceId name hname hlong hnew

end Collecting

/-- **When the names are collected independently**: exactly when nothing is behind a name that is
too long. -/
theorem getMonitorFriendlyNames_independent_iff (passes : ℕ → QueryPass)
    (names : MonitorFriendlyNameContainer) : Independent passes names ↔
      ∀ paths, (queryPaths passes 0 (kDisplayConfigMaxRetries - 1)).1 = .ok paths →
        NothingBehind names paths := by
  have hpasses : (getMonitorFriendlyNames passes names).passes =
      (queryPaths passes 0 (kDisplayConfigMaxRetries - 1)).2 := by
    unfold getMonitorFriendlyNames
    split <;> simp [*]
  have hnames : ∀ paths, (queryPaths passes 0 (kDisplayConfigMaxRetries - 1)).1 = .ok paths →
      (getMonitorFriendlyNames passes names).names = (collectNames paths HResult.ok names).2 := by
    intro paths hpaths
    unfold getMonitorFriendlyNames
    split <;> simp_all
  constructor
  · intro h paths hpaths
    rw [← collectNames_found_iff paths HResult.ok names, ← hnames paths hpaths]
    exact h.found paths hpaths
  · intro h
    refine ⟨?_, fun paths hpaths => ?_⟩
    · rw [hpasses]
      exact queryPaths_passes_le passes 0 _
    · rw [hnames paths hpaths]
      exact (collectNames_found_iff paths HResult.ok names).2 (h paths hpaths)

theorem noNul_of_all {text : Wide} (h : text.all (· != 0) = true) : ∀ c ∈ text, c ≠ 0 := by
  simpa using h

/-- An active path with an EDID name. -/
def namedPath (device : TextField 32) (monitor : TextField 64) : DisplayPath :=
  { sourceName := .ok device, targetName := .ok ⟨true, monitor⟩ }

/-- Two monitors, the first of which calls itself by 20 units. -/
def longNameFirst : List DisplayPath :=
  [namedPath ⟨wide "\\\\.\\DISPLAY1", noNul_of_all (by decide), by decide⟩
      ⟨wide "A monitor from afar.", noNul_of_all (by decide), by decide⟩,
    namedPath ⟨wide "\\\\.\\DISPLAY2", noNul_of_all (by decide), by decide⟩
      ⟨wide "LCD", noNul_of_all (by decide), by decide⟩]

/-- The second one gets no name. -/
theorem longNameFirst_notIndependent :
    (getMonitorFriendlyNames (fun _ => ⟨none, .ok longNameFirst⟩) []).names = [] ∧
      ¬ Independent (fun _ => ⟨none, .ok longNameFirst⟩) [] := by
  have hnames : (getMonitorFriendlyNames (fun _ => ⟨none, .ok longNameFirst⟩) []).names = [] := by
    decide
  refine ⟨hnames, fun h => ?_⟩
  have hentry : (2, ⟨wide "LCD", by decide⟩) ∈ entries longNameFirst := by decide
  have hfound := h.found longNameFirst rfl _ hentry
  rw [hnames] at hfound
  exact absurd hfound (by decide)

end RoxyGlance.Win32
