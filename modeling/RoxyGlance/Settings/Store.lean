import RoxyGlance.Settings.Document

/-!
# The settings store

`BasicSettingsReader` loads the document from its file and `BasicSettingsStore` writes it back.
What the system and rapidyaml do during one `load` is an `Attempt`; an exception that `load`
catches becomes its result.

* `load_of_blocked`, `load_of_empty`, `load_of_content`: how a load ends, by how far it gets.
-/

namespace RoxyGlance.Settings

/-! ### Files -/

/-- Why a string cannot be resized. -/
inductive ResizeFailure
  | badAlloc
  | lengthError
  deriving DecidableEq, Repr

/-- What the system answers during one `win32::ReadFile`.  Error codes are those of
`GetLastError`. -/
structure FileAnswers where
  /-- The error of `CreateFileW`, if it failed. -/
  opened : Option (BitVec 32)
  size : BitVec 32
  sizeError : BitVec 32
  /-- The exception of `resize_and_overwrite`, if it throws. -/
  resized : Option ResizeFailure
  read : Except (BitVec 32) Bytes

/-- `INVALID_FILE_SIZE` -/
def invalidFileSize : BitVec 32 := 0xFFFFFFFF#32

/-- `win32::ReadFile`: the result, and what is in the buffer then. -/
def readFile (file : FileAnswers) : HResult × Bytes :=
  match file.opened with
  | some err => (HResult.ofWin32 err, [])
  | none =>
    if file.size = invalidFileSize ∧ file.sizeError ≠ 0#32 then
      (HResult.ofWin32 file.sizeError, [])
    else if file.size = 0#32 then (HResult.ok, [])
    else match file.resized with
      | some .badAlloc => (HResult.outOfMemory, [])
      | some .lengthError => (HResult.invalidArg, [])
      | none => match file.read with
        | .error err => (HResult.ofWin32 err, [])
        | .ok content => (HResult.ok, content)

/-- `IsTransientReadError` -/
def isTransientReadError (hr : HResult) : Bool :=
  hr = HResult.kErrorAccessDenied || hr = HResult.kErrorSharingViolation

/-- `IsFileMissing` -/
def isFileMissing (hr : HResult) : Bool := hr = HResult.kErrorFileNotFound

/-! ### Loading -/

/-- What happens outside the program during one `load`. -/
structure Attempt where
  /-- The exception of `ResolveSettingsPath`, if it throws. -/
  path : Option Fault
  /-- Only failures are thrown. -/
  path_failed : ∀ fault ∈ path, ∀ hr, fault.toHResult = .ok hr → hr.failed = true
  file : FileAnswers
  /-- `parse_in_arena` on a content, with the memory there is. -/
  parser : Bytes → Parser
  /-- There is memory for the `UserSettings`. -/
  allocated : Bool

/-- How `load` ends: its result, the document afterwards, the document the listeners were notified
with, and the warnings. -/
structure Loaded where
  hresult : HResult
  document : UserSettingsDocument
  notified : Option UserSettingsDocument
  warnings : List Warning

namespace Attempt

/-- The content of the file, empty if it could not be read. -/
def content (a : Attempt) : Bytes := (readFile a.file).2

/-- The code with which a load gives up before it looks at the content. -/
def blocked (a : Attempt) : Option (Except Fault HResult) :=
  match a.path with
  | some fault => some fault.toHResult
  | none =>
    let hr := (readFile a.file).1
    if hr.failed && !isFileMissing hr then some (.ok hr) else none

variable {F : Type} (env : Externals F)

/-- `load` -/
def load (a : Attempt) (document : UserSettingsDocument) : Except Fault Loaded :=
  match a.path with
  | some fault => do
    let hresult ← fault.toHResult
    .ok { hresult, document, notified := none, warnings := [] }
  | none =>
    let hr := (readFile a.file).1
    if hr.failed && !isFileMissing hr then
      .ok { hresult := hr, document, notified := none, warnings := [] }
    else if a.content = [] then
      .ok { hresult := HResult.ok, document := document.reset, notified := some document.reset,
            warnings := [] }
    else
      let parsed := document.parse env (a.parser a.content) a.allocated
      match parsed.outcome with
      | .ok warnings =>
        .ok { hresult := HResult.ok, document := parsed.document,
              notified := some parsed.document, warnings }
      | .error fault => do
        let hresult ← fault.toHResult
        .ok { hresult, document := parsed.document, notified := none, warnings := [] }

/-- A load that gives up early fails. -/
theorem failed_of_blocked {a : Attempt} {hr : HResult} (h : a.blocked = some (.ok hr)) :
    hr.failed = true := by
  unfold blocked at h
  cases hpath : a.path with
  | some fault =>
    simp only [hpath, Option.some.injEq] at h
    exact a.path_failed fault hpath hr h
  | none =>
    simp only [hpath] at h
    split_ifs at h with hfailed
    cases h
    exact (Bool.and_eq_true _ _ ▸ hfailed).1

/-- The load hands a content to the parser. -/
def ReachesParser (a : Attempt) : Prop := a.blocked = none ∧ a.content ≠ []

/-- The parser stops, or there is no memory for what it has read. -/
def Interrupted (a : Attempt) (tree : Tree) : Prop :=
  (a.parser a.content tree).2 ≠ none ∨ a.allocated = false

variable {env} {a : Attempt} {document : UserSettingsDocument} {done : Loaded}

/-! ### How a load ends -/

/-- A load that gives up early leaves the document alone. -/
theorem load_of_blocked {outcome : Except Fault HResult} (h : a.blocked = some outcome) :
    a.load env document = outcome >>= fun hresult =>
      .ok { hresult, document, notified := none, warnings := [] } := by
  unfold blocked at h
  unfold load
  cases hpath : a.path with
  | some fault =>
    simp only [hpath, Option.some.injEq] at h
    rw [← h]
  | none =>
    simp only [hpath] at h ⊢
    split_ifs at h ⊢
    cases h
    rfl

/-- A missing or empty file resets the document. -/
theorem load_of_empty (h : a.blocked = none) (hcontent : a.content = []) :
    a.load env document = .ok { hresult := HResult.ok, document := document.reset,
                                notified := some document.reset, warnings := [] } := by
  unfold blocked at h
  unfold load
  cases hpath : a.path with
  | some fault => simp [hpath] at h
  | none =>
    simp only [hpath] at h ⊢
    split_ifs at h ⊢
    rfl

/-- Any other content is parsed into the document there is. -/
theorem load_of_content (h : a.ReachesParser) :
    a.load env document =
      (let parsed := document.parse env (a.parser a.content) a.allocated
      match parsed.outcome with
      | .ok warnings => .ok ⟨HResult.ok, parsed.document, some parsed.document, warnings⟩
      | .error fault => fault.toHResult >>= fun hresult =>
        .ok ⟨hresult, parsed.document, none, []⟩) := by
  obtain ⟨hblocked, hcontent⟩ := h
  unfold blocked at hblocked
  unfold load
  cases hpath : a.path with
  | some fault => simp [hpath] at hblocked
  | none =>
    simp only [hpath] at hblocked ⊢
    split_ifs at hblocked ⊢
    rfl

/-- An interrupted load fails, and keeps what the parser has done to the tree. -/
theorem load_of_interrupted (env : Externals F) (h : a.ReachesParser)
    (hi : a.Interrupted document.tree) :
    ∃ hr ∈ [HResult.fail, HResult.outOfMemory], a.load env document = .ok
      { hresult := hr, document := { document with tree := (a.parser a.content document.tree).1 },
        notified := none, warnings := [] } := by
  have hfail : HResult.fail ∈ [HResult.fail, HResult.outOfMemory] := by decide
  have hmemory : HResult.outOfMemory ∈ [HResult.fail, HResult.outOfMemory] := by decide
  rw [load_of_content h]
  unfold UserSettingsDocument.parse
  cases hparser : a.parser a.content document.tree with
  | mk tree stopped =>
    cases stopped with
    | some failure =>
      cases failure with
      | malformed => exact ⟨HResult.fail, hfail, rfl⟩
      | outOfMemory => exact ⟨HResult.outOfMemory, hmemory, rfl⟩
    | none =>
      have hallocated : a.allocated = false := by
        rcases hi with hstopped | hallocated
        · simp [hparser] at hstopped
        · exact hallocated
      simp only [hallocated]
      exact ⟨HResult.outOfMemory, hmemory, rfl⟩

/-- A load that succeeds was not stopped before it looked at the content. -/
theorem blocked_eq_none (hload : a.load env document = .ok done)
    (hok : done.hresult = HResult.ok) : a.blocked = none := by
  cases hblocked : a.blocked with
  | none => rfl
  | some outcome =>
    exfalso
    rw [load_of_blocked hblocked] at hload
    obtain ⟨hr, rfl, hdone⟩ := bind_eq_ok.1 hload
    cases hdone
    have hfailed := failed_of_blocked hblocked
    rw [show hr = HResult.ok from hok] at hfailed
    exact absurd hfailed (by decide)

theorem failed_of_mem {hr : HResult} (h : hr ∈ [HResult.fail, HResult.outOfMemory]) :
    hr.failed = true ∧ isTransientReadError hr = false := by
  simp only [List.mem_cons, List.not_mem_nil, or_false] at h
  rcases h with rfl | rfl
  · exact ⟨by decide, by decide⟩
  · exact ⟨by decide, by decide⟩

/-- A load that succeeds was not interrupted. -/
theorem not_interrupted (h : a.ReachesParser) (hload : a.load env document = .ok done)
    (hok : done.hresult = HResult.ok) : ¬ a.Interrupted document.tree := by
  intro hi
  obtain ⟨hr, hmem, hload'⟩ := load_of_interrupted env h hi
  rw [hload] at hload'
  cases hload'
  rw [show hr = HResult.ok from hok] at hmem
  exact absurd hmem (by decide)

/-- A load that is not interrupted reads the rules and succeeds, if it ends at all. -/
theorem load_of_not_interrupted (h : a.ReachesParser) (hi : ¬ a.Interrupted document.tree)
    (hload : a.load env document = .ok done) :
    ∃ rules, readRules env (a.parser a.content document.tree).1 = .ok (rules, done.warnings) ∧
      done.hresult = HResult.ok ∧
      done.document = ⟨(a.parser a.content document.tree).1, some rules⟩ ∧
      done.notified = some done.document := by
  simp only [Interrupted, ne_eq, not_or, not_not, Bool.not_eq_false] at hi
  rw [load_of_content h] at hload
  unfold UserSettingsDocument.parse at hload
  cases hparser : a.parser a.content document.tree with
  | mk tree stopped =>
    rw [hparser] at hi
    obtain ⟨rfl, hallocated⟩ : stopped = none ∧ a.allocated = true := hi
    simp only [hparser, hallocated] at hload ⊢
    cases hrules : readRules env tree with
    | ok read =>
      obtain ⟨rules, warnings⟩ := read
      simp only [hrules] at hload
      cases hload
      exact ⟨rules, rfl, rfl, rfl, rfl⟩
    | error fault =>
      -- reading the rules does not throw, so this is a load that never ends
      have hfault : fault = .undefined := readRules_throwsOnly env tree fault hrules
      simp only [hrules, hfault] at hload
      cases hload

end Attempt

/-! ### Saving -/

/-- `save`: a write that succeeds replaces the file, given the code `WriteFileAtomic` returns. -/
def save (emit : Tree → Bytes) (document : UserSettingsDocument) (written : HResult)
    (file : Bytes) : HResult × Bytes :=
  (written, if written.failed then file else document.str emit)

end RoxyGlance.Settings
