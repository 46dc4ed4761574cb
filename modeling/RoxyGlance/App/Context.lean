import RoxyGlance.Lib.Run
import RoxyGlance.Settings.Reload

/-!
# Starting the application and opening the editor

`AppContext::initialize` loads the settings up to three times and goes on without them when they
cannot be loaded.  The window that is opened later takes the rules from the document's root, which
only exists after a parse that succeeded.

* `loadLoop_root`: when the loop leaves a document with a root;
* `editor_opens_iff`: after an initialization that succeeded, the editor can be opened exactly if
  one of the loads found rules before any other failure.
-/

namespace RoxyGlance.App

open Settings (UserSettingsDocument Attempt Loaded Warning isTransientReadError readRules)

/-! ### Retries -/

/-- `RetryState`, without the delays. -/
structure RetryState where
  attempts : ℕ
  deriving DecidableEq, Repr

namespace RetryState

/-- `kMaxAttempts` -/
def kMaxAttempts : ℕ := 3

/-- A new state. -/
def start : RetryState := { attempts := 0 }

/-- `advanceAttempt` -/
def advanceAttempt (self : RetryState) : RetryState := { attempts := self.attempts + 1 }

/-- `forceExpire` -/
def forceExpire (_ : RetryState) : RetryState := { attempts := kMaxAttempts }

/-- `available` -/
def available (self : RetryState) : Bool := self.attempts < kMaxAttempts

/-- `expired` -/
def expired (self : RetryState) : Bool := kMaxAttempts ≤ self.attempts

end RetryState

/-! ### Initialization -/

/-- Why a call does not return. -/
inductive Stop
  | fault (fault : Fault)
  /-- `fastfail` -/
  | fastfail
  deriving DecidableEq, Repr

/-- How the loading loop ends: the last result, the state of the retries, and the document. -/
structure Looped where
  hresult : HResult
  retry : RetryState
  document : UserSettingsDocument

/-- What the parts of the application answer during `initialize`; `loads` is what happens during
each load, by the number of attempts before it. -/
structure Answers where
  operationContext : HResult
  messageWindow : HResult
  loads : ℕ → Attempt
  messageWindowStarted : HResult
  stateWatcherStarted : HResult
  messageWindowStopped : HResult

/-- How `initialize` ends: its result, the document, and the errors it has logged. -/
structure Initialized where
  hresult : HResult
  document : UserSettingsDocument
  log : List Warning

def kOperationContextInitializeFailed : Wide :=
  wide "Failed to initialize the operation context."
def kMessageWindowInitializeFailed : Wide := wide "Failed to initialize the message window."
def kMessageWindowStartFailed : Wide := wide "Failed to start the message window."
def kStateWatcherStartFailed : Wide := wide "Failed to start the window state watcher."
def kSettingsLoadFailed : Wide := wide "Failed to load the user settings."
def kMessageWindowStopAfterInitializationFailure : Wide :=
  wide "Failed to stop the message window after initialization failed."

section Initialize

variable {F : Type} (env : Externals F)

/-- The loop of `initialize`. -/
def loadLoop (loads : ℕ → Attempt) (retry : RetryState) (document : UserSettingsDocument) :
    Except Fault Looped :=
  match (loads retry.attempts).load env document with
  | .error fault => .error fault
  | .ok done =>
    if !done.hresult.failed then .ok ⟨done.hresult, retry, done.document⟩
    else if !isTransientReadError done.hresult then
      .ok ⟨done.hresult, retry.forceExpire, done.document⟩
    else if !retry.advanceAttempt.available then
      .ok ⟨done.hresult, retry.advanceAttempt, done.document⟩
    else loadLoop loads retry.advanceAttempt done.document
termination_by RetryState.kMaxAttempts - retry.attempts
decreasing_by
  rename_i havailable
  have hlt : retry.attempts + 1 < RetryState.kMaxAttempts := by
    rw [Bool.not_eq_true', Bool.not_eq_false] at havailable
    exact of_decide_eq_true havailable
  show RetryState.kMaxAttempts - (retry.attempts + 1) < RetryState.kMaxAttempts - retry.attempts
  omega

/-- What `initialize` does once the settings were loaded, or not. -/
def startParts (answers : Answers) (document : UserSettingsDocument) (log : List Warning) :
    Initialized :=
  if answers.messageWindowStarted.failed then
    ⟨answers.messageWindowStarted, document,
      log ++ [⟨kMessageWindowStartFailed, answers.messageWindowStarted⟩]⟩
  else if answers.stateWatcherStarted.failed then
    let stopped := if answers.messageWindowStopped.failed then
      [⟨kMessageWindowStopAfterInitializationFailure, answers.messageWindowStopped⟩] else []
    ⟨answers.stateWatcherStarted, document,
      log ++ [⟨kStateWatcherStartFailed, answers.stateWatcherStarted⟩] ++ stopped⟩
  else ⟨HResult.ok, document, log⟩

/-- `AppContext::initialize`, from the document of a new store. -/
def initializeContext (answers : Answers) : Except Stop Initialized :=
  if answers.operationContext.failed then
    .ok ⟨answers.operationContext, .empty,
      [⟨kOperationContextInitializeFailed, answers.operationContext⟩]⟩
  else if answers.messageWindow.failed then
    .ok ⟨answers.messageWindow, .empty,
      [⟨kMessageWindowInitializeFailed, answers.messageWindow⟩]⟩
  else
    match loadLoop env answers.loads .start .empty with
    | .error fault => .error (.fault fault)
    | .ok looped =>
      if looped.retry.expired then
        if looped.hresult = HResult.kErrorNotEnoughMemory then .error .fastfail
        else .ok (startParts answers looped.document [⟨kSettingsLoadFailed, looped.hresult⟩])
      else .ok (startParts answers looped.document [])

end Initialize

/-! ### The editor -/

/-- The running application, as far as the editor is concerned: the document, and the rules of the
page that is shown. -/
structure Running where
  document : UserSettingsDocument
  page : Option (List Settings.Rule)

/-- What can happen: a request to show the settings, and the user leaving the page. -/
inductive Event
  | showSettings
  | leavePage
  deriving DecidableEq, Repr

/-- The constructor of `RuleEditorPage` takes the rules from the root, whether there is one or
not. -/
def makeRuleEditorPage (document : UserSettingsDocument) : Except Fault (List Settings.Rule) :=
  match document.root with
  | some rules => .ok rules
  | none => .error .undefined

/-- One event; the page is not made again while it is shown. -/
def onEvent (app : Running) : Event → Except Fault Running
  | .leavePage => .ok { app with page := none }
  | .showSettings =>
    match app.page with
    | some _ => .ok app
    | none => do
      let rules ← makeRuleEditorPage app.document
      .ok { app with page := some rules }

/-- One event; after a crash nothing happens. -/
def step (s : Except Fault Running) (e : Event) : Except Fault Running :=
  s >>= fun app => onEvent app e

/-- The application after its start. -/
def opened (document : UserSettingsDocument) : Except Fault Running := .ok ⟨document, none⟩

/-! ### When there is a root -/

section Root

variable {F : Type} (env : Externals F)

/-- The load gives up early with an error that may go away. -/
def BlockedTransiently (a : Attempt) : Prop :=
  ∃ hr, a.blocked = some (.ok hr) ∧ isTransientReadError hr = true

/-- The load, into a new document, has a content that is parsed to its end. -/
def FindsRules (a : Attempt) : Prop := a.ReachesParser ∧ ¬ a.Interrupted none

/-- One of the loads from number `i` on finds rules, and those before it are only blocked for a
moment. -/
def RulesFoundFrom (loads : ℕ → Attempt) (i : ℕ) : Prop :=
  ∃ k, i ≤ k ∧ k < RetryState.kMaxAttempts ∧ FindsRules (loads k) ∧
    ∀ j, i ≤ j → j < k → BlockedTransiently (loads j)

variable {loads : ℕ → Attempt} {i : ℕ}

/-- The load that is next finds rules, or is blocked for a moment and a later one does. -/
theorem rulesFoundFrom_iff (hi : i < RetryState.kMaxAttempts) : RulesFoundFrom loads i ↔
    FindsRules (loads i) ∨ (BlockedTransiently (loads i) ∧ RulesFoundFrom loads (i + 1)) := by
  constructor
  · rintro ⟨k, hik, hk, hfinds, hbefore⟩
    rcases Nat.eq_or_lt_of_le hik with rfl | hlt
    · exact Or.inl hfinds
    · refine Or.inr ⟨hbefore i le_rfl hlt, k, hlt, hk, hfinds, fun j hj hjk => ?_⟩
      exact hbefore j (by omega) hjk
  · rintro (hfinds | ⟨hblocked, k, hik, hk, hfinds, hbefore⟩)
    · exact ⟨i, le_rfl, hi, hfinds, fun j hj hjk => absurd hjk (by omega)⟩
    · refine ⟨k, by omega, hk, hfinds, fun j hj hjk => ?_⟩
      rcases Nat.eq_or_lt_of_le hj with rfl | hlt
      · exact hblocked
      · exact hbefore j hlt hjk

/-- A load that is stopped early finds no rules. -/
theorem not_findsRules_of_blocked {a : Attempt} {outcome : Except Fault HResult}
    (h : a.blocked = some outcome) : ¬ FindsRules a := by
  rintro ⟨⟨hnone, -⟩, -⟩
  rw [h] at hnone
  cases hnone

/-- How one load into a new document ends: with a root, or without one, and then only an early
failure is transient and leaves the document as it was. -/
theorem load_empty_cases {a : Attempt} {done : Loaded} (h : a.load env .empty = .ok done) :
    (FindsRules a ∧ done.hresult = HResult.ok ∧ done.document.root.isSome = true) ∨
    (¬ FindsRules a ∧ done.document.root = none ∧
      ((done.hresult.failed = true ∧ isTransientReadError done.hresult = true) ↔
        BlockedTransiently a) ∧
      (BlockedTransiently a → done.document = .empty)) := by
  have hok : HResult.ok.failed = false := by decide
  cases hblocked : a.blocked with
  | some outcome =>
    rw [Attempt.load_of_blocked hblocked] at h
    obtain ⟨hr, rfl, hdone⟩ := bind_eq_ok.1 h
    cases hdone
    have hfailed := Attempt.failed_of_blocked hblocked
    -- nothing was read, so the document is the empty one it was loaded into
    refine Or.inr ⟨not_findsRules_of_blocked hblocked, rfl, ?_, fun _ => rfl⟩
    constructor
    · rintro ⟨-, htransient⟩
      exact ⟨hr, hblocked, htransient⟩
    · rintro ⟨hr', hblocked', htransient⟩
      rw [hblocked] at hblocked'
      cases hblocked'
      exact ⟨hfailed, htransient⟩
  | none =>
    have hnot : ¬ BlockedTransiently a := by
      rintro ⟨hr, hblocked', -⟩
      rw [hblocked] at hblocked'
      cases hblocked'
    by_cases hcontent : a.content = []
    · rw [Attempt.load_of_empty hblocked hcontent] at h
      cases h
      refine Or.inr ⟨fun hfinds => hfinds.1.2 hcontent, rfl, ?_, fun hb => absurd hb hnot⟩
      simp [hok, hnot]
    · have hreach : a.ReachesParser := ⟨hblocked, hcontent⟩
      by_cases hinterrupted : a.Interrupted UserSettingsDocument.empty.tree
      · obtain ⟨hr, hmem, h'⟩ := Attempt.load_of_interrupted env hreach hinterrupted
        rw [h] at h'
        cases h'
        refine Or.inr ⟨fun hfinds => hfinds.2 hinterrupted, rfl, ?_, fun hb => absurd hb hnot⟩
        simp [(Attempt.failed_of_mem hmem).2, hnot]
      · obtain ⟨rules, -, hresult, hdocument, -⟩ :=
          Attempt.load_of_not_interrupted hreach hinterrupted h
        refine Or.inl ⟨⟨hreach, hinterrupted⟩, hresult, ?_⟩
        rw [hdocument]
        rfl

/-- One pass: the loop ends with the document of this load, or goes on with it. -/
theorem loadLoop_cases {retry : RetryState} {document : UserSettingsDocument} {looped : Looped}
    (h : loadLoop env loads retry document = .ok looped) :
    ∃ done, (loads retry.attempts).load env document = .ok done ∧
      ((looped.document = done.document ∧ ¬ (done.hresult.failed = true ∧
          isTransientReadError done.hresult = true ∧ retry.advanceAttempt.available = true)) ∨
        (done.hresult.failed = true ∧ isTransientReadError done.hresult = true ∧
          retry.advanceAttempt.available = true ∧
          loadLoop env loads retry.advanceAttempt done.document = .ok looped)) := by
  rw [loadLoop] at h
  cases hload : (loads retry.attempts).load env document with
  | error fault =>
    simp only [hload] at h
    cases h
  | ok done =>
    simp only [hload] at h
    refine ⟨done, rfl, ?_⟩
    split_ifs at h with hok hpermanent hexpired
    · cases h
      exact Or.inl ⟨rfl, fun hall => by simp [hall.1] at hok⟩
    · cases h
      exact Or.inl ⟨rfl, fun hall => by simp [hall.2.1] at hpermanent⟩
    · cases h
      exact Or.inl ⟨rfl, fun hall => by simp [hall.2.2] at hexpired⟩
    · simp only [Bool.not_eq_true', Bool.not_eq_false] at hok hpermanent hexpired
      exact Or.inr ⟨hok, hpermanent, hexpired, h⟩

/-- **The loop leaves a document with a root** exactly if one of its loads finds rules and those
before it are only blocked for a moment. -/
theorem loadLoop_root {retry : RetryState} (hretry : retry.attempts < RetryState.kMaxAttempts)
    {looped : Looped} (h : loadLoop env loads retry .empty = .ok looped) :
    looped.document.root.isSome = true ↔ RulesFoundFrom loads retry.attempts := by
  induction hn : RetryState.kMaxAttempts - retry.attempts generalizing retry with
  | zero => omega
  | succ n ih =>
    rw [rulesFoundFrom_iff hretry]
    obtain ⟨done, hload, hcourse⟩ := loadLoop_cases env h
    rcases load_empty_cases env hload with
      ⟨hfinds, hresult, hroot⟩ | ⟨hnot, hroot, htransient, hkept⟩
    · have hok : done.hresult.failed = false := by rw [hresult]; decide
      rcases hcourse with ⟨hdocument, -⟩ | ⟨hfailed, -⟩
      · rw [hdocument]
        exact iff_of_true hroot (Or.inl hfinds)
      · rw [hok] at hfailed
        cases hfailed
    · rcases hcourse with ⟨hdocument, hends⟩ | ⟨hfailed, hretried, havailable, hrest⟩
      · -- no later load may find rules: this one was not blocked, or it was the last
        have hlast : ¬ (BlockedTransiently (loads retry.attempts) ∧
            RulesFoundFrom loads (retry.attempts + 1)) := by
          rintro ⟨hblocked, k, hk, hlt, -⟩
          obtain ⟨hfailed, hretried⟩ := htransient.2 hblocked
          have hlater : retry.attempts + 1 < RetryState.kMaxAttempts := by omega
          exact hends ⟨hfailed, hretried, decide_eq_true hlater⟩
        simp only [hdocument, hroot, hnot, hlast, or_self, Option.isSome_none, Bool.false_eq_true]
      · have hblocked : BlockedTransiently (loads retry.attempts) :=
          htransient.1 ⟨hfailed, hretried⟩
        have hlt : retry.advanceAttempt.attempts < RetryState.kMaxAttempts :=
          of_decide_eq_true havailable
        have hnext : RetryState.kMaxAttempts - retry.advanceAttempt.attempts = n := by
          show RetryState.kMaxAttempts - (retry.attempts + 1) = n
          omega
        rw [hkept hblocked] at hrest
        rw [ih hlt hrest hnext]
        simp only [hnot, hblocked, false_or, true_and]
        rfl

end Root

/-! ### Opening the editor -/

section Editor

/-- Without a root the first request to show the settings fails. -/
theorem always_of_no_root (app : Running) (hroot : app.document.root = none)
    (hpage : app.page = none) (events : List Event) :
    Run.Always step ReturnsNormally (.ok app) events ↔ .showSettings ∉ events := by
  induction events generalizing app with
  | nil => simp [Run.Always]
  | cons e events ih =>
    cases e with
    | leavePage =>
      have hstep : step (.ok app) .leavePage = .ok { app with page := none } := rfl
      simp only [Run.Always, hstep, returnsNormally_ok, true_and]
      rw [ih { app with page := none } hroot rfl]
      simp
    | showSettings =>
      have hstep : step (.ok app) .showSettings = .error .undefined := by
        show onEvent app .showSettings = .error .undefined
        simp only [onEvent, hpage, makeRuleEditorPage, hroot]
        rfl
      simp only [Run.Always, hstep, List.mem_cons, true_or, not_true_eq_false, iff_false]
      exact fun h => not_returnsNormally_error _ h.2.head

/-- With a root every request is answered. -/
theorem always_of_root {document : UserSettingsDocument} {rules : List Settings.Rule}
    (hroot : document.root = some rules) (events : List Event) :
    Run.Always step ReturnsNormally (opened document) events := by
  have hpages : Run.Always step (fun s => ∃ page, s = .ok ⟨document, page⟩) (opened document)
      events := by
    refine Run.always_of_preserved ?_ ⟨none, rfl⟩ events
    rintro _ e ⟨page, rfl⟩
    show ∃ page', onEvent ⟨document, page⟩ e = .ok ⟨document, page'⟩
    cases e with
    | leavePage => exact ⟨none, rfl⟩
    | showSettings =>
      cases page with
      | some shown => exact ⟨some shown, rfl⟩
      | none =>
        refine ⟨some rules, ?_⟩
        simp only [onEvent, makeRuleEditorPage, hroot]
        rfl
  refine hpages.mono fun s h => ?_
  obtain ⟨page, rfl⟩ := h
  exact returnsNormally_ok _

/-- What an initialization that succeeded has loaded is what its loop has. -/
theorem loadLoop_of_initialized {F : Type} (env : Externals F) {answers : Answers}
    {initialized : Initialized} (h : initializeContext env answers = .ok initialized)
    (hok : initialized.hresult.failed = false) :
    ∃ looped, loadLoop env answers.loads .start .empty = .ok looped ∧
      initialized.document = looped.document := by
  have hstart : ∀ document log, (startParts answers document log).document = document := by
    intro document log
    unfold startParts
    split_ifs <;> rfl
  unfold initializeContext at h
  split_ifs at h with hcontext hwindow
  · cases h
    rw [hcontext] at hok
    cases hok
  · cases h
    rw [hwindow] at hok
    cases hok
  · cases hloop : loadLoop env answers.loads .start .empty with
    | error fault =>
      simp only [hloop] at h
      cases h
    | ok looped =>
      simp only [hloop] at h
      refine ⟨looped, rfl, ?_⟩
      split_ifs at h
      · cases h
        exact hstart _ _
      · cases h
        exact hstart _ _

/-- **The editor can be opened** after an initialization that succeeded, whatever is requested,
exactly if one of the first three loads finds rules and those before it are only blocked for a
moment. -/
theorem editor_opens_iff {F : Type} (env : Externals F) {answers : Answers}
    {initialized : Initialized} (h : initializeContext env answers = .ok initialized)
    (hok : initialized.hresult.failed = false) (events : List Event) :
    Run.Always step ReturnsNormally (opened initialized.document) events ↔
      (.showSettings ∈ events → RulesFoundFrom answers.loads 0) := by
  obtain ⟨looped, hloop, hdocument⟩ := loadLoop_of_initialized env h hok
  have hfound := loadLoop_root env (by decide) hloop
  rw [hdocument, show (0 : ℕ) = RetryState.start.attempts from rfl, ← hfound]
  cases hroot : looped.document.root with
  | none =>
    simp only [Option.isSome_none, Bool.false_eq_true, imp_false]
    exact always_of_no_root ⟨looped.document, none⟩ hroot rfl events
  | some rules =>
    simp only [Option.isSome_some, implies_true, iff_true]
    exact always_of_root hroot events

/-- Everything starts, and each load finds a file with the given content. -/
def Answers.plain (content : Bytes) (parser : Bytes → Settings.Parser) : Answers where
  operationContext := HResult.ok
  messageWindow := HResult.ok
  loads := fun _ => .reading content parser
  messageWindowStarted := HResult.ok
  stateWatcherStarted := HResult.ok
  messageWindowStopped := HResult.ok

/-- A file without rules, and the editor opened twice. -/
theorem editor_opens_noRules : ∃ initialized,
    initializeContext asciiExternals (.plain (ascii "rules: []") fun _ tree =>
      (Settings.appendEntries [(Settings.Key.kRules, .seq [])] tree, none)) = .ok initialized ∧
    Run.Always step ReturnsNormally (opened initialized.document)
      [.showSettings, .leavePage, .showSettings] := by
  have hinit : ∃ initialized, initializeContext asciiExternals
      (.plain (ascii "rules: []") fun _ tree =>
        (Settings.appendEntries [(Settings.Key.kRules, .seq [])] tree, none)) = .ok initialized ∧
      initialized.hresult.failed = false := by
    unfold initializeContext
    rw [loadLoop]
    exact ⟨_, rfl, by decide⟩
  obtain ⟨initialized, h, hok⟩ := hinit
  refine ⟨initialized, h, (editor_opens_iff asciiExternals h hok _).2 fun _ => ?_⟩
  refine ⟨0, le_rfl, by decide, ⟨⟨by decide, by decide⟩, ?_⟩, fun j _ hj => absurd hj (by omega)⟩
  rintro (hstopped | hallocated)
  · exact hstopped rfl
  · cases hallocated

/-- An empty file: the application starts, and the first request for the editor finds no root. -/
theorem editor_crashes_noFile : ∃ initialized,
    initializeContext asciiExternals (.plain [] fun _ tree => (tree, none)) = .ok initialized ∧
    initialized.hresult = HResult.ok ∧
    ¬ Run.Always step ReturnsNormally (opened initialized.document) [.showSettings] := by
  have hinit : ∃ initialized, initializeContext asciiExternals
      (.plain [] fun _ tree => (tree, none)) = .ok initialized ∧
      initialized.hresult = HResult.ok ∧ initialized.document.root = none := by
    unfold initializeContext
    rw [loadLoop]
    exact ⟨_, rfl, by decide, rfl⟩
  obtain ⟨initialized, h, hok, hroot⟩ := hinit
  refine ⟨initialized, h, hok, fun halways => ?_⟩
  have hnot := (always_of_no_root ⟨initialized.document, none⟩ hroot rfl _).1 halways
  exact hnot (List.mem_singleton.2 rfl)

end Editor

end RoxyGlance.App
