import RoxyGlance.Engine.RuleEngine

/-!
# Which events the engine survives

The getters of a window state throw when the system does not answer, and everything above them is
`noexcept`.  This module says exactly which answers are needed while an event is handled: those to
the queries for a property that is not cached and that the next predicate looks at, and those for
the shadow margin when a relative placement is computed.

* `returnsNormally_checkRules`: `checkRules` returns exactly when all needed answers are there;
* `onWindowEvent_returns_iff`: the same for the two listeners of the engine.
-/

namespace RoxyGlance.Engine

open Settings (Trigger)

/-! ### Answered queries -/

variable {F : Type}

/-- `GetProcessInfoFromHWND` succeeds: the process of the window, and of its `CoreWindow` for a
hosted one, can be queried. -/
def ProcessAnswered (q : Window.Queries F) : Prop :=
  (Window.getProcessInfoFromHWND q).1.failed = false

/-- What a predicate on a property needs: the property is cached, or its queries succeed. -/
def Field.Answered (field : Field) (q : Window.Queries F) (w : Window.State F) : Prop :=
  match field with
  | .processImageName => w.processImageName.isSome ∨ ProcessAnswered q
  | .windowClass => w.windowClass.isSome ∨ ∃ name, q.className = .ok name
  | .windowTitle => w.windowTitle.isSome ∨ (q.titleLength.1 = 0 ∧ q.titleLength.2 = 0#32) ∨
      (q.titleLength.1 ≠ 0 ∧ q.title ≠ [])

/-- What a placement needs: if it is still to be computed and its monitor is known, the shadow
margin is cached or the two rectangles of the window can be queried. -/
def Operation.Answered (monitors : Monitor.StateCache F) (q : Window.Queries F) (op : Operation F)
    (w : Window.State F) : Prop :=
  match op with
  | .absolute _ => True
  | .relative _ _ (some _) => True
  | .relative hmonitor _ none =>
    (monitors.get hmonitor).isSome →
      w.shadowMargin.isSome ∨ (Window.getWindowShadowMargin q).1.failed = false

/-- The value of a property, and the window state after it has been read. -/
def Field.read (field : Field) (q : Window.Queries F) (w : Window.State F) :
    Wide × Window.State F :=
  match field.get q w with
  | .ok r => r
  | .error _ => ([], w)

theorem returnsNormally_checkHResult (hr : HResult) :
    ReturnsNormally (Window.checkHResult hr) ↔ hr.failed = false := by
  unfold Window.checkHResult
  cases hr.failed <;> simp

theorem returnsNormally_get (field : Field) (q : Window.Queries F) (w : Window.State F) :
    ReturnsNormally (field.get q w) ↔ field.Answered q w := by
  cases field with
  | processImageName =>
    unfold Field.get Field.Answered Window.State.getProcessImageName ProcessAnswered
    cases w.processImageName with
    | some filepath => simp
    | none =>
      simp only [Option.isSome_none, Bool.false_eq_true, false_or]
      exact (returnsNormally_bind_of fun _ => ⟨_, rfl⟩).trans (returnsNormally_checkHResult _)
  | windowClass =>
    unfold Field.get Field.Answered Window.State.getWindowClass
    cases w.windowClass with
    | some name => simp
    | none => cases hname : q.className <;> simp
  | windowTitle =>
    unfold Field.get Field.Answered Window.State.getWindowTitle
    cases w.windowTitle with
    | some title => simp
    | none =>
      obtain ⟨len, err⟩ := q.titleLength
      by_cases hlen : len = 0
      · by_cases herr : err = 0#32 <;> simp [hlen, herr]
      · by_cases htitle : q.title = [] <;> simp [hlen, htitle]

/-! ### Answered conditions -/

/-- Do the predicates hold, and in which session does that leave us? -/
def conditionHolds (world : Window.World F) : List Predicate → Session F → Bool × Session F
  | [], s => (true, s)
  | p :: ps, s =>
    let (text, w) := p.field.read (world s.clock) s.window
    let s' : Session F := { window := w, clock := s.clock + 1 }
    if Predicate.test p.type p.data text then conditionHolds world ps s' else (false, s')

/-- Every predicate that is reached is answered; one is reached when those before it hold. -/
def ConditionAnswered (world : Window.World F) : List Predicate → Session F → Prop
  | [], _ => True
  | p :: ps, s =>
    p.field.Answered (world s.clock) s.window ∧
      let (text, w) := p.field.read (world s.clock) s.window
      Predicate.test p.type p.data text = true →
        ConditionAnswered world ps { window := w, clock := s.clock + 1 }

theorem get_eq_read {field : Field} {q : Window.Queries F} {w : Window.State F}
    (h : field.Answered q w) : field.get q w = .ok (field.read q w) := by
  obtain ⟨r, hr⟩ := (returnsNormally_get field q w).2 h
  simp only [Field.read, hr]

/-- Answered predicates are evaluated as `conditionHolds` says. -/
theorem checkCondition_eq (world : Window.World F) {ps : List Predicate} {s : Session F}
    (h : ConditionAnswered world ps s) :
    checkCondition world ps s = .ok (conditionHolds world ps s) := by
  induction ps generalizing s with
  | nil => rfl
  | cons p ps ih =>
    obtain ⟨hread, hrest⟩ := h
    simp only [checkCondition, Predicate.evaluate, get_eq_read hread, conditionHolds]
    show (if _ then _ else _) = _
    by_cases htest : Predicate.test p.type p.data (p.field.read (world s.clock) s.window).1 = true
    · rw [if_pos htest, if_pos htest]
      exact ih (hrest htest)
    · rw [if_neg htest, if_neg htest]

theorem conditionAnswered_of_returns (world : Window.World F) {ps : List Predicate}
    {s : Session F} (h : ReturnsNormally (checkCondition world ps s)) :
    ConditionAnswered world ps s := by
  induction ps generalizing s with
  | nil => trivial
  | cons p ps ih =>
    simp only [checkCondition] at h
    obtain ⟨r, hr, hrest⟩ := returnsNormally_bind.1 h
    obtain ⟨t, ht, hrt⟩ := bind_eq_ok.1 hr
    cases hrt
    have hanswered : p.field.Answered (world s.clock) s.window :=
      (returnsNormally_get _ _ _).1 ⟨t, ht⟩
    have hread : p.field.read (world s.clock) s.window = t := by simp only [Field.read, ht]
    refine ⟨hanswered, ?_⟩
    simp only [hread]
    intro htest
    simp only [htest, if_true] at hrest
    exact ih hrest

/-! ### Answered rules -/

variable [FloatLike F]

/-- The window state after a placement. -/
def Operation.after (monitors : Monitor.StateCache F) (q : Window.Queries F) (op : Operation F)
    (w : Window.State F) : Window.State F :=
  match op.execute monitors q w with
  | .ok done => done.window
  | .error _ => w

theorem returnsNormally_execute (monitors : Monitor.StateCache F) (q : Window.Queries F)
    (op : Operation F) (w : Window.State F) :
    ReturnsNormally (op.execute monitors q w) ↔ op.Answered monitors q w := by
  cases op with
  | absolute bounds => simp [Operation.execute, Operation.Answered]
  | relative hmonitor relativeBounds bounds =>
    cases bounds with
    | some bounds => simp [Operation.execute, Operation.Answered]
    | none =>
      cases hstate : monitors.get hmonitor with
      | none => simp [Operation.execute, Operation.Answered, hstate]
      | some state =>
        simp only [Operation.execute, Operation.Answered, hstate, Option.isSome_some, true_implies]
        refine (returnsNormally_bind_of fun _ => ⟨_, rfl⟩).trans ?_
        unfold Window.State.getShadowMargin
        cases w.shadowMargin with
        | some margin => simp
        | none =>
          simp only [Option.isSome_none, Bool.false_eq_true, false_or]
          exact (returnsNormally_bind_of fun _ => ⟨_, rfl⟩).trans (returnsNormally_checkHResult _)

/-- Every rule with the trigger is answered: its predicates, and its operation if they hold. -/
def RulesAnswered (world : Window.World F) (monitors : Monitor.StateCache F) (trigger : Trigger) :
    List (Rule F) → Session F → Prop
  | [], _ => True
  | rule :: rules, s =>
    if !rule.trigger.test trigger then RulesAnswered world monitors trigger rules s
    else
      let (matched, s') := conditionHolds world rule.condition.toList s
      ConditionAnswered world rule.condition.toList s ∧
        if matched then
          rule.operation.Answered monitors (world s'.clock) s'.window ∧
            RulesAnswered world monitors trigger rules
              { window := rule.operation.after monitors (world s'.clock) s'.window
                clock := s'.clock + 1 }
        else RulesAnswered world monitors trigger rules s'

/-- **`checkRules` returns exactly when every query it depends on is answered.** -/
theorem returnsNormally_checkRules (world : Window.World F) (monitors : Monitor.StateCache F)
    (trigger : Trigger) (rules : List (Rule F)) (position : ℕ) (s : Session F) :
    ReturnsNormally (checkRulesFrom world monitors trigger position rules s) ↔
      RulesAnswered world monitors trigger rules s := by
  induction rules generalizing position s with
  | nil => simp [checkRulesFrom, RulesAnswered]
  | cons rule rules ih =>
    unfold checkRulesFrom RulesAnswered
    by_cases htrigger : rule.trigger.test trigger = true
    · simp only [htrigger, Bool.not_true, Bool.false_eq_true, if_false]
      by_cases hcondition : ConditionAnswered world rule.condition.toList s
      · rw [checkCondition_eq world hcondition]
        obtain ⟨matched, s'⟩ := conditionHolds world rule.condition.toList s
        show ReturnsNormally (if matched then _ else _) ↔ _
        cases matched with
        | true =>
          simp only [hcondition, true_and, if_true]
          refine (returnsNormally_bind_iff fun done hdone => ?_).trans
            (and_congr_left fun _ => returnsNormally_execute _ _ _ _)
          refine (returnsNormally_bind_of fun _ => ⟨_, rfl⟩).trans ?_
          rw [ih]
          simp only [Operation.after, hdone]
        | false =>
          simp only [hcondition, true_and, Bool.false_eq_true, if_false]
          exact (returnsNormally_bind_of fun _ => ⟨_, rfl⟩).trans (ih _ _)
      · refine ⟨fun h => ?_, fun h => absurd h.1 hcondition⟩
        obtain ⟨r, hr, -⟩ := returnsNormally_bind.1 h
        exact absurd (conditionAnswered_of_returns world ⟨r, hr⟩) hcondition
    · simp only [htrigger, Bool.not_false, if_true]
      exact (returnsNormally_bind_of fun _ => ⟨_, rfl⟩).trans (ih _ _)

/-- **A window event is handled to the end exactly when every query it depends on is answered.** -/
theorem onWindowEvent_returns_iff (world : Window.World F) (monitors : Monitor.StateCache F)
    (log : List Settings.Warning) (ruleSet : List (Rule F)) (s : Session F) :
    (ReturnsNormally (RuleEngine.onForegroundEvent world ⟨some monitors, log, ruleSet⟩ s) ↔
      RulesAnswered world monitors .windowFocus ruleSet s) ∧
    (ReturnsNormally (RuleEngine.onShowEvent world ⟨some monitors, log, ruleSet⟩ s) ↔
      RulesAnswered world monitors .windowShow ruleSet s) :=
  ⟨(returnsNormally_bind_of fun _ => ⟨_, rfl⟩).trans
      (returnsNormally_checkRules world monitors .windowFocus ruleSet 0 s),
    (returnsNormally_bind_of fun _ => ⟨_, rfl⟩).trans
      (returnsNormally_checkRules world monitors .windowShow ruleSet 0 s)⟩

/-! ### A window that is gone -/

/-- Every query fails, as it does after the window has been destroyed
(`ERROR_INVALID_WINDOW_HANDLE`). -/
def destroyed : Window.Queries ℚ where
  threadProcessId := some 1400#32
  imageName := (HResult.ofWin32 1400#32, [])
  isApplicationHost := false
  hasCoreWindow := false
  childProcessId := .error 1400#32
  childImageName := (HResult.ofWin32 1400#32, [])
  className := .error 1400#32
  titleLength := (0, 1400#32)
  title := []
  windowRect := .error 1400#32
  extendedFrame := .error (HResult.ofWin32 1400#32)
  setWindowPos := some 1400#32

/-- One rule for focused windows whose class contains `a`. -/
def classRule : Rule ℚ where
  trigger := { windowFocus := true }
  operation := .absolute ⟨0, 0, 640, 400⟩
  condition := ⟨[⟨.windowClass, .contains, wide "a"⟩], by decide⟩

/-- The exception for a window that is gone leaves `onForegroundEvent`. -/
theorem onForegroundEvent_destroyed :
    RuleEngine.onForegroundEvent (fun _ => destroyed) ⟨some [], [], [classRule]⟩ ⟨{}, 0⟩ =
      .error (.hresultError (HResult.ofWin32 1400#32)) := rfl

end RoxyGlance.Engine
