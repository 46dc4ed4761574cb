import RoxyGlance.Engine.DocumentedPattern
import RoxyGlance.Engine.EventHandling
import RoxyGlance.Lib.Positions

/-!
# Which rules fire

The rules of a document are compiled and then checked against windows; this module compares the
rules that are executed with those the documentation says.

* `checkRules_executed`: for a window with a given path, class and title, the rules executed are
  those with the trigger whose predicates all hold;
* `checkRules_documented_iff`: these are the documented ones, for every window, exactly when no
  rule asks for an empty image path and no pattern is longer than an `int` can count.
-/

namespace RoxyGlance.Engine

open Compiler (CompilationContext CompiledForm compileRules compiledForm operationOf predicatesOf
  predicateOf)
open Settings (Trigger Filter StringAndMatchType readRules)

/-! ### Windows with known properties -/

section Displays

variable {F : Type}

/-- The properties of a window. -/
structure Shown where
  processImageName : Wide
  windowClass : Wide
  windowTitle : Wide

/-- The property a predicate looks at. -/
def Shown.value (shown : Shown) : Field → Wide
  | .processImageName => shown.processImageName
  | .windowClass => shown.windowClass
  | .windowTitle => shown.windowTitle

/-- The window has the given properties: each is cached, or the system answers with it at every
moment, and the shadow margin can be had as well. -/
structure Displays (world : Window.World F) (w : Window.State F) (shown : Shown) : Prop where
  process : w.processImageName = some shown.processImageName ∨ (w.processImageName = none ∧
    ∀ k, Window.getProcessInfoFromHWND (world k) = (HResult.ok, shown.processImageName))
  className : w.windowClass = some shown.windowClass ∨ (w.windowClass = none ∧
    ∀ k, (world k).className = .ok shown.windowClass)
  title : w.windowTitle = some shown.windowTitle ∨ (w.windowTitle = none ∧
    ∀ k, (world k).titleLength = (shown.windowTitle.length, 0#32) ∧
      (world k).title = shown.windowTitle)
  margin : w.shadowMargin.isSome ∨
    ∀ k, (Window.getWindowShadowMargin (world k)).1.failed = false

variable {world : Window.World F} {w : Window.State F} {shown : Shown}

/-- A getter answers with the property, and the window still has all its properties. -/
theorem get_of_displays (h : Displays world w shown) (field : Field) (k : ℕ) :
    ∃ w', field.get (world k) w = .ok (shown.value field, w') ∧ Displays world w' shown := by
  cases field with
  | processImageName =>
    rcases h.process with hcached | ⟨hnone, hquery⟩
    · exact ⟨w, by simp [Field.get, Window.State.getProcessImageName, hcached, Shown.value], h⟩
    · refine ⟨{ w with processImageName := some shown.processImageName }, ?_,
        { h with process := Or.inl rfl }⟩
      simp only [Field.get, Window.State.getProcessImageName, hnone, hquery k, Shown.value]
      rfl
  | windowClass =>
    rcases h.className with hcached | ⟨hnone, hquery⟩
    · exact ⟨w, by simp [Field.get, Window.State.getWindowClass, hcached, Shown.value], h⟩
    · exact ⟨{ w with windowClass := some shown.windowClass },
        by simp [Field.get, Window.State.getWindowClass, hnone, hquery k, Shown.value],
        { h with className := Or.inl rfl }⟩
  | windowTitle =>
    rcases h.title with hcached | ⟨hnone, hquery⟩
    · exact ⟨w, by simp [Field.get, Window.State.getWindowTitle, hcached, Shown.value], h⟩
    · obtain ⟨hlength, htitle⟩ := hquery k
      by_cases hempty : shown.windowTitle = []
      · -- an empty title is not cached
        exact ⟨w, by simp [Field.get, Window.State.getWindowTitle, hnone, hlength, hempty,
          Shown.value], h⟩
      · exact ⟨{ w with windowTitle := some shown.windowTitle },
          by simp [Field.get, Window.State.getWindowTitle, hnone, hlength, htitle, hempty,
            Shown.value],
          { h with title := Or.inl rfl }⟩

/-- The predicate holds of the window. -/
def holds (shown : Shown) (p : Predicate) : Bool :=
  Predicate.test p.type p.data (shown.value p.field)

/-- The predicates of a rule are evaluated on the properties of the window. -/
theorem checkCondition_of_displays (ps : List Predicate) {s : Session F}
    (h : Displays world s.window shown) :
    ∃ s', checkCondition world ps s = .ok (ps.all (holds shown), s') ∧
      Displays world s'.window shown := by
  induction ps generalizing s with
  | nil => exact ⟨s, rfl, h⟩
  | cons p ps ih =>
    obtain ⟨w', hget, hw'⟩ := get_of_displays h p.field s.clock
    simp only [checkCondition, Predicate.evaluate, hget, List.all_cons]
    cases hp : holds shown p with
    | true =>
      obtain ⟨s', hs', hdisplays⟩ := ih (s := { window := w', clock := s.clock + 1 }) hw'
      refine ⟨s', ?_, hdisplays⟩
      have htest : Predicate.test p.type p.data (shown.value p.field) = true := hp
      simp [bind, Except.bind, htest, hs']
    | false =>
      have htest : Predicate.test p.type p.data (shown.value p.field) = false := hp
      exact ⟨{ window := w', clock := s.clock + 1 }, by simp [bind, Except.bind, htest], hw'⟩

variable [FloatLike F]

/-- Every placement of the window is carried out. -/
theorem execute_of_displays (h : Displays world w shown) (monitors : Monitor.StateCache F)
    (op : Operation F) (k : ℕ) :
    ∃ done, op.execute monitors (world k) w = .ok done ∧ Displays world done.window shown := by
  cases op with
  | absolute bounds => exact ⟨_, rfl, h⟩
  | relative hmonitor relativeBounds bounds =>
    cases bounds with
    | some bounds => exact ⟨_, rfl, h⟩
    | none =>
      simp only [Operation.execute]
      cases monitors.get hmonitor with
      | none => exact ⟨_, rfl, h⟩
      | some state =>
        unfold Window.State.getShadowMargin
        cases hmargin : w.shadowMargin with
        | some margin => exact ⟨_, rfl, h⟩
        | none =>
          have hquery := h.margin.resolve_left (by simp [hmargin]) k
          simp only [Window.checkHResult, hquery, Bool.false_eq_true, if_false]
          exact ⟨_, rfl, { h with margin := Or.inl rfl }⟩

/-- The rule has the trigger and its predicates hold. -/
def fires (trigger : Trigger) (shown : Shown) (rule : Rule F) : Bool :=
  rule.trigger.test trigger && rule.condition.toList.all (holds shown)

/-- **The rules that are executed** are those that fire, in order. -/
theorem checkRules_executed (monitors : Monitor.StateCache F) (trigger : Trigger)
    (rules : List (Rule F)) (position : ℕ) {s : Session F} (h : Displays world s.window shown) :
    ∃ checked, checkRulesFrom world monitors trigger position rules s = .ok checked ∧
      checked.executed = rules.findIdxs (fires trigger shown) position := by
  induction rules generalizing position s with
  | nil => exact ⟨_, rfl, rfl⟩
  | cons rule rules ih =>
    unfold checkRulesFrom
    rw [List.findIdxs_cons]
    cases htrigger : rule.trigger.test trigger with
    | false =>
      obtain ⟨rest, hrest, hexecuted⟩ := ih (position + 1) h
      simp only [fires, htrigger, Bool.not_false, Bool.false_and, Bool.false_eq_true, if_false,
        if_true, hrest]
      exact ⟨_, rfl, hexecuted⟩
    | true =>
      obtain ⟨s', hcondition, hs'⟩ := checkCondition_of_displays rule.condition.toList h
      simp only [fires, htrigger, Bool.not_true, Bool.true_and, Bool.false_eq_true, if_false,
        hcondition]
      cases hmatched : rule.condition.toList.all (holds shown) with
      | false =>
        obtain ⟨rest, hrest, hexecuted⟩ := ih (position + 1) hs'
        simp only [bind, Except.bind, Bool.false_eq_true, if_false, hrest]
        exact ⟨_, rfl, hexecuted⟩
      | true =>
        obtain ⟨done, hdone, hw⟩ := execute_of_displays hs' monitors rule.operation s'.clock
        obtain ⟨rest, hrest, hexecuted⟩ := ih (position + 1)
          (s := { window := done.window, clock := s'.clock + 1 }) hw
        simp only [bind, Except.bind, if_true, hdone, hrest]
        exact ⟨_, rfl, congrArg (position :: ·) hexecuted⟩

end Displays

/-! ### Compiled and documented rules -/

section Documented

variable {F : Type} (env : Externals F)

/-- Every pattern present under `where` holds, as documented. -/
def documentedWhere (node : Node) (shown : Shown) : Bool :=
  documentedEntry env (node.child Settings.Key.kProcessKey) shown.processImageName &&
    documentedEntry env (node.child Settings.Key.kWindowClassKey) shown.windowClass &&
      documentedEntry env (node.child Settings.Key.kWindowTitleKey) shown.windowTitle

/-- The rule should fire: it has the trigger and its `where` holds. -/
def documentedFires (trigger : Trigger) (shown : Shown) (rule : Settings.Rule) : Bool :=
  rule.triggers.test trigger && documentedWhere env (Settings.Rule.whereNode rule.node) shown

/-- The rule does fire, if it has an operation. -/
def compiledFires (trigger : Trigger) (shown : Shown) (rule : Settings.Rule) : Bool :=
  rule.triggers.test trigger && (predicatesOf rule.filter).all (holds shown)

/-- The patterns a `where` node may have: the image path is not asked to be empty, and no pattern
has `2 ^ 32` bytes or more. -/
structure PatternsSound (node : Node) : Prop where
  process : ∀ s, node.child Settings.Key.kProcessKey = some (.scalar s) → s.isNull = false →
    s.val ≠ ascii "^$" ∧ s.val.length < 2 ^ 32
  className : ∀ s, node.child Settings.Key.kWindowClassKey = some (.scalar s) →
    s.isNull = false → s.val.length < 2 ^ 32
  title : ∀ s, node.child Settings.Key.kWindowTitleKey = some (.scalar s) →
    s.isNull = false → s.val.length < 2 ^ 32

theorem all_predicateOf (shown : Shown) (field : Field) (keepEquals : Bool) {present : Prop}
    [Decidable present] {conf : StringAndMatchType}
    (h : present ↔ conf.2 ≠ [] ∨ (keepEquals = true ∧ conf.1 = .equals)) :
    (predicateOf field present conf).all (holds shown) =
      storedMatch keepEquals conf (shown.value field) := by
  unfold predicateOf storedMatch
  by_cases hpresent : present
  · rw [if_pos hpresent, if_pos (h.1 hpresent)]
    simp [holds]
  · rw [if_neg hpresent, if_neg fun hc => hpresent (h.2 hc)]
    rfl

/-- The predicates of a filter, as stored patterns; only the process pattern drops equality. -/
theorem all_predicatesOf (filter : Filter) (shown : Shown) :
    (predicatesOf filter).all (holds shown) =
      (storedMatch false filter.processImageName shown.processImageName &&
        storedMatch true filter.windowClass shown.windowClass &&
          storedMatch true filter.windowTitle shown.windowTitle) := by
  rw [predicatesOf, List.all_append, List.all_append,
    all_predicateOf shown .processImageName false (by simp [Compiler.ProcessPresent]),
    all_predicateOf shown .windowClass true (by simp [Compiler.ClassPresent]),
    all_predicateOf shown .windowTitle true (by simp [Compiler.TitlePresent])]
  rfl

/-- **Sound patterns are applied as documented.** -/
theorem predicatesOf_eq_documented {node : Node} {filter : Filter}
    (hfilter : Filter.ofNode env node = .ok filter) (h : PatternsSound node) (shown : Shown) :
    (predicatesOf filter).all (holds shown) = documentedWhere env node shown := by
  obtain ⟨-, hprocess, hclass, htitle⟩ := (Filter.ofNode_eq_ok env).1 hfilter
  rw [all_predicatesOf, documentedWhere,
    storedMatch_eq_documented env hprocess (fun s hs hn => (h.process s hs hn).2)
      (Or.inr fun s hs hn => (h.process s hs hn).1),
    storedMatch_eq_documented env hclass h.className (Or.inl rfl),
    storedMatch_eq_documented env htitle h.title (Or.inl rfl)]

/-- The bare markers under `process` are dropped, and the documented reading of them rejects every
image path but the empty one. -/
theorem documentedEntry_bareMarkers {s : Scalar} (hs : s.isNull = false) (hval : s.val = ascii "^$")
    {value : Wide} (hvalue : value ≠ []) : documentedEntry env (some (.scalar s)) value = false := by
  have hdec : env.decode (ascii "^$") = some (wide "^$") :=
    env.decode_append (env.decode_ascii 94 (by decide)) (env.decode_ascii 36 (by decide))
  simp only [documentedEntry, hs, Bool.false_eq_true, if_false, hval, hdec]
  have hstrip : MarkedWord.strip wideCaret wideDollar (wide "^$") = (true, true, []) := by decide
  rw [documentedMatch_of_strip hstrip]
  exact decide_eq_false hvalue

/-- For patterns that are not sound there is a window that the rule accepts and the documentation
rejects. -/
theorem exists_disagreement {node : Node} {filter : Filter}
    (hfilter : Filter.ofNode env node = .ok filter) (h : ¬ PatternsSound node) :
    ∃ shown, (predicatesOf filter).all (holds shown) = true ∧
      documentedWhere env node shown = false := by
  obtain ⟨-, hprocess, hclass, htitle⟩ := (Filter.ofNode_eq_ok env).1 hfilter
  -- a window that shows the stored texts is accepted
  have haccepts : (predicatesOf filter).all (holds ⟨filter.processImageName.2,
      filter.windowClass.2, filter.windowTitle.2⟩) = true := by
    rw [all_predicatesOf, storedMatch_self, storedMatch_self, storedMatch_self]
    rfl
  by_cases hp : ∀ s, node.child Settings.Key.kProcessKey = some (.scalar s) → s.isNull = false →
      s.val ≠ ascii "^$" ∧ s.val.length < 2 ^ 32
  · by_cases hc : ∀ s, node.child Settings.Key.kWindowClassKey = some (.scalar s) →
        s.isNull = false → s.val.length < 2 ^ 32
    · have ht : ¬ ∀ s, node.child Settings.Key.kWindowTitleKey = some (.scalar s) →
          s.isNull = false → s.val.length < 2 ^ 32 := fun ht => h ⟨hp, hc, ht⟩
      push Not at ht
      obtain ⟨s, hchild, hs, hlen⟩ := ht
      refine ⟨_, haccepts, ?_⟩
      rw [hchild] at htitle
      rw [documentedWhere, hchild, documented_truncated env hs hlen htitle, Bool.and_false]
    · push Not at hc
      obtain ⟨s, hchild, hs, hlen⟩ := hc
      refine ⟨_, haccepts, ?_⟩
      rw [hchild] at hclass
      rw [documentedWhere, hchild, documented_truncated env hs hlen hclass, Bool.and_false,
        Bool.false_and]
  · push Not at hp
    obtain ⟨s, hchild, hs, hbad⟩ := hp
    rw [hchild] at hprocess
    by_cases hval : s.val = ascii "^$"
    · -- any image path is accepted, since the pattern was dropped
      refine ⟨⟨wide "x", filter.windowClass.2, filter.windowTitle.2⟩, ?_, ?_⟩
      · have hread : Settings.readStringAndMatchTypeFromNode env (some (.scalar s))
            .processImageName = .ok (filter.processImageName.1, filter.processImageName.2) := hprocess
        obtain ⟨-, -, hdec⟩ := (Settings.readStringAndMatchTypeFromNode_scalar env hs).1 hread
        have hnil : filter.processImageName.2 = [] := by
          rw [hval, show Settings.textBytes (ascii "^$") = [] by decide, env.decode_nil] at hdec
          exact (Option.some.inj hdec).symm
        rw [all_predicatesOf, storedMatch_self, storedMatch_self]
        simp [storedMatch, hnil]
      · have hx : wide "x" ≠ [] := by decide
        rw [documentedWhere, hchild]
        simp only [documentedEntry_bareMarkers env hs hval hx, Bool.false_and]
    · refine ⟨_, haccepts, ?_⟩
      rw [documentedWhere, hchild, documented_truncated env hs (hbad hval) hprocess,
        Bool.false_and, Bool.false_and]

end Documented

/-! ### The end-to-end statement -/

section EndToEnd

variable {F : Type} [FloatLike F] (env : Externals F) (ctx : CompilationContext F)
variable (overflow : Fault)

/-- A compiled form fires; the counterpart of `fires`. -/
def firesForm (trigger : Trigger) (shown : Shown) (form : CompiledForm F) : Bool :=
  form.trigger.test trigger && form.condition.all (holds shown)

/-- The positions in a compiled rule set are positions among the rules with an operation. -/
theorem findIdxs_fires {rules : List Settings.Rule} {ruleSet : List (Rule F)}
    (hcompile : (compileRules env ctx overflow rules).result = .ok ruleSet) (trigger : Trigger)
    (shown : Shown) :
    ruleSet.findIdxs (fires trigger shown) =
      (rules.filter fun rule => (operationOf env ctx rule).isSome).findIdxs
        (compiledFires trigger shown) := by
  have hcompiles := Compiler.compiles_of_compileRules env ctx overflow ⟨ruleSet, hcompile⟩
  obtain ⟨ret, hret, hforms⟩ := Compiler.compileRules_result env ctx overflow hcompiles
  rw [hcompile] at hret
  cases hret
  have hmap : ruleSet.findIdxs (fires trigger shown) =
      (ruleSet.map CompiledForm.ofRule).findIdxs (firesForm trigger shown) :=
    (Positions.findIdxs_map CompiledForm.ofRule (firesForm trigger shown) ruleSet 0).symm
  rw [hmap, hforms, Positions.findIdxs_filterMap (q := compiledFires trigger shown)]
  · simp only [compiledForm, Option.isSome_map]
  · intro rule form hform
    obtain ⟨operation, -, rfl⟩ := Option.map_eq_some_iff.1 hform
    rfl

/-- **The rules executed are the documented ones, for every window, exactly when the patterns of
every rule that can fire are sound.** -/
theorem checkRules_documented_iff (tree : Tree) {rules : List Settings.Rule}
    {warnings : List Settings.Warning} {ruleSet : List (Rule F)}
    (hread : readRules env tree = .ok (rules, warnings))
    (hcompile : (compileRules env ctx overflow rules).result = .ok ruleSet) :
    (∀ trigger, trigger = .windowFocus ∨ trigger = .windowShow →
      ∀ (world : Window.World F) (monitors : Monitor.StateCache F) (s : Session F) (shown : Shown),
        Displays world s.window shown →
        ∃ checked, checkRules world monitors trigger ruleSet s = .ok checked ∧
          checked.executed = (rules.filter fun rule => (operationOf env ctx rule).isSome).findIdxs
            (documentedFires env trigger shown)) ↔
      ∀ rule ∈ rules, (operationOf env ctx rule).isSome →
        rule.triggers.windowFocus = true ∨ rule.triggers.windowShow = true →
          PatternsSound (Settings.Rule.whereNode rule.node) := by
  have hfilter : ∀ rule ∈ rules,
      Filter.ofNode env (Settings.Rule.whereNode rule.node) = .ok rule.filter := by
    intro rule hrule
    have hbuilt := Settings.ofNode_of_mem_readRulesFrom env hread rule hrule
    exact (Settings.Rule.ofNode_eq_ok env hbuilt).2.2.1
  constructor
  · intro h rule hrule hoperation hevent
    by_contra hunsound
    obtain ⟨shown, haccepts, hrejects⟩ := exists_disagreement env (hfilter rule hrule) hunsound
    obtain ⟨trigger, htrigger, htest⟩ : ∃ trigger : Trigger,
        (trigger = .windowFocus ∨ trigger = .windowShow) ∧ rule.triggers.test trigger = true := by
      rcases hevent with hfocus | hshow
      · exact ⟨.windowFocus, Or.inl rfl, hfocus⟩
      · exact ⟨.windowShow, Or.inr rfl, hshow⟩
    -- a window with everything cached
    let w : Window.State F := ⟨some shown.processImageName, some shown.windowClass,
      some shown.windowTitle, some ⟨FloatLike.half, FloatLike.half, FloatLike.half, FloatLike.half⟩⟩
    let q : Window.Queries F := ⟨none, (HResult.ok, []), false, false, .ok 0, (HResult.ok, []),
      .ok [], (0, 0#32), [], .ok ⟨0, 0, 0, 0⟩, .ok ⟨0, 0, 0, 0⟩, none⟩
    have hw : Displays (fun _ => q) w shown := ⟨Or.inl rfl, Or.inl rfl, Or.inl rfl, Or.inl rfl⟩
    obtain ⟨checked, hchecked, hdocumented⟩ :=
      h trigger htrigger (fun _ => q) [] ⟨w, 0⟩ shown hw
    obtain ⟨checked', hchecked', hexecuted⟩ := checkRules_executed [] trigger ruleSet 0
      (s := ⟨w, 0⟩) hw
    have hsame : checked = checked' := Except.ok.inj (hchecked.symm.trans hchecked')
    rw [hsame, hexecuted, findIdxs_fires env ctx overflow hcompile trigger shown,
      Positions.findIdxs_eq_iff] at hdocumented
    have hrule' := hdocumented rule (List.mem_filter.2 ⟨hrule, hoperation⟩)
    rw [compiledFires, documentedFires, htest, haccepts, hrejects] at hrule'
    cases hrule'
  · intro h trigger htrigger world monitors s shown hdisplays
    obtain ⟨checked, hchecked, hexecuted⟩ := checkRules_executed monitors trigger ruleSet 0 hdisplays
    refine ⟨checked, hchecked, ?_⟩
    rw [hexecuted, findIdxs_fires env ctx overflow hcompile trigger shown,
      Positions.findIdxs_eq_iff]
    intro rule hrule
    obtain ⟨hmem, hoperation⟩ := List.mem_filter.1 hrule
    unfold compiledFires documentedFires
    cases htest : rule.triggers.test trigger with
    | false => rfl
    | true =>
      have hevent : rule.triggers.windowFocus = true ∨ rule.triggers.windowShow = true := by
        rcases htrigger with rfl | rfl
        · exact Or.inl htest
        · exact Or.inr htest
      rw [predicatesOf_eq_documented env (hfilter rule hmem) (h rule hmem hoperation hevent)]

end EndToEnd

/-! ### Two documents -/

/-- A document with one rule for focused windows, with one pattern, and an absolute placement. -/
def oneRule (key pattern : Bytes) : Tree :=
  some (.map [(ascii "rules", .seq [
    .map [(ascii "when", .scalar ⟨false, some (ascii "focus")⟩),
      (ascii "where", .map [(key, .scalar ⟨false, some pattern⟩)]),
      (ascii "then", .map [(ascii "type",
        .scalar ⟨false, some (ascii "absolute_move_and_resize")⟩)])]])])

/-- The statement for a rule on windows whose class starts with `a`. -/
theorem checkRules_documented_class :
    ∃ rules ruleSet, readRules asciiExternals (oneRule (ascii "class") (ascii "^a")) =
        .ok (rules, []) ∧
      (compileRules asciiExternals ⟨none, []⟩ .exception rules).result = .ok ruleSet ∧
      ((∀ trigger, trigger = .windowFocus ∨ trigger = .windowShow →
        ∀ (world : Window.World ℚ) (monitors : Monitor.StateCache ℚ) (s : Session ℚ)
          (shown : Shown), Displays world s.window shown →
          ∃ checked, checkRules world monitors trigger ruleSet s = .ok checked ∧
            checked.executed = (rules.filter fun rule =>
              (operationOf asciiExternals ⟨none, []⟩ rule).isSome).findIdxs
                (documentedFires asciiExternals trigger shown)) ↔
        ∀ rule ∈ rules, (operationOf asciiExternals ⟨none, []⟩ rule).isSome →
          rule.triggers.windowFocus = true ∨ rule.triggers.windowShow = true →
            PatternsSound (Settings.Rule.whereNode rule.node)) :=
  ⟨_, _, rfl, rfl, checkRules_documented_iff asciiExternals ⟨none, []⟩ .exception
    (oneRule (ascii "class") (ascii "^a")) rfl rfl⟩

/-- What is known about a window of the program `x`. -/
def knownWindow : Window.State ℚ := ⟨some (wide "x"), some [], some [], some ⟨0, 0, 0, 0⟩⟩

/-- A rule for an empty image path is executed for a window of the program `x`, which the
documentation rules out. -/
theorem checkRules_bareMarkers :
    ∃ rules ruleSet checked, readRules asciiExternals (oneRule (ascii "process") (ascii "^$")) =
        .ok (rules, []) ∧
      (compileRules asciiExternals ⟨none, []⟩ .exception rules).result = .ok ruleSet ∧
      Displays (fun _ => destroyed) knownWindow ⟨wide "x", [], []⟩ ∧
      checkRules (fun _ => destroyed) [] .windowFocus ruleSet ⟨knownWindow, 0⟩ = .ok checked ∧
      checked.executed = [0] ∧
      (rules.filter fun rule => (operationOf asciiExternals ⟨none, []⟩ rule).isSome).findIdxs
        (documentedFires asciiExternals .windowFocus ⟨wide "x", [], []⟩) = [] :=
  ⟨_, _, _, rfl, rfl, ⟨Or.inl rfl, Or.inl rfl, Or.inl rfl, Or.inl rfl⟩, rfl, rfl, rfl⟩

end RoxyGlance.Engine
