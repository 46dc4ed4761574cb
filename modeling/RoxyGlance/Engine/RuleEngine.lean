import RoxyGlance.Compiler.CompileRule

/-!
# The rule engine

`RuleEngine` holds the installed rule set.  A change of the settings compiles a new one and
installs it; a window event is checked against the installed one.  All three entry points are
`noexcept`.

* `onSettingsChanged_installs_iff`: when a change of the settings is survived by the process, with
  the right rules installed.
-/

namespace RoxyGlance.Engine

open Compiler (CompilationContext CompiledForm compileRule compileRules compiledForm Compiles)
open Settings (UserSettingsDocument Warning Trigger)

variable {F : Type} [FloatLike F]

/-- `RuleEngine`.  The operation context is the monitor cache. -/
structure RuleEngine (F : Type) where
  operationContext : Option (Monitor.StateCache F)
  log : List Warning
  ruleSet : List (Rule F)

/-- How much memory there is during one `onSettingsChanged`: the number of requests the compilation
is granted, and whether the text of a log message can be allocated once they are freed. -/
structure Memory where
  budget : Option ℕ
  message : Bool

/-- Memory that suffices. -/
def Memory.enough : Memory := { budget := none, message := true }

/-- `kRuleCompilationOutOfMemory` -/
def kRuleCompilationOutOfMemory : Wide :=
  wide "Failed to allocate memory while updating the rule set."

namespace RuleEngine

variable (env : Externals F) (primary : Option Monitor.Handle) (overflow : Fault)

/-- The body of the `try` block of `onSettingsChanged`: compile, and allocate the new set. -/
def makeRuleSet (monitorCache : Monitor.StateCache F) (settings : UserSettingsDocument) :
    Counted Fault (List (Rule F)) := do
  let ruleSet ← compileRule env { primary, monitorCache } overflow settings
  Counted.request
  pure ruleSet

/-- `onSettingsChanged`.  An error is an exception that leaves a `noexcept` function. -/
def onSettingsChanged (memory : Memory) (engine : RuleEngine F) (settings : UserSettingsDocument) :
    Except Fault (RuleEngine F) :=
  match engine.operationContext with
  | none => .ok engine
  | some monitorCache =>
    match (makeRuleSet env primary overflow monitorCache settings).run .badAlloc memory.budget with
    | .ok ruleSet => .ok { engine with ruleSet }
    | .error .badAlloc =>
      if memory.message then
        .ok { engine with log := engine.log ++
          [{ message := kRuleCompilationOutOfMemory, hresult := HResult.outOfMemory }] }
      else .error .badAlloc
    | .error fault => .error fault

/-- `onForegroundEvent` and `onShowEvent`, for their triggers. -/
def onWindowEvent (world : Window.World F) (trigger : Trigger) (engine : RuleEngine F)
    (s : Session F) : Except Fault (RuleEngine F × Session F × List ℕ) :=
  match engine.operationContext with
  | none => .ok (engine, s, [])
  | some monitors => do
    let checked ← checkRules world monitors trigger engine.ruleSet s
    .ok ({ engine with ruleSet := checked.rules }, checked.session, checked.executed)

/-- `onForegroundEvent` -/
def onForegroundEvent (world : Window.World F) := onWindowEvent world .windowFocus

/-- `onShowEvent` -/
def onShowEvent (world : Window.World F) := onWindowEvent world .windowShow

end RuleEngine

/-! ### Changes of the settings -/

section SettingsChanged

variable (env : Externals F) (primary : Option Monitor.Handle) (overflow : Fault)
variable (monitorCache : Monitor.StateCache F) (tree : Tree) (rules : List Settings.Rule)

theorem makeRuleSet_result :
    (RuleEngine.makeRuleSet env primary overflow monitorCache ⟨tree, some rules⟩).result =
      (compileRules env { primary, monitorCache } overflow rules).result := by
  unfold RuleEngine.makeRuleSet compileRule
  simp only [Counted.result_bind, Counted.result_request, Counted.result_pure]
  exact bind_pure _

/-- A compilation that succeeds replaces the rule set, unless memory is short. -/
theorem onSettingsChanged_of_ok {ret : List (Rule F)}
    (h : (compileRules env { primary, monitorCache } overflow rules).result = .ok ret)
    (memory : Memory) (hmessage : memory.message = true) (log : List Warning)
    (previous : List (Rule F)) :
    ∃ engine', RuleEngine.onSettingsChanged env primary overflow memory
        ⟨some monitorCache, log, previous⟩ ⟨tree, some rules⟩ = .ok engine' ∧
      (memory.budget = none → engine'.ruleSet = ret) := by
  rw [← makeRuleSet_result env primary overflow monitorCache tree rules] at h
  unfold RuleEngine.onSettingsChanged
  rcases Counted.run_cases Fault.badAlloc memory.budget
      (RuleEngine.makeRuleSet env primary overflow monitorCache ⟨tree, some rules⟩) with hrun | hrun
  · rw [h] at hrun
    exact ⟨{ operationContext := some monitorCache, log, ruleSet := ret }, by simp only [hrun],
      fun _ => rfl⟩
  · simp only [hrun, hmessage, if_true]
    refine ⟨_, rfl, fun hnone => ?_⟩
    rw [hnone, Counted.run_none, h] at hrun
    cases hrun

/-- A compilation that fails either ends the process or keeps the rule set. -/
theorem onSettingsChanged_of_error {fault : Fault}
    (h : (compileRules env { primary, monitorCache } overflow rules).result = .error fault)
    (log : List Warning) (previous : List (Rule F)) (engine' : RuleEngine F)
    (hok : RuleEngine.onSettingsChanged env primary overflow Memory.enough
        ⟨some monitorCache, log, previous⟩ ⟨tree, some rules⟩ = .ok engine') :
    engine'.ruleSet = previous := by
  rw [← makeRuleSet_result env primary overflow monitorCache tree rules] at h
  simp only [RuleEngine.onSettingsChanged, Memory.enough, Counted.run_none, h, if_true] at hok
  cases fault <;> cases hok
  rfl

/-- **A change of the settings returns, and with enough memory installs the compiled forms of the
rules with an operation, whatever was installed before, exactly when every rule compiles**: the
fields of its action are readable, and if it has an operation it does not restrict all three window
properties. -/
theorem onSettingsChanged_installs_iff (log : List Warning) :
    (∀ previous : List (Rule F),
      (∀ memory : Memory, memory.message = true →
        ReturnsNormally (RuleEngine.onSettingsChanged env primary overflow memory
          ⟨some monitorCache, log, previous⟩ ⟨tree, some rules⟩)) ∧
      (∀ engine', RuleEngine.onSettingsChanged env primary overflow Memory.enough
          ⟨some monitorCache, log, previous⟩ ⟨tree, some rules⟩ = .ok engine' →
        engine'.ruleSet.map CompiledForm.ofRule =
          rules.filterMap (compiledForm env { primary, monitorCache }))) ↔
      ∀ rule ∈ rules, Compiles env { primary, monitorCache } rule := by
  constructor
  · intro h
    cases hresult : (compileRules env { primary, monitorCache } overflow rules).result with
    | ok ret => exact Compiler.compiles_of_compileRules env _ overflow ⟨ret, hresult⟩
    | error fault =>
      -- a rule set longer than the expected one shows that nothing was installed
      exfalso
      let filler : Rule F := ⟨.none, .absolute ⟨0, 0, 0, 0⟩, BoundedVector.empty⟩
      let previous := List.replicate (rules.length + 1) filler
      obtain ⟨hreturns, hinstalls⟩ := h previous
      obtain ⟨engine', hok⟩ := hreturns Memory.enough rfl
      have hkept := onSettingsChanged_of_error env primary overflow monitorCache tree rules hresult
        log previous engine' hok
      have hlen := congrArg List.length (hinstalls engine' hok)
      have hle := List.length_filterMap_le (compiledForm env { primary, monitorCache }) rules
      rw [hkept, List.length_map, List.length_replicate] at hlen
      omega
  · intro h previous
    obtain ⟨ret, hresult, hforms⟩ := Compiler.compileRules_result env _ overflow h
    constructor
    · intro memory hmessage
      obtain ⟨engine', hok, -⟩ := onSettingsChanged_of_ok env primary overflow monitorCache tree
        rules hresult memory hmessage log previous
      exact ⟨engine', hok⟩
    · intro engine' hok
      obtain ⟨engine'', hok', hset⟩ := onSettingsChanged_of_ok env primary overflow monitorCache
        tree rules hresult Memory.enough rfl log previous
      rw [hok] at hok'
      cases hok'
      rw [hset rfl, hforms]

/-- Two rules; the first one's `x` is out of range, the second one is valid. -/
def outOfRangeSettings : Tree :=
  some (.map [(ascii "rules", .seq [
    .map [(ascii "where", .map []),
      (ascii "then", .map [(ascii "type", .scalar ⟨false, some (ascii "absolute_move_and_resize")⟩),
        (ascii "x", .scalar ⟨false, some (ascii "99999")⟩)])],
    .map [(ascii "where", .map []),
      (ascii "then", .map [(ascii "type",
        .scalar ⟨false, some (ascii "absolute_move_and_resize")⟩)])]])])

/-- Both rules are read without a warning, and the `ParseError` of the first one then leaves
`onSettingsChanged`. -/
theorem onSettingsChanged_outOfRange :
    ∃ rules, Settings.readRules asciiExternals outOfRangeSettings = .ok (rules, []) ∧
      rules.length = 2 ∧
      RuleEngine.onSettingsChanged asciiExternals none .exception Memory.enough
        ⟨some [], [], []⟩ ⟨outOfRangeSettings, some rules⟩ =
      .error (.parseError
        { reason := .numberOutOfRange, keyId := .positionX, content := ascii "99999" }) :=
  ⟨_, rfl, rfl, rfl⟩

end SettingsChanged

end RoxyGlance.Engine
