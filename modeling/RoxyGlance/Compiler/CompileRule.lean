import RoxyGlance.Compiler.CompileFilter
import RoxyGlance.Settings.Document

/-!
# Compiling rules

The rules of a document become the rules of the engine, in order.  A rule without an operation,
because of its action type or because its monitor is unknown, is left out.

* `compileRules_result`: if each rule compiles on its own, so does the list, to the rules'
  compiled forms;
* `compiles_of_compileRules`: conversely, one rule that does not compile spoils the list.
-/

namespace RoxyGlance.Compiler

open Settings (AbsoluteMoveAndResize RelativeMoveAndResize StringAndMatchType TriggerFlags)
open Engine (Predicate PredicateSet Operation)

variable {F : Type} [FloatLike F]

/-- `CompilationContext`, with the answer of `GetPrimaryHMonitor`. -/
structure CompilationContext (F : Type) where
  primary : Option Monitor.Handle
  monitorCache : Monitor.StateCache F

/-- `resolveMonitorId` -/
def CompilationContext.resolveMonitorId (ctx : CompilationContext F) (id : ℤ) :
    Option Monitor.Handle :=
  if id = 0 then ctx.primary else (ctx.monitorCache.findById id).map Monitor.State.handle

variable (env : Externals F) (ctx : CompilationContext F) (overflow : Fault)

/-- `CompileAction`, on an action and its node. -/
def compileAction (node : Node) (action : Settings.Action) :
    Counted Fault (Option (Operation F)) :=
  match action.type with
  | .absoluteMoveAndResize => do
    let detail ← Counted.lift (action.asAbsolute env node)
    Counted.request
    pure (some (.absolute detail.windowBounds))
  | .relativeMoveAndResize => do
    Counted.request
    let detail ← Counted.lift (action.asRelative env node)
    match ctx.resolveMonitorId detail.id with
    | some handle => do
      Counted.request
      pure (some (Operation.makeRelative handle detail.windowBounds))
    | none => pure none
  | .invalid => pure none

/-- The loop of `CompileRule`. -/
def compileRules : List Settings.Rule → Counted Fault (List (Engine.Rule F))
  | [] => pure []
  | rule :: rules => do
    let operation ← compileAction env ctx (Settings.Rule.thenNode rule.node) rule.action
    match operation with
    | none => compileRules rules
    | some operation => do
      let predicates ← compileFilter overflow rule.filter
      Counted.request
      let ret ← compileRules rules
      pure ({ trigger := rule.triggers, operation, condition := predicates } :: ret)

/-- `CompileRule` -/
def compileRule (settings : Settings.UserSettingsDocument) : Counted Fault (List (Engine.Rule F)) :=
  match settings.root with
  | none => pure []
  | some rules => compileRules env ctx overflow rules

/-! ### What a single rule compiles to -/

/-- The fields of the rule's action can be read. -/
def ActionReadable (rule : Settings.Rule) : Prop :=
  match rule.action.type with
  | .invalid => True
  | .absoluteMoveAndResize => AbsoluteMoveAndResize.Readable env (Settings.Rule.thenNode rule.node)
  | .relativeMoveAndResize => RelativeMoveAndResize.Readable env (Settings.Rule.thenNode rule.node)

/-- The operation of a rule; `none` when there is none or its fields cannot be read. -/
def operationOf (rule : Settings.Rule) : Option (Operation F) :=
  match (compileAction env ctx (Settings.Rule.thenNode rule.node) rule.action).result with
  | .ok operation => operation
  | .error _ => none

/-- What matters of a compiled rule. -/
structure CompiledForm (F : Type) where
  trigger : TriggerFlags
  operation : Operation F
  condition : List Predicate

/-- A compiled rule without the bound on its predicates. -/
def CompiledForm.ofRule (rule : Engine.Rule F) : CompiledForm F :=
  { trigger := rule.trigger, operation := rule.operation, condition := rule.condition.toList }

/-- The compiled form of a rule that is valid and has an operation. -/
def compiledForm (rule : Settings.Rule) : Option (CompiledForm F) :=
  (operationOf env ctx rule).map fun operation =>
    { trigger := rule.triggers, operation, condition := predicatesOf rule.filter }

/-- The action of a rule with readable fields has an operation: it is an absolute placement, or a
relative one on a monitor that is known. -/
def HasOperation (rule : Settings.Rule) : Prop :=
  match rule.action.type with
  | .invalid => False
  | .absoluteMoveAndResize => True
  | .relativeMoveAndResize =>
    ∃ id, RelativeMoveAndResize.readId env (Settings.Rule.thenNode rule.node) = .ok id ∧
      (ctx.resolveMonitorId id).isSome

/-- The rule compiles: its fields are readable, and if it has an operation its filter fits. -/
def Compiles (rule : Settings.Rule) : Prop :=
  ActionReadable env rule ∧ (HasOperation env ctx rule →
    ¬ (ProcessPresent rule.filter ∧ ClassPresent rule.filter ∧ TitlePresent rule.filter))

theorem returnsNormally_compileAction (rule : Settings.Rule) :
    ReturnsNormally (compileAction env ctx (Settings.Rule.thenNode rule.node) rule.action).result ↔
      ActionReadable env rule := by
  unfold compileAction ActionReadable
  cases h : rule.action.type with
  | invalid => simp
  | absoluteMoveAndResize =>
    simp only [Counted.result_bind, Counted.result_lift]
    refine (returnsNormally_bind_of fun detail => ⟨_, rfl⟩).trans ?_
    simp only [Settings.Action.asAbsolute, h, ne_eq, not_true_eq_false, if_false]
    exact AbsoluteMoveAndResize.returnsNormally_ofNode env _
  | relativeMoveAndResize =>
    simp only [Counted.result_bind, Counted.result_lift, Counted.result_request]
    show ReturnsNormally (Settings.Action.asRelative env _ _ >>= _) ↔ _
    rw [returnsNormally_bind_of]
    · simp only [Settings.Action.asRelative, h, ne_eq, not_true_eq_false, if_false]
      exact RelativeMoveAndResize.returnsNormally_ofNode env _
    · intro detail
      cases ctx.resolveMonitorId detail.id with
      | none => exact ⟨_, rfl⟩
      | some handle => exact ⟨_, rfl⟩

/-- A rule whose fields can be read compiles its action to `operationOf`. -/
theorem compileAction_result {rule : Settings.Rule} (h : ActionReadable env rule) :
    (compileAction env ctx (Settings.Rule.thenNode rule.node) rule.action).result =
      .ok (operationOf env ctx rule) := by
  obtain ⟨operation, hop⟩ := (returnsNormally_compileAction env ctx rule).2 h
  unfold operationOf
  rw [hop]

theorem isSome_operationOf {rule : Settings.Rule} (h : ActionReadable env rule) :
    (operationOf env ctx rule).isSome ↔ HasOperation env ctx rule := by
  have hop := compileAction_result env ctx h
  unfold compileAction at hop
  unfold HasOperation
  cases htype : rule.action.type with
  | invalid =>
    simp only [htype, Counted.result_pure, Except.ok.injEq] at hop
    simp [← hop]
  | absoluteMoveAndResize =>
    simp only [htype, Counted.result_bind, Counted.result_lift] at hop
    obtain ⟨detail, -, hrest⟩ := bind_eq_ok.1 hop
    have heq : some (Operation.absolute detail.windowBounds) = operationOf env ctx rule :=
      Except.ok.inj hrest
    simp [← heq]
  | relativeMoveAndResize =>
    simp only [htype, Counted.result_bind, Counted.result_lift, Counted.result_request] at hop
    obtain ⟨-, -, hop⟩ := bind_eq_ok.1 hop
    obtain ⟨detail, hdetail, hrest⟩ := bind_eq_ok.1 hop
    simp only [Settings.Action.asRelative, htype, ne_eq, not_true_eq_false, if_false] at hdetail
    have hid := RelativeMoveAndResize.readId_of_ofNode env hdetail
    simp only [hid, Except.ok.injEq, exists_eq_left']
    cases hmonitor : ctx.resolveMonitorId detail.id with
    | none =>
      simp only [hmonitor, Counted.result_pure, Except.ok.injEq] at hrest
      simp [← hrest]
    | some handle =>
      simp only [hmonitor, Counted.result_bind, Counted.result_request, Counted.result_pure] at hrest
      obtain ⟨-, -, hrest⟩ := bind_eq_ok.1 hrest
      simp only [Except.ok.injEq] at hrest
      simp [← hrest]

/-! ### The whole list -/

/-- **A list of rules that compile one by one** compiles to their compiled forms, in order. -/
theorem compileRules_result {rules : List Settings.Rule}
    (h : ∀ rule ∈ rules, Compiles env ctx rule) :
    ∃ ret, (compileRules env ctx overflow rules).result = .ok ret ∧
      ret.map CompiledForm.ofRule = rules.filterMap (compiledForm env ctx) := by
  induction rules with
  | nil => exact ⟨[], rfl, rfl⟩
  | cons rule rules ih =>
    obtain ⟨ret, hret, hforms⟩ := ih fun r hr => h r (List.mem_cons_of_mem _ hr)
    obtain ⟨hread, hfits⟩ := h rule List.mem_cons_self
    have hop := compileAction_result env ctx hread
    simp only [compileRules, Counted.result_bind, hop, List.filterMap_cons, compiledForm]
    cases hrule : operationOf env ctx rule with
    | none => exact ⟨ret, hret, hforms⟩
    | some operation =>
      have hhas : HasOperation env ctx rule := (isSome_operationOf env ctx hread).1 (by simp [hrule])
      have hroom := (returnsNormally_compileFilter overflow rule.filter).2 (hfits hhas)
      obtain ⟨condition, hcondition⟩ := hroom
      refine ⟨{ trigger := rule.triggers, operation, condition } :: ret, ?_, ?_⟩
      · show (compileFilter overflow rule.filter >>= _ : Counted Fault _).result = _
        simp only [Counted.result_bind, hcondition, hret]
        rfl
      · rw [compileFilter_result] at hcondition
        have hlist := BoundedVector.emplaceAll_eq_ok.1 hcondition
        simp only [BoundedVector.empty, List.nil_append] at hlist
        simp only [List.map_cons, hforms, Option.map_some, CompiledForm.ofRule, hlist]

/-- One rule that does not compile ends the compilation of the list. -/
theorem compiles_of_compileRules {rules : List Settings.Rule}
    (h : ReturnsNormally (compileRules env ctx overflow rules).result) :
    ∀ rule ∈ rules, Compiles env ctx rule := by
  induction rules with
  | nil => simp
  | cons rule rules ih =>
    simp only [compileRules, Counted.result_bind] at h
    obtain ⟨operation, hop, hrest⟩ := returnsNormally_bind.1 h
    have hread := (returnsNormally_compileAction env ctx rule).1 ⟨operation, hop⟩
    have heq : operationOf env ctx rule = operation := by unfold operationOf; rw [hop]
    have htail : ReturnsNormally (compileRules env ctx overflow rules).result ∧
        (operation.isSome → ¬ (ProcessPresent rule.filter ∧ ClassPresent rule.filter ∧
          TitlePresent rule.filter)) := by
      cases operation with
      | none => exact ⟨hrest, by simp⟩
      | some operation =>
        simp only [Counted.result_bind, Counted.result_request] at hrest
        obtain ⟨condition, hcondition, hrest⟩ := returnsNormally_bind.1 hrest
        obtain ⟨-, -, hrest⟩ := returnsNormally_bind.1 hrest
        obtain ⟨ret, hret, -⟩ := returnsNormally_bind.1 hrest
        exact ⟨⟨ret, hret⟩, fun _ =>
          (returnsNormally_compileFilter overflow rule.filter).1 ⟨condition, hcondition⟩⟩
    intro r hr
    rcases List.mem_cons.1 hr with rfl | hr
    · refine ⟨hread, fun hhas => htail.2 ?_⟩
      rw [← heq]
      exact (isSome_operationOf env ctx hread).2 hhas
    · exact ih htail.1 r hr

end RoxyGlance.Compiler
