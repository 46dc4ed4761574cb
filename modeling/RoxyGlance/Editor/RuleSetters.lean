import RoxyGlance.Editor.RuleEditorPage
import RoxyGlance.Settings.ActionSwitch
import RoxyGlance.Settings.Reload
import RoxyGlance.Settings.RuleIsolation
import RoxyGlance.Settings.TriggerWriting

/-!
# The document behind the rules

A rule in memory and the node it is bound to are two copies of the same settings: the setters of the
rule, of its filter and of its action change both, and a save writes only the nodes.  What is loaded
at the next start is what is read from them.

* `defined_call_iff`: what the release build assumes of a call, of which nothing is known when that is
  false;
* `fresh_call_iff`: which calls leave a rule that can be read from its node;
* `readsBack_iff_fresh`: a document is read as its rules, with the warnings of the first time, exactly
  if each rule is read from its node;
* `document_readsBack_iff`: along every sequence of calls the document can be read back exactly as
  long as no call breaks an assumption and every pattern and every action type that is set can be
  told apart in its node.
-/

namespace RoxyGlance.Editor

open Settings

variable {F : Type} [FloatLike F] (env : Externals F)

/-! ### The setters -/

/-- A call of a setter of a rule, of its filter, or of its action.  The objects that `as` makes keep
the fields of an action; a call goes through any such object. -/
inductive Setter (F : Type)
  | triggerFlags (value : TriggerFlags)
  | pattern (key : FilterKey) (value : StringAndMatchType)
  | actionType (value : ActionType)
  | absolute (lane : Lane) (detail : AbsoluteMoveAndResize) (value : ℤ)
  | relative (lane : Lane) (detail : RelativeMoveAndResize F) (value : F)
  | id (detail : RelativeMoveAndResize F) (value : ℤ)
  | name (detail : RelativeMoveAndResize F) (value : StringAndMatchType)

/-- A setter of the fields of the action: its node changes. -/
def setThenNode {A : Type} (rule : Rule) (set : Node → Except Fault (Node × A)) :
    Except Fault Rule := do
  let (thenNode, _) ← set (Rule.thenNode rule.node)
  .ok { rule with node := rule.node.setChild Key.kThen thenNode }

/-- The call. -/
def Setter.call (rule : Rule) : Setter F → Except Fault Rule
  | .triggerFlags value => .ok (rule.setTriggerFlags value)
  | .pattern key value => setSettingsStringFilterValue env rule key value
  | .actionType value =>
    let (thenNode, action) := rule.action.setType env (Rule.thenNode rule.node) value
    .ok { rule with node := rule.node.setChild Key.kThen thenNode, action }
  | .absolute lane detail value =>
    setThenNode rule fun node => AbsoluteMoveAndResizeViewModel.setAction env lane node detail value
  | .relative lane detail value =>
    setThenNode rule fun node => RelativeMoveAndResizeViewModel.setAction env lane node detail value
  | .id detail value => setThenNode rule fun node => detail.setId env node value
  | .name detail value => setThenNode rule fun node => detail.setName env node value

/-- The rule after the call.  One that throws has no effect; one that breaks what the release build
assumes has no outcome. -/
def Setter.apply (rule : Rule) (c : Setter F) : Except Fault Rule :=
  match c.call env rule with
  | .ok rule => .ok rule
  | .error .undefined => .error .undefined
  | .error _ => .ok rule

section Apply

variable {env} {rule : Rule} {c : Setter F}

theorem apply_of_ok {rule' : Rule} (h : c.call env rule = .ok rule') :
    c.apply env rule = .ok rule' := by
  rw [Setter.apply, h]

theorem apply_of_error {fault : Fault} (h : c.call env rule = .error fault)
    (hdefined : Defined (c.call env rule)) : c.apply env rule = .ok rule := by
  rw [h] at hdefined
  rw [Setter.apply, h]
  cases fault with
  | undefined => exact absurd rfl hdefined
  | parseError | hresultError | badAlloc | exception => rfl

theorem apply_of_undefined (h : ¬ Defined (c.call env rule)) :
    c.apply env rule = .error .undefined := by
  rw [Setter.apply, not_not.1 h]

end Apply

/-! ### What the setters assume -/

/-- A text has a length as an `int` when it is converted: there is something to convert, and no
container in its place. -/
def LengthFits (child : Option Node) (text : Wide) : Prop :=
  child.any Node.isContainer = false → text ≠ [] → 0 < toInt text.length

/-- What the release build assumes of a call. -/
def Setter.Assumed (rule : Rule) : Setter F → Prop
  | .pattern key value => LengthFits ((Rule.whereNode rule.node).child key.key) value.2
  | .absolute lane _ value => AbsoluteMoveAndResizeViewModel.accepts lane value = true
  | .relative _ _ value => RelativeMoveAndResizeViewModel.accepts value = true
  | .id _ value => acceptsId value = true
  | .name detail value => detail.name ≠ value →
      LengthFits ((Rule.thenNode rule.node).child Key.kMonitorName) value.2
  | .triggerFlags _ | .actionType _ => True

theorem defined_throwHResult {α : Type} (hr : HResult) :
    Defined (.error (throwHResult hr) : Except Fault α) := by
  unfold throwHResult
  split_ifs
  · exact fun h => by cases h
  · exact fun h => by cases h

theorem defined_uncheckedAssert_iff (cond : Bool) :
    Defined (uncheckedAssert cond) ↔ cond = true := by
  cases cond with
  | false => exact iff_of_false (fun h => h rfl) (by decide)
  | true => exact iff_of_true (defined_ok ()) rfl

section Writing

omit [FloatLike F]

theorem defined_writeField_iff (node : Node) (key : Bytes) (write : Option Node → Except Fault Node) :
    Defined (writeField node key write) ↔ Defined (write (node.child key)) :=
  defined_bind_of fun _ => defined_ok _

theorem defined_writeScalar (node : Option Node) (text : Bytes) :
    Defined (writeScalar env node text) := by
  unfold writeScalar
  split
  · exact defined_ok _
  · exact defined_ok _
  · exact defined_throwHResult _

theorem defined_toUtf8_iff (text : Wide) :
    Defined (toUtf8 env text) ↔ (text ≠ [] → 0 < toInt text.length) := by
  unfold toUtf8 TextCodec.convertUtf16ToUtf8
  by_cases hempty : text = []
  · rw [if_pos hempty]
    exact iff_of_true (defined_ok _) fun h => absurd hempty h
  · rw [if_neg hempty]
    by_cases hlen : toInt text.length ≤ 0
    · rw [if_pos hlen]
      exact iff_of_false (fun h => h rfl) fun h => absurd (h hempty) (not_lt.2 hlen)
    · rw [if_neg hlen]
      refine iff_of_true ?_ fun _ => not_le.1 hlen
      cases env.encode (text.take (toInt text.length).toNat) with
      | none => exact defined_throwHResult _
      | some b =>
        by_cases hshort : b.length < 2 ^ 31
        · simp only [if_pos hshort]
          exact defined_ok _
        · simp only [if_neg hshort]
          exact defined_throwHResult _

/-- A text that is written is converted, unless there is a container in its place. -/
theorem defined_writeString_iff (child : Option Node) (value : StringAndMatchType) :
    Defined (writeStringAndMatchTypeToNode env child value) ↔ LengthFits child value.2 := by
  unfold writeStringAndMatchTypeToNode LengthFits
  cases hcontainer : child.any Node.isContainer with
  | true => exact iff_of_true (defined_throwHResult _) fun h => by cases h
  | false =>
    rw [if_neg (by decide), defined_bind_of fun u8str => defined_writeScalar env child _,
      defined_toUtf8_iff]
    exact ⟨fun h _ => h, fun h => h rfl⟩

theorem defined_setPattern_iff (node : Node) (filter : Filter) (key : FilterKey)
    (value : StringAndMatchType) :
    Defined (key.set env node filter value) ↔ LengthFits (node.child key.key) value.2 := by
  rw [Filter.Slot.set_eq, defined_bind_of fun n => defined_ok _]
  unfold Filter.writeFilterStringMatchType
  by_cases hempty : value.2 = [] ∧ value.1 = .contains
  · rw [if_pos hempty]
    exact iff_of_true (defined_ok _) fun _ h => absurd hempty.1 h
  · rw [if_neg hempty, defined_bind_of fun child => defined_ok _, defined_writeString_iff]

/-- A setter that checks its value assumes no more than that. -/
theorem defined_checkedWrite_iff {A : Type} {cond : Bool} {changed : Prop} [Decidable changed]
    {node : Node} {key : Bytes} {write : Option Node → Except Fault Node}
    (hwrite : ∀ child, Defined (write child)) {written : Node → Node × A} {unchanged : Node × A} :
    Defined (uncheckedAssert cond >>= fun _ =>
      if changed then writeField node key write >>= fun n => .ok (written n)
      else .ok unchanged) ↔ cond = true := by
  rw [defined_bind_of, defined_uncheckedAssert_iff]
  intro _
  split_ifs
  · rw [defined_bind_of fun n => defined_ok _, defined_writeField_iff]
    exact hwrite _
  · exact defined_ok _

theorem defined_setAction_absolute_iff (lane : Lane) (node : Node) (detail : AbsoluteMoveAndResize)
    (value : ℤ) : Defined (AbsoluteMoveAndResizeViewModel.setAction env lane node detail value) ↔
      AbsoluteMoveAndResizeViewModel.accepts lane value = true := by
  cases lane <;> exact defined_checkedWrite_iff fun child => defined_writeScalar env child _

theorem defined_setId_iff (node : Node) (detail : RelativeMoveAndResize F) (value : ℤ) :
    Defined (detail.setId env node value) ↔ acceptsId value = true := by
  unfold RelativeMoveAndResize.setId acceptsId
  by_cases hunset : value = NumericLimit.kRelativeMonitorIdUnset
  · rw [if_pos hunset, decide_eq_true hunset]
    exact iff_of_true (defined_ok _) rfl
  · rw [if_neg hunset, decide_eq_false hunset, Bool.false_or]
    exact defined_checkedWrite_iff fun child => defined_writeScalar env child _

theorem defined_setName_iff (node : Node) (detail : RelativeMoveAndResize F)
    (value : StringAndMatchType) : Defined (detail.setName env node value) ↔
      (detail.name ≠ value → LengthFits (node.child Key.kMonitorName) value.2) := by
  unfold RelativeMoveAndResize.setName
  by_cases hnew : detail.name ≠ value
  · rw [if_pos hnew, defined_bind_of fun n => defined_ok _, defined_writeField_iff,
      defined_writeString_iff]
    exact ⟨fun h _ => h, fun h => h hnew⟩
  · rw [if_neg hnew]
    exact iff_of_true (defined_ok _) fun h => absurd h hnew

end Writing

theorem defined_setAction_relative_iff (lane : Lane) (node : Node) (detail : RelativeMoveAndResize F)
    (value : F) : Defined (RelativeMoveAndResizeViewModel.setAction env lane node detail value) ↔
      RelativeMoveAndResizeViewModel.accepts value = true := by
  cases lane <;> exact defined_checkedWrite_iff fun child => defined_writeScalar env child _

/-- **A call has an outcome** exactly if what the release build assumes of it is true. -/
theorem defined_call_iff (rule : Rule) (c : Setter F) :
    Defined (c.call env rule) ↔ c.Assumed rule := by
  cases c with
  | triggerFlags value => exact iff_of_true (defined_ok _) trivial
  | actionType value => exact iff_of_true (defined_ok _) trivial
  | pattern key value =>
    exact (defined_bind_of fun _ => defined_ok _).trans (defined_setPattern_iff env _ _ key value)
  | absolute lane detail value =>
    exact (defined_bind_of fun _ => defined_ok _).trans
      (defined_setAction_absolute_iff env lane _ detail value)
  | relative lane detail value =>
    exact (defined_bind_of fun _ => defined_ok _).trans
      (defined_setAction_relative_iff env lane _ detail value)
  | id detail value =>
    exact (defined_bind_of fun _ => defined_ok _).trans (defined_setId_iff env _ detail value)
  | name detail value =>
    exact (defined_bind_of fun _ => defined_ok _).trans (defined_setName_iff env _ detail value)

/-! ### Rules that can be read from their nodes -/

/-- A rule that is made from the node afresh is the same. -/
def Fresh (rule : Rule) : Prop := Rule.ofNode env rule.node rule.index = .ok rule

/-- The parts of a rule, each read from its place. -/
structure ReadFrom (rule : Rule) : Prop where
  isRule : IsRule rule.node
  name : readStringFromNode env (rule.node.child Key.kName) .name = .ok rule.name
  filter : Filter.ofNode env (Rule.whereNode rule.node) = .ok rule.filter
  triggers : readTriggerFlagsFromNode rule.node = .ok rule.triggers
  action : Action.ofNode (Rule.thenNode rule.node) = .ok rule.action

omit [FloatLike F] in
theorem fresh_iff {rule : Rule} : Fresh env rule ↔ ReadFrom env rule := by
  constructor
  · intro h
    simp only [Fresh, Rule.ofNode, bind_eq_ok] at h
    obtain ⟨_, hcheck, name, hname, filter, hfilter, triggers, htriggers, action, haction, hrule⟩ := h
    obtain ⟨node, name', filter', index, triggers', action'⟩ := rule
    cases hrule
    exact ⟨isRule_of_checkRuleNode hcheck, hname, hfilter, htriggers, haction⟩
  · rintro ⟨⟨hmap, hwhere, hthen⟩, hname, hfilter, htriggers, haction⟩
    have hcheck : checkRuleNode rule.node = .ok () := by
      simp [checkRuleNode, hmap, hwhere, hthen]
    simp only [Fresh, Rule.ofNode, bind_eq_ok]
    exact ⟨(), hcheck, _, hname, _, hfilter, _, htriggers, _, haction, rfl⟩

/-- Reading the triggers looks at one child. -/
theorem readTriggerFlagsFromNode_congr {n n' : Node} (hmap : n.isMap = true) (hmap' : n'.isMap = true)
    (h : n'.child Key.kWhen = n.child Key.kWhen) :
    readTriggerFlagsFromNode n' = readTriggerFlagsFromNode n := by
  unfold readTriggerFlagsFromNode
  rw [hmap, hmap', h]

/-- The other children of the rule are as they were. -/
theorem child_writeTriggerFlagsToNode_of_ne {key : Bytes} (h : key ≠ Key.kWhen) (n : Node)
    (value : TriggerFlags) : (writeTriggerFlagsToNode n value).child key = n.child key := by
  unfold writeTriggerFlagsToNode
  cases n.child Key.kWhen with
  | none => exact lookup_insertBefore_of_ne h.symm n.entries
  | some w => exact Node.child_setChild_of_ne n h _

/-! ### Calls on a part of the rule -/

section Parts

variable {env} {rule : Rule}

omit [FloatLike F] in
/-- The other parts are read as before when the node of the filter is replaced. -/
theorem ReadFrom.setWhere_iff (h : ReadFrom env rule) {whereNode : Node} {filter : Filter} :
    ReadFrom env { rule with node := rule.node.setChild Key.kWhere whereNode, filter } ↔
      Filter.ofNode env whereNode = .ok filter := by
  have hwhere : Rule.whereNode (rule.node.setChild Key.kWhere whereNode) = whereNode := by
    simp [Rule.whereNode]
  have hthen : Rule.thenNode (rule.node.setChild Key.kWhere whereNode) = Rule.thenNode rule.node := by
    rw [Rule.thenNode, Node.child_setChild_of_ne _ (by decide), Rule.thenNode]
  constructor
  · intro h'
    rw [← hwhere]
    exact h'.filter
  · intro hfilter
    refine ⟨h.isRule.setChild Key.kWhere whereNode, ?_, ?_, ?_, ?_⟩
    · rw [Node.child_setChild_of_ne _ (by decide)]
      exact h.name
    · rw [hwhere]
      exact hfilter
    · rw [readTriggerFlagsFromNode_congr h.isRule.isMap rfl (Node.child_setChild_of_ne _ (by decide) _)]
      exact h.triggers
    · rw [hthen]
      exact h.action

omit [FloatLike F] in
/-- The other parts are read as before when the node of the action is replaced. -/
theorem ReadFrom.setThen_iff (h : ReadFrom env rule) {thenNode : Node} {action : Action} :
    ReadFrom env { rule with node := rule.node.setChild Key.kThen thenNode, action } ↔
      Action.ofNode thenNode = .ok action := by
  have hthen : Rule.thenNode (rule.node.setChild Key.kThen thenNode) = thenNode := by
    simp [Rule.thenNode]
  have hwhere : Rule.whereNode (rule.node.setChild Key.kThen thenNode) =
      Rule.whereNode rule.node := by
    rw [Rule.whereNode, Node.child_setChild_of_ne _ (by decide), Rule.whereNode]
  constructor
  · intro h'
    rw [← hthen]
    exact h'.action
  · intro haction
    refine ⟨h.isRule.setChild Key.kThen thenNode, ?_, ?_, ?_, ?_⟩
    · rw [Node.child_setChild_of_ne _ (by decide)]
      exact h.name
    · rw [hwhere]
      exact h.filter
    · rw [readTriggerFlagsFromNode_congr h.isRule.isMap rfl (Node.child_setChild_of_ne _ (by decide) _)]
      exact h.triggers
    · rw [hthen]
      exact haction

omit [FloatLike F] in
/-- **The triggers** are read back, and the other parts as before. -/
theorem ReadFrom.setTriggerFlags (h : ReadFrom env rule) (value : TriggerFlags) :
    ReadFrom env (rule.setTriggerFlags value) := by
  unfold Rule.setTriggerFlags
  split_ifs
  · exact h
  · have hchild : ∀ {key : Bytes}, key ≠ Key.kWhen →
        (writeTriggerFlagsToNode rule.node value).child key = rule.node.child key :=
      fun hkey => child_writeTriggerFlagsToNode_of_ne hkey rule.node value
    have hread := readTriggerFlagsFromNode_write h.isRule.hasWhere
      (fun w hw => isMap_of_readTriggerFlags h.triggers hw) value
    refine ⟨h.isRule.writeTriggerFlags value, ?_, ?_, hread, ?_⟩
    · rw [hchild (by decide)]
      exact h.name
    · rw [Rule.whereNode, hchild (by decide)]
      exact h.filter
    · rw [Rule.thenNode, hchild (by decide)]
      exact h.action

/-- The type of an action is read from one child. -/
theorem actionOfNode_eq_ok {node : Node} {action : Action} : Action.ofNode node = .ok action ↔
    node.isMap = true ∧ readActionTypeFromNode node = .ok action.type := by
  unfold Action.ofNode
  cases node.isMap with
  | false => simp [throwParse]
  | true =>
    simp only [Bool.not_true, Bool.false_eq_true, if_false, bind_eq_ok, true_and]
    constructor
    · rintro ⟨type, htype, haction⟩
      cases haction
      exact htype
    · intro htype
      exact ⟨_, htype, rfl⟩

omit [FloatLike F] in
/-- **A pattern** that is written can be read back exactly if it is storable. -/
theorem ReadFrom.setPattern_iff (h : ReadFrom env rule) {key : FilterKey} {value : StringAndMatchType}
    {rule' : Rule} (hcall : setSettingsStringFilterValue env rule key value = .ok rule') :
    ReadFrom env rule' ↔ Filter.StorableAt env (Rule.whereNode rule.node) key value := by
  obtain ⟨⟨whereNode, filter⟩, hset, hrule⟩ := bind_eq_ok.1 hcall
  cases hrule
  have hstep : Filter.step env (.ok (Rule.whereNode rule.node, rule.filter)) (key, value) =
      .ok (whereNode, filter) := hset
  have hiff := Filter.agrees_step_iff env (.ok (Rule.whereNode rule.node, rule.filter)) (key, value)
    ⟨_, _, rfl, h.filter⟩
  rw [hstep] at hiff
  rw [h.setWhere_iff]
  constructor
  · intro hread
    exact hiff.1 ⟨_, _, rfl, hread⟩ _ _ rfl
  · intro hstorable
    obtain ⟨node, filter', heq, hread⟩ := hiff.2 fun node filter' heq => by
      cases heq
      exact hstorable
    cases heq
    exact hread

@[simp] theorem isMap_removeField (n : Node) (key : Bytes) :
    (removeField n key).isMap = n.isMap := by
  unfold removeField
  split_ifs with hchild
  · cases n with
    | map entries => rfl
    | scalar s => cases hchild
    | seq items => cases hchild
  · rfl

/-- The node of an action after a call: still a map, with the same entries for the type. -/
def KeepsType (node node' : Node) : Prop :=
  node.isMap = true → node'.isMap = true ∧
    KeyedList.valuesAt Key.kType node'.entries = KeyedList.valuesAt Key.kType node.entries

theorem KeepsType.refl (node : Node) : KeepsType node node := fun hmap => ⟨hmap, rfl⟩

theorem KeepsType.child {node node' : Node} (h : KeepsType node node') (hmap : node.isMap = true) :
    node'.child Key.kType = node.child Key.kType := by
  rw [Node.child, Node.child, KeyedList.lookup_eq_head?, KeyedList.lookup_eq_head?, (h hmap).2]

theorem keepsType_setChild (node child : Node) {key : Bytes} (h : key ≠ Key.kType) :
    KeepsType node (node.setChild key child) := by
  intro _
  exact ⟨rfl, KeyedList.valuesAt_set_of_ne h.symm child node.entries⟩

theorem keepsType_removeField (node : Node) {key : Bytes} (h : key ≠ Key.kType) :
    KeepsType node (removeField node key) := by
  intro hmap
  refine ⟨(isMap_removeField node key).trans hmap, ?_⟩
  rw [entries_removeField, KeyedList.valuesAt_erase_of_ne h.symm]

theorem keepsType_writeField {node node' : Node} {key : Bytes} (h : key ≠ Key.kType)
    {write : Option Node → Except Fault Node} (hwrite : writeField node key write = .ok node') :
    KeepsType node node' := by
  obtain ⟨child, -, hnode⟩ := bind_eq_ok.1 hwrite
  cases hnode
  exact keepsType_setChild node child h

/-- A setter that checks its value and writes it where it is new. -/
theorem keepsType_checkedWrite {A : Type} {cond : Bool} {changed : Prop} [Decidable changed]
    {node : Node} {key : Bytes} (h : key ≠ Key.kType) {write : Option Node → Except Fault Node}
    {written : Node → Node × A} (hwritten : ∀ n, (written n).1 = n) {unchanged r : Node × A}
    (hunchanged : unchanged.1 = node)
    (hset : (uncheckedAssert cond >>= fun _ =>
      if changed then writeField node key write >>= fun n => .ok (written n)
      else .ok unchanged) = .ok r) : KeepsType node r.1 := by
  obtain ⟨_, -, hset⟩ := bind_eq_ok.1 hset
  split_ifs at hset
  · obtain ⟨n, hn, hr⟩ := bind_eq_ok.1 hset
    cases hr
    rw [hwritten]
    exact keepsType_writeField h hn
  · cases hset
    rw [hunchanged]
    exact .refl node

omit [FloatLike F] in
theorem keepsType_setAction_absolute {lane : Lane} {node : Node} {detail : AbsoluteMoveAndResize}
    {value : ℤ} {r : Node × AbsoluteMoveAndResize}
    (h : AbsoluteMoveAndResizeViewModel.setAction env lane node detail value = .ok r) :
    KeepsType node r.1 := by
  cases lane with
  | x => exact keepsType_checkedWrite (show Key.kPosX ≠ Key.kType by decide) (fun _ => rfl) rfl h
  | y => exact keepsType_checkedWrite (show Key.kPosY ≠ Key.kType by decide) (fun _ => rfl) rfl h
  | width => exact keepsType_checkedWrite (show Key.kWidth ≠ Key.kType by decide) (fun _ => rfl) rfl h
  | height => exact keepsType_checkedWrite (show Key.kHeight ≠ Key.kType by decide) (fun _ => rfl) rfl h

theorem keepsType_setAction_relative {lane : Lane} {node : Node} {detail : RelativeMoveAndResize F}
    {value : F} {r : Node × RelativeMoveAndResize F}
    (h : RelativeMoveAndResizeViewModel.setAction env lane node detail value = .ok r) :
    KeepsType node r.1 := by
  cases lane with
  | x => exact keepsType_checkedWrite (show Key.kPosX ≠ Key.kType by decide) (fun _ => rfl) rfl h
  | y => exact keepsType_checkedWrite (show Key.kPosY ≠ Key.kType by decide) (fun _ => rfl) rfl h
  | width => exact keepsType_checkedWrite (show Key.kWidth ≠ Key.kType by decide) (fun _ => rfl) rfl h
  | height => exact keepsType_checkedWrite (show Key.kHeight ≠ Key.kType by decide) (fun _ => rfl) rfl h

omit [FloatLike F] in
theorem keepsType_setId {node : Node} {detail : RelativeMoveAndResize F} {value : ℤ}
    {r : Node × RelativeMoveAndResize F} (h : detail.setId env node value = .ok r) :
    KeepsType node r.1 := by
  unfold RelativeMoveAndResize.setId at h
  by_cases hunset : value = NumericLimit.kRelativeMonitorIdUnset
  · rw [if_pos hunset] at h
    cases h
    exact keepsType_removeField node (by decide)
  · rw [if_neg hunset] at h
    exact keepsType_checkedWrite (show Key.kMonitorId ≠ Key.kType by decide) (fun _ => rfl) rfl h

omit [FloatLike F] in
theorem keepsType_setName {node : Node} {detail : RelativeMoveAndResize F}
    {value : StringAndMatchType} {r : Node × RelativeMoveAndResize F}
    (h : detail.setName env node value = .ok r) : KeepsType node r.1 := by
  unfold RelativeMoveAndResize.setName at h
  split_ifs at h
  · obtain ⟨n, hn, hr⟩ := bind_eq_ok.1 h
    cases hr
    exact keepsType_writeField (show Key.kMonitorName ≠ Key.kType by decide) hn
  · cases h
    exact .refl node

omit [FloatLike F] in
/-- **The fields of an action** are not kept in the rule, and the type stays. -/
theorem ReadFrom.setThenNode (h : ReadFrom env rule) {A : Type}
    {set : Node → Except Fault (Node × A)} {rule' : Rule}
    (hcall : Editor.setThenNode rule set = .ok rule')
    (hset : ∀ r, set (Rule.thenNode rule.node) = .ok r → KeepsType (Rule.thenNode rule.node) r.1) :
    ReadFrom env rule' := by
  obtain ⟨⟨thenNode, made⟩, hrun, hrule⟩ := bind_eq_ok.1 hcall
  cases hrule
  obtain ⟨hmap, htype⟩ := actionOfNode_eq_ok.1 h.action
  have hkeeps := hset _ hrun
  refine h.setThen_iff.2 (actionOfNode_eq_ok.2 ⟨(hkeeps hmap).1, ?_⟩)
  rw [readActionTypeFromNode, show Node.child thenNode Key.kType = _ from hkeeps.child hmap]
  exact htype

/-- No other entry that names a type comes to light when the type is removed. -/
def NoHiddenType (thenNode : Node) : Prop :=
  ∀ n ∈ (KeyedList.valuesAt Key.kType thenNode.entries)[1]?,
    ∃ t, n = .scalar t ∧ toActionType t.val = .invalid

omit [FloatLike F] in
theorem isMap_setType {n : Node} (h : n.isMap = true) (action : Action) (value : ActionType) :
    (action.setType env n value).1.isMap = true := by
  have hwrite : (Action.writeType env n value).isMap = true := by
    unfold Action.writeType
    split
    · rw [isMap_removeField, h]
    · rfl
  unfold Action.setType
  split_ifs
  · exact h
  · unfold Action.removeFieldsOf
    cases action.type with
    | invalid => exact hwrite
    | absoluteMoveAndResize => simp [AbsoluteMoveAndResize.removeFields, hwrite]
    | relativeMoveAndResize => simp [RelativeMoveAndResize.removeFields, hwrite]

omit [FloatLike F] in
/-- **A type** that is written can be read back, unless another one comes to light. -/
theorem ReadFrom.setActionType_iff (h : ReadFrom env rule) (value : ActionType) :
    ReadFrom env { rule with
        node := rule.node.setChild Key.kThen
          (rule.action.setType env (Rule.thenNode rule.node) value).1
        action := (rule.action.setType env (Rule.thenNode rule.node) value).2 } ↔
      (value = .invalid → rule.action.type ≠ .invalid → NoHiddenType (Rule.thenNode rule.node)) := by
  obtain ⟨hmap, htype⟩ := actionOfNode_eq_ok.1 h.action
  have hiff := Action.readActionType_switch_iff env (s := (Rule.thenNode rule.node, rule.action))
    htype value
  have hvalue : (rule.action.setType env (Rule.thenNode rule.node) value).2.type = value :=
    Action.switch_type env (Rule.thenNode rule.node, rule.action) value
  rw [h.setThen_iff, actionOfNode_eq_ok, hvalue]
  constructor
  · rintro ⟨-, hread⟩
    exact hiff.1 hread
  · intro hguard
    exact ⟨isMap_setType hmap rule.action value, hiff.2 hguard⟩

end Parts

/-- What is set can be told apart in the node: a pattern that is written is storable there, and a type
that is removed hides no other one. -/
def Setter.Storable (rule : Rule) : Setter F → Prop
  | .pattern key value => (∃ rule', setSettingsStringFilterValue env rule key value = .ok rule') →
      Filter.StorableAt env (Rule.whereNode rule.node) key value
  | .actionType value => value = .invalid → rule.action.type ≠ .invalid →
      NoHiddenType (Rule.thenNode rule.node)
  | _ => True

section Calls

variable {env} {rule rule' : Rule} {c : Setter F}

/-- A call that throws has set nothing. -/
theorem storable_of_error {fault : Fault} (hcall : c.call env rule = .error fault) :
    c.Storable env rule := by
  cases c with
  | pattern key value =>
    rintro ⟨rule', hok⟩
    rw [show setSettingsStringFilterValue env rule key value = _ from hcall] at hok
    cases hok
  | actionType value => cases hcall
  | triggerFlags | absolute | relative | id | name => trivial

/-- What a call that returns leaves in the node of its rule. -/
theorem ReadFrom.call_iff (h : ReadFrom env rule) (hcall : c.call env rule = .ok rule') :
    ReadFrom env rule' ↔ c.Storable env rule := by
  cases c with
  | triggerFlags value =>
    cases hcall
    exact iff_of_true (h.setTriggerFlags value) trivial
  | pattern key value =>
    rw [h.setPattern_iff hcall]
    exact ⟨fun hstorable _ => hstorable, fun hstorable => hstorable ⟨rule', hcall⟩⟩
  | actionType value =>
    cases hcall
    exact h.setActionType_iff value
  | absolute lane detail value =>
    simp only [Setter.call] at hcall
    exact iff_of_true (h.setThenNode hcall fun r hr => keepsType_setAction_absolute hr) trivial
  | relative lane detail value =>
    simp only [Setter.call] at hcall
    exact iff_of_true (h.setThenNode hcall fun r hr => keepsType_setAction_relative hr) trivial
  | id detail value =>
    simp only [Setter.call] at hcall
    exact iff_of_true (h.setThenNode hcall fun r hr => keepsType_setId hr) trivial
  | name detail value =>
    simp only [Setter.call] at hcall
    exact iff_of_true (h.setThenNode hcall fun r hr => keepsType_setName hr) trivial

end Calls

/-- **A call leaves a rule that can be read from its node** exactly if nothing that it assumes is
false, and what is set can be told apart there. -/
theorem fresh_call_iff {rule : Rule} (h : Fresh env rule) (c : Setter F) :
    (∃ rule', c.apply env rule = .ok rule' ∧ Fresh env rule') ↔
      c.Assumed rule ∧ c.Storable env rule := by
  rw [← defined_call_iff env]
  by_cases hdefined : Defined (c.call env rule)
  · rw [and_iff_right hdefined]
    cases hcall : c.call env rule with
    | error fault =>
      exact iff_of_true ⟨rule, apply_of_error hcall hdefined, h⟩ (storable_of_error hcall)
    | ok rule' =>
      rw [apply_of_ok hcall, ← ((fresh_iff env).1 h).call_iff hcall, ← fresh_iff]
      constructor
      · rintro ⟨r, hr, hfresh⟩
        cases hr
        exact hfresh
      · exact fun hfresh => ⟨rule', rfl, hfresh⟩
  · rw [apply_of_undefined hdefined]
    refine iff_of_false ?_ fun hboth => hdefined hboth.1
    rintro ⟨rule', happly, -⟩
    cases happly

/-! ### Rules in a document -/

section Documents

omit [FloatLike F]

theorem fresh_of_readRulesFrom {nodes : List Node} {index : ℕ} {rules : List Rule}
    {warnings : List Warning} (h : readRulesFrom env index nodes = .ok (rules, warnings)) :
    ∀ rule ∈ rules, Fresh env rule := by
  induction nodes generalizing index rules warnings with
  | nil =>
    cases h
    simp
  | cons node nodes ih =>
    obtain ⟨rest, restWarnings, hrest, ⟨rule, hrule, rfl⟩ | ⟨err, ruleName, -, -, rfl⟩⟩ :=
      readRulesFrom_cons env h
    · obtain ⟨hnode, hindex, -⟩ := Rule.ofNode_eq_ok env hrule
      intro r hr
      rcases List.mem_cons.1 hr with rfl | hr
      · rw [Fresh, hnode, hindex]
        exact hrule
      · exact ih hrest r hr
    · exact ih hrest

/-- The elements of a sequence with the rules as they are now, the first element being number
`index`. -/
def putNodes (index : ℕ) (rules : List Rule) (nodes : List Node) : List Node :=
  rules.foldl (fun nodes rule => nodes.set (rule.index - index) rule.node) nodes

/-- Rules that come later leave the first element alone. -/
theorem putNodes_cons {index : ℕ} {rules : List Rule} (h : ∀ rule ∈ rules, index + 1 ≤ rule.index)
    (node : Node) (nodes : List Node) :
    putNodes index rules (node :: nodes) = node :: putNodes (index + 1) rules nodes := by
  induction rules generalizing nodes with
  | nil => rfl
  | cons rule rules ih =>
    have hrule := h rule List.mem_cons_self
    have hset : (node :: nodes).set (rule.index - index) rule.node =
        node :: nodes.set (rule.index - (index + 1)) rule.node := by
      rw [show rule.index - index = (rule.index - (index + 1)) + 1 by omega, List.set_cons_succ]
    have hrest := ih (fun r hr => h r (List.mem_cons_of_mem rule hr))
      (nodes.set (rule.index - (index + 1)) rule.node)
    unfold putNodes at hrest ⊢
    rw [List.foldl_cons, List.foldl_cons, hset]
    exact hrest

theorem le_index_of_map_eq {env : Externals F} {nodes : List Node} {index : ℕ}
    {rules rules₀ : List Rule} {warnings : List Warning}
    (h : readRulesFrom env index nodes = .ok (rules₀, warnings))
    (hindex : rules.map Rule.index = rules₀.map Rule.index) : ∀ rule ∈ rules, index ≤ rule.index := by
  intro rule hrule
  have hmem := List.mem_map_of_mem (f := Rule.index) hrule
  rw [hindex] at hmem
  obtain ⟨rule₀, hrule₀, heq⟩ := List.mem_map.1 hmem
  rw [← heq]
  exact (getElem?_of_mem_readRulesFrom env h rule₀ hrule₀).1

/-- Elements that were refused are refused again, and the rules take the place of those read
before. -/
theorem readRulesFrom_putNodes {nodes : List Node} {index : ℕ} {rules rules₀ : List Rule}
    {warnings : List Warning} (h : readRulesFrom env index nodes = .ok (rules₀, warnings))
    (hindex : rules.map Rule.index = rules₀.map Rule.index) (hfresh : ∀ rule ∈ rules, Fresh env rule) :
    readRulesFrom env index (putNodes index rules nodes) = .ok (rules, warnings) := by
  induction nodes generalizing index rules rules₀ warnings with
  | nil =>
    cases h
    obtain rfl : rules = [] := by simpa using hindex
    rfl
  | cons node nodes ih =>
    simp only [readRulesFrom] at h
    cases hrule : Rule.ofNode env node index with
    | ok rule₀ =>
      simp only [hrule] at h
      obtain ⟨⟨rest₀, restWarnings⟩, hrest, hret⟩ := bind_eq_ok.1 h
      cases hret
      cases rules with
      | nil => cases hindex
      | cons rule rules =>
        obtain ⟨hfirst, hothers⟩ := List.cons.inj hindex
        have hnumber : rule.index = index := hfirst.trans (Rule.ofNode_eq_ok env hrule).2.1
        have hread := hfresh rule List.mem_cons_self
        rw [Fresh, hnumber] at hread
        have hput : putNodes index (rule :: rules) (node :: nodes) =
            rule.node :: putNodes (index + 1) rules nodes := by
          rw [← putNodes_cons (le_index_of_map_eq hrest hothers)]
          simp [putNodes, hnumber]
        have hagain := ih hrest hothers fun r hr => hfresh r (List.mem_cons_of_mem rule hr)
        simp only [hput, readRulesFrom, hread, hagain]
        rfl
    | error fault =>
      simp only [hrule] at h
      cases fault with
      | parseError err =>
        simp only [bind_eq_ok] at h
        obtain ⟨ruleName, hname, content, hcontent, ⟨rest₀, restWarnings⟩, hrest, hret⟩ := h
        cases hret
        rw [putNodes_cons (le_index_of_map_eq hrest hindex)]
        simp only [readRulesFrom, hrule, bind_eq_ok]
        exact ⟨ruleName, hname, content, hcontent, _, ih hrest hindex hfresh, rfl⟩
      | hresultError hr => cases h
      | badAlloc => cases h
      | exception => cases h
      | undefined => cases h

/-- The document is read as the rules in memory, with the warnings of the first time. -/
def ReadsBack (tree : Tree) (warnings : List Warning) (rules : List Rule) : Prop :=
  readRules env (putRules tree rules) = .ok (rules, warnings)

/-- **A document is read as its rules** exactly if each of them is read from its node. -/
theorem readsBack_iff_fresh {tree : Tree} {rules rules₀ : List Rule} {warnings : List Warning}
    (h : readRules env tree = .ok (rules₀, warnings))
    (hindex : rules.map Rule.index = rules₀.map Rule.index) :
    ReadsBack env tree warnings rules ↔ ∀ rule ∈ rules, Fresh env rule := by
  refine ⟨fun hread => fresh_of_readRulesFrom env hread, fun hfresh => ?_⟩
  have hput := readRulesFrom_putNodes env h hindex hfresh
  have hnodes : ruleNodes (putRules tree rules) = putNodes 1 rules (ruleNodes tree) := by
    unfold putRules
    split
    · rename_i nodes hseq
      have hbefore : ruleNodes tree = nodes := by rw [ruleNodes, hseq]
      cases tree with
      | none => cases hseq
      | some n => simp [ruleNodes, putNodes, show n.child Key.kRules = _ from hseq]
    · rename_i hno
      have hnil : ruleNodes tree = [] := by
        unfold ruleNodes
        split
        · rename_i nodes hseq
          exact absurd hseq (hno nodes)
        · rfl
      rw [readRules, hnil] at h
      cases h
      obtain rfl : rules = [] := by simpa using hindex
      rfl
  rw [ReadsBack, readRules, hnodes]
  exact hput

end Documents

/-! ### Sequences of calls -/

theorem index_apply {rule rule' : Rule} {c : Setter F} (h : c.apply env rule = .ok rule') :
    rule'.index = rule.index := by
  by_cases hdefined : Defined (c.call env rule)
  swap
  · rw [apply_of_undefined hdefined] at h
    cases h
  cases hcall : c.call env rule with
  | error fault =>
    rw [apply_of_error hcall hdefined] at h
    cases h
    rfl
  | ok rule₁ =>
    rw [apply_of_ok hcall] at h
    cases h
    cases c with
    | triggerFlags value =>
      cases hcall
      unfold Rule.setTriggerFlags
      split_ifs <;> rfl
    | actionType value =>
      cases hcall
      rfl
    | pattern key value =>
      obtain ⟨_, -, hrule⟩ := bind_eq_ok.1 hcall
      cases hrule
      rfl
    | absolute | relative | id | name =>
      obtain ⟨_, -, hrule⟩ := bind_eq_ok.1 hcall
      cases hrule
      rfl

/-- A call on the rule at a position. -/
def callStep (s : Except Fault (List Rule)) (call : ℕ × Setter F) : Except Fault (List Rule) := do
  let rules ← s
  match rules[call.1]? with
  | some rule =>
    let rule ← call.2.apply env rule
    .ok (rules.set call.1 rule)
  | none => .ok rules

/-- What the call assumes is true, and what it sets can be told apart in the node of its rule. -/
def CallStorable (s : Except Fault (List Rule)) (call : ℕ × Setter F) : Prop :=
  ∀ rules rule, s = .ok rules → rules[call.1]? = some rule →
    call.2.Assumed rule ∧ call.2.Storable env rule

section CallStep

variable {env} {rules rules' : List Rule} {call : ℕ × Setter F}

theorem callStep_of_none (h : rules[call.1]? = none) : callStep env (.ok rules) call = .ok rules := by
  show (match rules[call.1]? with
    | some rule => call.2.apply env rule >>= fun rule => .ok (rules.set call.1 rule)
    | none => .ok rules) = _
  rw [h]

theorem callStep_of_some {rule : Rule} (h : rules[call.1]? = some rule) :
    callStep env (.ok rules) call = .ok rules' ↔
      ∃ rule', call.2.apply env rule = .ok rule' ∧ rules' = rules.set call.1 rule' := by
  have hstep : callStep env (.ok rules) call =
      call.2.apply env rule >>= fun rule => .ok (rules.set call.1 rule) := by
    show (match rules[call.1]? with
      | some rule => call.2.apply env rule >>= fun rule => .ok (rules.set call.1 rule)
      | none => .ok rules) = _
    rw [h]
  rw [hstep, bind_eq_ok]
  simp only [Except.ok.injEq, eq_comm]

theorem map_index_callStep (h : callStep env (.ok rules) call = .ok rules') :
    rules'.map Rule.index = rules.map Rule.index := by
  cases hrule : rules[call.1]? with
  | none =>
    rw [callStep_of_none hrule] at h
    cases h
    rfl
  | some rule =>
    obtain ⟨rule', happly, rfl⟩ := (callStep_of_some hrule).1 h
    rw [List.map_set, index_apply env happly]
    apply List.ext_getElem?
    intro i
    rw [List.getElem?_set]
    split_ifs with hposition hlength
    · rw [← hposition, List.getElem?_map, hrule]
      rfl
    · rw [List.getElem?_eq_none (by omega)]
    · rfl

/-- A call keeps all rules readable exactly if what it assumes is true and what it sets can be told
apart. -/
theorem fresh_callStep_iff (h : ∀ rule ∈ rules, Fresh env rule) :
    (∃ rules', callStep env (.ok rules) call = .ok rules' ∧ ∀ rule ∈ rules', Fresh env rule) ↔
      CallStorable env (.ok rules) call := by
  cases hrule : rules[call.1]? with
  | none =>
    refine iff_of_true ⟨rules, callStep_of_none hrule, h⟩ ?_
    rintro _ rule ⟨⟩ hsome
    rw [hrule] at hsome
    cases hsome
  | some rule =>
    have hmem := List.mem_of_getElem? hrule
    have hguard : CallStorable env (.ok rules) call ↔
        call.2.Assumed rule ∧ call.2.Storable env rule := by
      constructor
      · exact fun hall => hall rules rule rfl hrule
      · rintro hone _ rule₁ ⟨⟩ hrule₁
        rw [hrule] at hrule₁
        cases hrule₁
        exact hone
    rw [hguard, ← fresh_call_iff env (h rule hmem)]
    constructor
    · rintro ⟨rules', hstep, hfresh⟩
      obtain ⟨rule', happly, rfl⟩ := (callStep_of_some hrule).1 hstep
      refine ⟨rule', happly, hfresh rule' ?_⟩
      apply List.mem_of_getElem? (i := call.1)
      rw [List.getElem?_set_self (List.getElem?_eq_some_iff.1 hrule).1]
    · rintro ⟨rule', happly, hfresh⟩
      refine ⟨_, (callStep_of_some hrule).2 ⟨rule', happly, rfl⟩, fun r hr => ?_⟩
      rcases List.mem_or_eq_of_mem_set hr with hold | rfl
      · exact h r hold
      · exact hfresh

end CallStep

/-- Every call so far has had an outcome, and the document is read as the rules that have come of
them. -/
def StaysReadable (tree : Tree) (warnings : List Warning) (s : Except Fault (List Rule)) : Prop :=
  ∃ rules, s = .ok rules ∧ ReadsBack env tree warnings rules

/-- **The document can be read back along a sequence of calls** exactly as long as every call meets
the assumptions of its setter and sets what can be told apart in its node. -/
theorem document_readsBack_iff {tree : Tree} {rules : List Rule} {warnings : List Warning}
    (h : readRules env tree = .ok (rules, warnings)) (calls : List (ℕ × Setter F)) :
    Run.Always (callStep env) (StaysReadable env tree warnings) (.ok rules) calls ↔
      Run.AllSteps (callStep env) (CallStorable env) (.ok rules) calls := by
  refine Run.always_iff_of_invariant
    (P := fun s : Except Fault (List Rule) => ∃ rules', s = .ok rules' ∧
      rules'.map Rule.index = rules.map Rule.index ∧ ∀ rule ∈ rules', Fresh env rule)
    ?_ ?_ ?_ ⟨rules, rfl, rfl, fresh_of_readRulesFrom env h⟩ calls
  · rintro _ call ⟨rules', rfl, hindex, hfresh⟩ hguard
    obtain ⟨rules'', hstep, hfresh'⟩ := (fresh_callStep_iff hfresh).2 hguard
    exact ⟨rules'', hstep, (map_index_callStep hstep).trans hindex, hfresh'⟩
  · rintro _ ⟨rules', rfl, hindex, hfresh⟩
    exact ⟨rules', rfl, (readsBack_iff_fresh env h hindex).2 hfresh⟩
  · rintro _ call ⟨rules', rfl, hindex, hfresh⟩ ⟨rules'', hstep, hread⟩
    have hafter := (map_index_callStep hstep).trans hindex
    exact (fresh_callStep_iff hfresh).1
      ⟨rules'', hstep, (readsBack_iff_fresh env h hafter).1 hread⟩

/-- The document with one rule that restricts nothing and does nothing. -/
def idleDocument : Tree := some (.map [(Key.kRules, .seq [idleRule])])

/-- A rule is given a title, its triggers and a type. -/
theorem document_readsBack_idle :
    ∃ rules warnings, readRules asciiExternals idleDocument = .ok (rules, warnings) ∧
      Run.Always (callStep asciiExternals) (StaysReadable asciiExternals idleDocument warnings)
        (.ok rules)
        [(0, .pattern .windowTitle (.startsWith, wide "a")),
         (0, .triggerFlags { windowFocus := true }),
         (0, .actionType .absoluteMoveAndResize)] := by
  refine ⟨_, _, rfl, (document_readsBack_iff asciiExternals rfl _).2 ⟨?_, ?_, ?_, trivial⟩⟩
  · intro rules rule hrules hrule
    cases hrules
    cases hrule
    refine ⟨fun _ _ => by decide, fun _ => ?_⟩
    rw [Filter.StorableAt, if_neg (by decide)]
    exact ⟨ascii "a", by decide, by decide, by decide, by decide, by decide⟩
  · intro rules rule _ _
    exact ⟨trivial, trivial⟩
  · intro rules rule _ _
    exact ⟨trivial, fun hinvalid => by cases hinvalid⟩

end RoxyGlance.Editor
