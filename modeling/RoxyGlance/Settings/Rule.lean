import RoxyGlance.Settings.Filter
import RoxyGlance.Settings.Action

/-!
# Rules

A `Rule` is built from one element of the `rules` sequence.  Building a rule checks the shape of
its node, the name, the three patterns, the triggers and the action type, but not the fields of
the action.  `readRules` builds the rules one by one; an element that is refused with a
`ParseError` is skipped with a warning.
-/

namespace RoxyGlance.Settings

variable {F : Type} (env : Externals F)

/-- `Rule`, with the element of the sequence it is bound to. -/
structure Rule where
  node : Node
  name : Wide
  filter : Filter
  index : ℕ
  triggers : TriggerFlags
  action : Action

/-- `checkRuleNode` -/
def checkRuleNode (n : Node) : Except Fault Unit :=
  if !n.isMap then throwParse .expectedMap .rule
  else if !n.hasChild Key.kWhere then throwParse .missingRequiredKey .where
  else if !n.hasChild Key.kThen then throwParse .missingRequiredKey .then
  else .ok ()

namespace Rule

/-- The node of the filter; a reference to a missing child is not a map. -/
def whereNode (n : Node) : Node := (n.child Key.kWhere).getD (.seq [])

/-- The node of the action. -/
def thenNode (n : Node) : Node := (n.child Key.kThen).getD (.seq [])

/-- The constructor. -/
def ofNode (node : Node) (index : ℕ) : Except Fault Rule := do
  checkRuleNode node
  let name ← readStringFromNode env (node.child Key.kName) .name
  let filter ← Filter.ofNode env (whereNode node)
  let triggers ← readTriggerFlagsFromNode node
  let action ← Action.ofNode (thenNode node)
  .ok { node, name, filter, index, triggers, action }

/-- A rule is bound to its node, and its parts are read from there. -/
theorem ofNode_eq_ok {node : Node} {index : ℕ} {rule : Rule} (h : ofNode env node index = .ok rule) :
    rule.node = node ∧ rule.index = index ∧
      Filter.ofNode env (whereNode node) = .ok rule.filter ∧
      readTriggerFlagsFromNode node = .ok rule.triggers ∧
      Action.ofNode (thenNode node) = .ok rule.action := by
  simp only [ofNode, bind_eq_ok] at h
  obtain ⟨-, -, name, -, filter, hfilter, triggers, htriggers, action, haction, hrule⟩ := h
  cases hrule
  exact ⟨rfl, rfl, hfilter, htriggers, haction⟩

/-- `setTriggerFlags` -/
def setTriggerFlags (self : Rule) (value : TriggerFlags) : Rule :=
  if self.triggers = value then self
  else { self with node := writeTriggerFlagsToNode self.node value, triggers := value }

end Rule

/-! ### Warnings -/

/-- `convertKeyName` -/
def convertKeyName : KeyId → Wide
  | .rule => wide "rules[]"
  | .name => wide "name"
  | .when => wide "when"
  | .where => wide "where"
  | .then => wide "then"
  | .processImageName => wide "process"
  | .windowClass => wide "class"
  | .windowTitle => wide "title"
  | .actionType => wide "type"
  | .positionX => wide "x"
  | .positionY => wide "y"
  | .width => wide "width"
  | .height => wide "height"
  | .monitorId => wide "id"
  | .monitorName => wide "name"
  | .none => wide "?"

/-- `convertString`: the UTF-16 form of a text, or the code of the `hresult_error` thrown. -/
def convertString (u8str : Bytes) : Except Fault (Except HResult Wide) :=
  if u8str = [] then .ok (.ok [])
  else env.convertUtf8ToUtf16 u8str (toInt u8str.length)

/-- `makeRuleDisplayName`: the quoted name, or the position when there is no readable name. -/
def makeRuleDisplayName (rule : Node) (err : ParseError) (index : ℕ) : Except Fault Wide :=
  let position := wide "#" ++ wide (toString index)
  if err.keyId = .rule then .ok position
  else match rule.child Key.kName with
    | some (.scalar s) =>
      if s.isNull then .ok position
      else do
        match ← convertString env s.val with
        | .ok name => .ok (wide "\"" ++ name ++ wide "\"")
        | .error hr =>
          if hr = HResult.kErrorNoUnicodeTranslation then .ok position
          else .error (throwHResult hr)
    | _ => .ok position

/-- What a message says about the key. -/
def reasonText : ParseErrorReason → Wide
  | .missingRequiredKey => wide " is missing"
  | .expectedString => wide " must be a string"
  | .expectedNumber => wide " must be a number"
  | .expectedMap => wide " must be a map"
  | .expectedSequence => wide " must be a sequence"
  | .invalidString => wide " has an invalid string"
  | .invalidNumber => wide " has an invalid number"
  | .numberOutOfRange => wide " is out of range"

/-- `makeParseErrorMessage` -/
def makeParseErrorMessage (err : ParseError) (ruleName : Wide) : Except Fault Wide :=
  let keyName := wide "\"" ++ convertKeyName err.keyId ++ wide "\""
  let keyPart := match err.reason with
    | .missingRequiredKey => wide "Required key " ++ keyName
    | _ => wide "Key " ++ keyName
  let message := keyPart ++ reasonText err.reason ++ wide " in rule " ++ ruleName
  match err.reason with
  | .numberOutOfRange => do
    match ← convertString env err.content with
    | .ok content => .ok (message ++ wide ": " ++ content)
    | .error hr => .error (throwHResult hr)
  | _ => .ok message

/-- A warning in the log. -/
structure Warning where
  message : Wide
  hresult : HResult
  deriving DecidableEq, Repr

/-- The loop of `readRules` over the elements from position `index` on. -/
def readRulesFrom : ℕ → List Node → Except Fault (List Rule × List Warning)
  | _, [] => .ok ([], [])
  | index, node :: nodes =>
    match Rule.ofNode env node index with
    | .ok rule => do
      let (rules, warnings) ← readRulesFrom (index + 1) nodes
      .ok (rule :: rules, warnings)
    | .error (.parseError err) => do
      -- positions are shown as the `uint32_t` they are counted by
      let ruleName ← makeRuleDisplayName env node err (index % 2 ^ 32)
      let content ← makeParseErrorMessage env err ruleName
      let (rules, warnings) ← readRulesFrom (index + 1) nodes
      .ok (rules, { message := content, hresult := HResult.invalidArg } :: warnings)
    | .error e => .error e

/-- The elements of the `rules` sequence; anything else under the key counts as no rules. -/
def ruleNodes (n : Tree) : List Node :=
  match n.bind fun n => n.child Key.kRules with
  | some (.seq rules) => rules
  | _ => []

/-- `readRules` -/
def readRules (n : Tree) : Except Fault (List Rule × List Warning) :=
  readRulesFrom env 1 (ruleNodes n)

/-- One element: a rule in front of the others, or a refusal that has been reported. -/
theorem readRulesFrom_cons {node : Node} {nodes : List Node} {index : ℕ} {rules : List Rule}
    {warnings : List Warning}
    (h : readRulesFrom env index (node :: nodes) = .ok (rules, warnings)) :
    ∃ rest restWarnings, readRulesFrom env (index + 1) nodes = .ok (rest, restWarnings) ∧
      ((∃ rule, Rule.ofNode env node index = .ok rule ∧ rules = rule :: rest) ∨
        ∃ err ruleName, Rule.ofNode env node index = .error (.parseError err) ∧
          makeRuleDisplayName env node err (index % 2 ^ 32) = .ok ruleName ∧ rules = rest) := by
  simp only [readRulesFrom] at h
  cases hrule : Rule.ofNode env node index with
  | ok rule =>
    simp only [hrule] at h
    obtain ⟨⟨rest, restWarnings⟩, hrest, hret⟩ := bind_eq_ok.1 h
    cases hret
    exact ⟨rest, restWarnings, hrest, Or.inl ⟨rule, rfl, rfl⟩⟩
  | error fault =>
    simp only [hrule] at h
    cases fault with
    | parseError err =>
      simp only [bind_eq_ok] at h
      obtain ⟨ruleName, hname, content, -, ⟨rest, restWarnings⟩, hrest, hret⟩ := h
      cases hret
      exact ⟨rest, restWarnings, hrest, Or.inr ⟨err, ruleName, rfl, hname, rfl⟩⟩
    | hresultError hr => cases h
    | badAlloc => cases h
    | exception => cases h
    | undefined => cases h

/-- Every rule that was read is built from its node. -/
theorem ofNode_of_mem_readRulesFrom {nodes : List Node} {index : ℕ} {rules : List Rule}
    {warnings : List Warning} (h : readRulesFrom env index nodes = .ok (rules, warnings)) :
    ∀ rule ∈ rules, Rule.ofNode env rule.node rule.index = .ok rule := by
  induction nodes generalizing index rules warnings with
  | nil =>
    cases h
    simp
  | cons node nodes ih =>
    obtain ⟨rest, restWarnings, hrest, ⟨rule, hrule, rfl⟩ | ⟨err, ruleName, -, -, rfl⟩⟩ :=
      readRulesFrom_cons env h
    · obtain ⟨hnode, hindex, -⟩ := Rule.ofNode_eq_ok env hrule
      intro r hr
      rcases List.mem_cons.1 hr with rfl | hr
      · rw [hnode, hindex]
        exact hrule
      · exact ih hrest r hr
    · exact ih hrest

end RoxyGlance.Settings
