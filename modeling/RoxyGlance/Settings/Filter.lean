import RoxyGlance.Settings.NodeHelper

/-!
# Filters

A `Filter` caches the three patterns of a `where` node.  Its setters write through to the node and
then update the cache.  An object here is the cache alone; the node is passed along and returned.
-/

namespace RoxyGlance.Settings

variable {F : Type} (env : Externals F)

/-- `Filter`, without its node. -/
structure Filter where
  processImageName : StringAndMatchType
  windowClass : StringAndMatchType
  windowTitle : StringAndMatchType
  deriving DecidableEq, Repr

namespace Filter

/-- The constructor. -/
def ofNode (node : Node) : Except Fault Filter := do
  if !node.isMap then throwParse .expectedMap .where
  else
    let processImageName ← readStringAndMatchTypeFromNode env (node.child Key.kProcessKey)
      .processImageName
    let windowClass ← readStringAndMatchTypeFromNode env (node.child Key.kWindowClassKey)
      .windowClass
    let windowTitle ← readStringAndMatchTypeFromNode env (node.child Key.kWindowTitleKey)
      .windowTitle
    .ok { processImageName, windowClass, windowTitle }

/-- A filter is read from a map whose three children can be read. -/
theorem ofNode_eq_ok {node : Node} {filter : Filter} :
    ofNode env node = .ok filter ↔ node.isMap = true ∧
      readStringAndMatchTypeFromNode env (node.child Key.kProcessKey) .processImageName =
        .ok filter.processImageName ∧
      readStringAndMatchTypeFromNode env (node.child Key.kWindowClassKey) .windowClass =
        .ok filter.windowClass ∧
      readStringAndMatchTypeFromNode env (node.child Key.kWindowTitleKey) .windowTitle =
        .ok filter.windowTitle := by
  unfold ofNode
  cases hmap : node.isMap with
  | false => simp [throwParse]
  | true =>
    simp only [Bool.not_true, Bool.false_eq_true, if_false, bind_eq_ok, true_and]
    constructor
    · rintro ⟨processImageName, hp, windowClass, hc, windowTitle, ht, hfilter⟩
      cases hfilter
      exact ⟨hp, hc, ht⟩
    · rintro ⟨hp, hc, ht⟩
      exact ⟨_, hp, _, hc, _, ht, rfl⟩

/-- `writeFilterStringMatchType`: the pattern that matches everything is written as no entry. -/
def writeFilterStringMatchType (node : Node) (key : Bytes) (val : StringAndMatchType) :
    Except Fault Node :=
  if val.2 = [] ∧ val.1 = .contains then
    .ok (if node.hasChild key then node.removeChild key else node)
  else do
    let child ← writeStringAndMatchTypeToNode env (node.child key) val
    .ok (node.setChild key child)

/-- `setProcessImageName` -/
def setProcessImageName (node : Node) (self : Filter) (val : StringAndMatchType) :
    Except Fault (Node × Filter) := do
  let node ← writeFilterStringMatchType env node Key.kProcessKey val
  .ok (node, { self with processImageName := val })

/-- `setWindowClass` -/
def setWindowClass (node : Node) (self : Filter) (val : StringAndMatchType) :
    Except Fault (Node × Filter) := do
  let node ← writeFilterStringMatchType env node Key.kWindowClassKey val
  .ok (node, { self with windowClass := val })

/-- `setWindowTitle` -/
def setWindowTitle (node : Node) (self : Filter) (val : StringAndMatchType) :
    Except Fault (Node × Filter) := do
  let node ← writeFilterStringMatchType env node Key.kWindowTitleKey val
  .ok (node, { self with windowTitle := val })

end Filter

end RoxyGlance.Settings
