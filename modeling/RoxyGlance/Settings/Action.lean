import RoxyGlance.Settings.MoveAndResize
import RoxyGlance.Settings.Trigger

/-!
# Actions

An `Action` knows the type of its `then` node; the fields of the type are only read on demand, by
`as`.
-/

namespace RoxyGlance.Settings

/-- `ActionType` -/
inductive ActionType
  | invalid
  | absoluteMoveAndResize
  | relativeMoveAndResize
  deriving DecidableEq, Repr

namespace ActionType

/-- `enum_name`; `kInvalid` has none. -/
def name : ActionType → Option Bytes
  | invalid => none
  | absoluteMoveAndResize => some (ascii "absolute_move_and_resize")
  | relativeMoveAndResize => some (ascii "relative_move_and_resize")

end ActionType

/-- `toActionType` -/
def toActionType (str : Bytes) : ActionType :=
  ([ActionType.absoluteMoveAndResize, .relativeMoveAndResize].find? fun t =>
    t.name.any (equalsIgnoreCase str)).getD .invalid

/-- `ReadActionTypeFromNode` -/
def readActionTypeFromNode (n : Node) : Except Fault ActionType :=
  match n.child Key.kType with
  | none => .ok .invalid
  | some (.scalar s) => .ok (toActionType s.val)
  | some _ => throwParse .expectedString .actionType

/-- `Action`, without its node. -/
structure Action where
  type : ActionType
  deriving DecidableEq, Repr

namespace Action

variable {F : Type} [FloatLike F] (env : Externals F)

/-- The constructor. -/
def ofNode (node : Node) : Except Fault Action := do
  if !node.isMap then throwParse .expectedMap .then
  else
    let type ← readActionTypeFromNode node
    .ok { type }

/-- `as<AbsoluteMoveAndResize>` -/
def asAbsolute (node : Node) (self : Action) : Except Fault AbsoluteMoveAndResize :=
  if self.type ≠ .absoluteMoveAndResize then .error (throwHResult HResult.invalidArg)
  else AbsoluteMoveAndResize.ofNode env node

/-- `as<RelativeMoveAndResize>` -/
def asRelative (node : Node) (self : Action) : Except Fault (RelativeMoveAndResize F) :=
  if self.type ≠ .relativeMoveAndResize then .error (throwHResult HResult.invalidArg)
  else RelativeMoveAndResize.ofNode env node

/-- The entry `type` after `setType` has written the new name. -/
def writeType (n : Node) (value : ActionType) : Node :=
  match value.name with
  | none => removeField n Key.kType
  | some valueName =>
    let quoted := match n.child Key.kType with
      | some (.scalar s) => env.requote s.quoted
      | _ => false
    n.setChild Key.kType (.scalar { quoted, text := some valueName })

/-- Remove the fields of a type. -/
def removeFieldsOf (type : ActionType) (n : Node) : Node :=
  match type with
  | .invalid => n
  | .absoluteMoveAndResize => AbsoluteMoveAndResize.removeFields n
  | .relativeMoveAndResize => RelativeMoveAndResize.removeFields n

/-- `setType`: write the new name, then remove the fields of the old type. -/
def setType (node : Node) (self : Action) (value : ActionType) : Node × Action :=
  if self.type = value then (node, self)
  else (removeFieldsOf self.type (writeType env node value), { type := value })

end Action

end RoxyGlance.Settings
