import RoxyGlance.Settings.NodeHelper

/-!
# Triggers

A rule names the events it reacts to under `when`, as one scalar or as a sequence.  Names are
compared without regard to case, unknown names are ignored when reading and kept when writing.
-/

namespace RoxyGlance.Settings

/-- `tolower` on ASCII, as `magic_enum::case_insensitive` compares characters. -/
def toLower (c : UInt8) : UInt8 := if 65 ≤ c ∧ c ≤ 90 then c + 32 else c

/-- Equality without regard to case. -/
def equalsIgnoreCase (a b : Bytes) : Bool := decide (a.map toLower = b.map toLower)

/-- The single flags of `TriggerFlags`. -/
inductive Trigger
  | applicationStart
  | windowFocus
  | windowShow
  deriving DecidableEq, Repr

namespace Trigger

/-- `kAllTriggerFlags` -/
def all : List Trigger := [applicationStart, windowFocus, windowShow]

/-- `enum_name` -/
def name : Trigger → Bytes
  | applicationStart => ascii "init"
  | windowFocus => ascii "focus"
  | windowShow => ascii "show"

end Trigger

/-- `TriggerFlags` -/
structure TriggerFlags where
  applicationStart : Bool := false
  windowFocus : Bool := false
  windowShow : Bool := false
  deriving DecidableEq, Repr

namespace TriggerFlags

/-- `kNone` -/
def none : TriggerFlags := {}

/-- `enum_flags_test` of a single flag. -/
def test (flags : TriggerFlags) : Trigger → Bool
  | .applicationStart => flags.applicationStart
  | .windowFocus => flags.windowFocus
  | .windowShow => flags.windowShow

/-- `flags | trigger` -/
def insert (flags : TriggerFlags) : Trigger → TriggerFlags
  | .applicationStart => { flags with applicationStart := true }
  | .windowFocus => { flags with windowFocus := true }
  | .windowShow => { flags with windowShow := true }

@[simp] theorem test_none (t : Trigger) : none.test t = false := by cases t <;> rfl

theorem test_insert (flags : TriggerFlags) (t t' : Trigger) :
    (flags.insert t).test t' = (decide (t = t') || flags.test t') := by
  cases t <;> cases t' <;> rfl

end TriggerFlags

/-- `toOptionalTriggerFlags` -/
def toOptionalTriggerFlags (str : Bytes) : Option Trigger :=
  Trigger.all.find? fun t => equalsIgnoreCase str t.name

/-- `flags | toTriggerFlags(str)`: an unknown name adds nothing. -/
def addTriggerFlags (flags : TriggerFlags) (str : Bytes) : TriggerFlags :=
  match toOptionalTriggerFlags str with
  | some t => flags.insert t
  | none => flags

/-- The trigger an element of a sequence names. -/
def triggerOf : Node → Option Trigger
  | .scalar s => toOptionalTriggerFlags s.val
  | _ => none

/-- `ReadTriggerFlagsFromNode` -/
def readTriggerFlagsFromNode (n : Node) : Except Fault TriggerFlags :=
  if !n.isMap then throwParse .expectedMap .rule
  else match n.child Key.kWhen with
    | none => .ok .none
    | some (.seq items) =>
      .ok (items.foldl (fun flags v => match v with
        | .scalar s => addTriggerFlags flags s.val
        | _ => flags) .none)
    | some (.scalar s) => .ok (addTriggerFlags .none s.val)
    | some (.map _) => throwParse .expectedSequence .when

/-! ### Writing -/

/-- Remove the elements that name a trigger which is not requested. -/
def removeTriggers (value : TriggerFlags) (items : List Node) : List Node :=
  Trigger.all.foldl (fun items t =>
    if value.test t then items else items.filter fun n => triggerOf n ≠ some t) items

/-- Append the requested triggers no element names yet. -/
def appendTriggers (value : TriggerFlags) (items : List Node) : List Node :=
  Trigger.all.foldl (fun items t =>
    if value.test t && !items.any (fun n => triggerOf n = some t) then
      items ++ [.scalar { quoted := false, text := some t.name }]
    else items) items

/-- The new value of `when`, given the one there is. -/
def updateWhen (value : TriggerFlags) (when : Node) : Node :=
  match when with
  | .seq items => .seq (appendTriggers value (removeTriggers value items))
  | _ =>
    -- a scalar becomes a sequence of itself, and a scalar again if that is all there is
    let old := match when with
      | .scalar s => s.val
      | _ => []
    match appendTriggers value
        (removeTriggers value [.scalar { quoted := false, text := some old }]) with
    | [.scalar s] => .scalar { quoted := false, text := some s.val }
    | items => .seq items

/-- Insert an entry in front of the first one with the given key. -/
def insertBefore (key : Bytes) (e : Bytes × Node) : List (Bytes × Node) → List (Bytes × Node)
  | [] => [e]
  | e' :: l => if e'.1 = key then e :: e' :: l else e' :: insertBefore key e l

/-- `WriteTriggerFlagsToNode`.  A new `when` goes in front of `where`. -/
def writeTriggerFlagsToNode (n : Node) (value : TriggerFlags) : Node :=
  match n.child Key.kWhen with
  | none => .map (insertBefore Key.kWhere (Key.kWhen, updateWhen value (.seq [])) n.entries)
  | some when => n.setChild Key.kWhen (updateWhen value when)

end RoxyGlance.Settings
