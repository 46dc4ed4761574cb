import RoxyGlance.Engine.Operation
import RoxyGlance.Settings.Rule
import RoxyGlance.Lib.BoundedVector

/-!
# Compiled rules and their evaluation

A compiled rule has triggers, at most two predicates, and an operation.  `checkRules` walks the
rules of a set in order; a rule with the trigger whose predicates all hold is executed.
-/

namespace RoxyGlance.Engine

open Settings (StringMatchType TriggerFlags Trigger)

variable {F : Type}

/-- The window property a predicate looks at. -/
inductive Field
  | processImageName
  | windowClass
  | windowTitle
  deriving DecidableEq, Repr

/-- `engine::Predicate`.  The property and the match type stand for the function pointer, one of
the twelve `matches…` functions. -/
structure Predicate where
  field : Field
  type : StringMatchType
  data : Wide
  deriving DecidableEq, Repr

namespace Predicate

/-- The comparison of a match function. -/
def test (type : StringMatchType) (data text : Wide) : Bool :=
  match type with
  | .equals => decide (text = data)
  | .contains => decide (data <:+: text)
  | .startsWith => decide (data <+: text)
  | .endsWith => decide (data <:+ text)

end Predicate

/-- The getter a match function calls. -/
def Field.get (field : Field) (q : Window.Queries F) (w : Window.State F) :
    Except Fault (Wide × Window.State F) :=
  match field with
  | .processImageName => w.getProcessImageName q
  | .windowClass => w.getWindowClass q
  | .windowTitle => w.getWindowTitle q

/-- `evaluate(data, windowState)` -/
def Predicate.evaluate (p : Predicate) (q : Window.Queries F) (w : Window.State F) :
    Except Fault (Bool × Window.State F) := do
  let (text, w) ← p.field.get q w
  .ok (Predicate.test p.type p.data text, w)

/-- The capacity of a `PredicateSet`. -/
def predicateCapacity : ℕ := 2

/-- `PredicateSet` -/
abbrev PredicateSet := BoundedVector Predicate predicateCapacity

/-- `engine::Rule` -/
structure Rule (F : Type) where
  trigger : TriggerFlags
  operation : Operation F
  condition : PredicateSet

/-- A window state and the moment of the next query. -/
structure Session (F : Type) where
  window : Window.State F
  clock : ℕ

/-- The inner loop of `checkRules`: do all predicates hold?  It stops at the first that does
not. -/
def checkCondition (world : Window.World F) :
    List Predicate → Session F → Except Fault (Bool × Session F)
  | [], s => .ok (true, s)
  | p :: ps, s => do
    let (holds, w) ← p.evaluate (world s.clock) s.window
    let s : Session F := { window := w, clock := s.clock + 1 }
    if holds then checkCondition world ps s else .ok (false, s)

/-- What `checkRules` leaves behind: the rules with their operations, the window state, and the
positions of the rules that were executed. -/
structure Checked (F : Type) where
  rules : List (Rule F)
  session : Session F
  executed : List ℕ

/-- The outer loop of `checkRules`, from the rule at `position` on. -/
def checkRulesFrom [FloatLike F] (world : Window.World F) (monitors : Monitor.StateCache F)
    (trigger : Trigger) : ℕ → List (Rule F) → Session F → Except Fault (Checked F)
  | _, [], s => .ok { rules := [], session := s, executed := [] }
  | position, rule :: rules, s =>
    if !rule.trigger.test trigger then do
      let rest ← checkRulesFrom world monitors trigger (position + 1) rules s
      .ok { rest with rules := rule :: rest.rules }
    else do
      let (matched, s) ← checkCondition world rule.condition.toList s
      if matched then
        let done ← rule.operation.execute monitors (world s.clock) s.window
        let s : Session F := { window := done.window, clock := s.clock + 1 }
        let rest ← checkRulesFrom world monitors trigger (position + 1) rules s
        .ok { rest with
              rules := { rule with operation := done.operation } :: rest.rules
              executed := position :: rest.executed }
      else
        let rest ← checkRulesFrom world monitors trigger (position + 1) rules s
        .ok { rest with rules := rule :: rest.rules }

/-- `checkRules` on a rule set. -/
def checkRules [FloatLike F] (world : Window.World F) (monitors : Monitor.StateCache F)
    (trigger : Trigger) (rules : List (Rule F)) (s : Session F) : Except Fault (Checked F) :=
  checkRulesFrom world monitors trigger 0 rules s

end RoxyGlance.Engine
