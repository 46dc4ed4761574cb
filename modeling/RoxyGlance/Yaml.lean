import RoxyGlance.Fault
import RoxyGlance.Lib.KeyedList

/-!
# The rapidyaml document tree

The part of rapidyaml's data model the settings code works on.  A node is a scalar, a sequence or
a map; a map keeps its entries in document order, may repeat a key, and is searched from the
front.  The root of a cleared tree has no type at all, so a tree is an optional node.

A reference `n[key]` to a missing child is a *seed*: reading code sees an invalid node, writing
to it appends the child.  It is modelled by `none : Option Node`.
-/

namespace RoxyGlance

/-- A scalar: whether it is written in quotes, and its text (`none`: nothing after the colon). -/
structure Scalar where
  quoted : Bool
  text : Option Bytes
  deriving DecidableEq, Repr

namespace Scalar

/-- The spellings of a null scalar. -/
def nullSpellings : List Bytes := [ascii "~", ascii "null", ascii "Null", ascii "NULL"]

/-- `val_is_null` -/
def isNull (s : Scalar) : Bool :=
  !s.quoted && match s.text with
    | none => true
    | some t => t ∈ nullSpellings

/-- `val` -/
def val (s : Scalar) : Bytes := s.text.getD []

end Scalar

/-- A node of a parsed tree. -/
inductive Node
  | scalar (s : Scalar)
  | seq (items : List Node)
  | map (entries : List (Bytes × Node))

/-- A tree by its root; `none` is the root of a cleared tree. -/
abbrev Tree := Option Node

namespace Node

/-- `is_container` -/
def isContainer : Node → Bool
  | .scalar _ => false
  | .seq _ => true
  | .map _ => true

/-- `is_map` -/
def isMap : Node → Bool
  | .map _ => true
  | _ => false

/-- The entries of a map. -/
def entries : Node → List (Bytes × Node)
  | .map es => es
  | _ => []

/-- The child under `key`, by first match. -/
def child (n : Node) (key : Bytes) : Option Node := KeyedList.lookup key n.entries

/-- `has_child` -/
def hasChild (n : Node) (key : Bytes) : Bool := (n.child key).isSome

/-- Put `v` where the reference `n[key]` points: over the first child with the key, or at the end. -/
def setChild (n : Node) (key : Bytes) (v : Node) : Node := .map (KeyedList.set key v n.entries)

/-- `n.remove_child(n[key])` -/
def removeChild (n : Node) (key : Bytes) : Node := .map (KeyedList.erase key n.entries)

@[simp] theorem entries_map (es : List (Bytes × Node)) : (Node.map es).entries = es := rfl

@[simp] theorem entries_setChild (n : Node) (key : Bytes) (v : Node) :
    (n.setChild key v).entries = KeyedList.set key v n.entries := rfl

@[simp] theorem entries_removeChild (n : Node) (key : Bytes) :
    (n.removeChild key).entries = KeyedList.erase key n.entries := rfl

@[simp] theorem isMap_setChild (n : Node) (key : Bytes) (v : Node) :
    (n.setChild key v).isMap = true := rfl

@[simp] theorem isMap_removeChild (n : Node) (key : Bytes) :
    (n.removeChild key).isMap = true := rfl

@[simp] theorem child_setChild_self (n : Node) (key : Bytes) (v : Node) :
    (n.setChild key v).child key = some v := by simp [child]

theorem child_setChild_of_ne (n : Node) {key key' : Bytes} (h : key' ≠ key) (v : Node) :
    (n.setChild key v).child key' = n.child key' := by
  simp [child, KeyedList.lookup_set_of_ne h]

theorem child_removeChild_of_ne (n : Node) {key key' : Bytes} (h : key' ≠ key) :
    (n.removeChild key).child key' = n.child key' := by
  simp [child, KeyedList.lookup_erase_of_ne h]

end Node

end RoxyGlance
