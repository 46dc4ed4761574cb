import Mathlib.Algebra.Order.Floor.Ring
import Mathlib.Data.Rat.Floor

/-!
# Short vectors

The vector types the placement code computes with.  All their operations work lane by lane, so a
vector is the tuple of its lanes, and single precision arithmetic is a parameter: `FloatLike` has
the operations that are used and no laws.  The instance on `ℚ` is exact arithmetic; it agrees with
the machine wherever no intermediate result is rounded.
-/

namespace RoxyGlance

/-- The single precision operations the program uses. -/
class FloatLike (F : Type) where
  /-- The comparison `a < b`. -/
  lt : F → F → Bool
  /-- The comparison `a <= b`. -/
  le : F → F → Bool
  /-- The comparison `a != b`. -/
  ne : F → F → Bool
  /-- Conversion from `long`. -/
  ofLong : ℤ → F
  /-- The literal `0.5f`. -/
  half : F
  /-- The sum of two numbers; the other operations are named in the same way. -/
  add : F → F → F
  sub : F → F → F
  mul : F → F → F
  ceil : F → F
  floor : F → F
  /-- Truncating conversion to `long`. -/
  toLong : F → ℤ

instance : FloatLike ℚ where
  lt a b := decide (a < b)
  le a b := decide (a ≤ b)
  ne a b := decide (a ≠ b)
  ofLong n := n
  half := 1 / 2
  add := (· + ·)
  sub := (· - ·)
  mul := (· * ·)
  ceil a := ⌈a⌉
  floor a := ⌊a⌋
  toLong a := if a < 0 then ⌈a⌉ else ⌊a⌋

/-- Two lanes. -/
structure Vec2 (α : Type) where
  x : α
  y : α
  deriving DecidableEq, Repr

/-- Four lanes: a position `x`, `y` and a size `z`, `w`, or four edges. -/
structure Vec4 (α : Type) where
  x : α
  y : α
  z : α
  w : α
  deriving DecidableEq, Repr

/-- `numeric::long4` -/
abbrev Long4 := Vec4 ℤ

namespace Vec2

variable {α β : Type}

def map (f : α → β) (a : Vec2 α) : Vec2 β := ⟨f a.x, f a.y⟩

def zip (f : α → α → α) (a b : Vec2 α) : Vec2 α := ⟨f a.x b.x, f a.y b.y⟩

end Vec2

namespace Vec4

variable {α β : Type}

def map (f : α → β) (a : Vec4 α) : Vec4 β := ⟨f a.x, f a.y, f a.z, f a.w⟩

def zip (f : α → α → α) (a b : Vec4 α) : Vec4 α :=
  ⟨f a.x b.x, f a.y b.y, f a.z b.z, f a.w b.w⟩

/-- The first two lanes. -/
def xy (a : Vec4 α) : Vec2 α := ⟨a.x, a.y⟩

/-- The last two lanes. -/
def zw (a : Vec4 α) : Vec2 α := ⟨a.z, a.w⟩

/-- `concat` -/
def concat (xy zw : Vec2 α) : Vec4 α := ⟨xy.x, xy.y, zw.x, zw.y⟩

end Vec4

end RoxyGlance
