import RoxyGlance.Settings.NodeHelper

/-!
# The two placement actions

`AbsoluteMoveAndResize` and `RelativeMoveAndResize` read their fields from the node of an action
and write edited fields back to it.  An object here is the cached part alone; the node it is bound
to is passed along and returned.

* `AbsoluteMoveAndResize.returnsNormally_ofNode`, `RelativeMoveAndResize.returnsNormally_ofNode`:
  exactly the nodes whose fields are all readable give an action.
-/

namespace RoxyGlance.Settings

/-! ### Limits -/

namespace NumericLimit

def kAbsoluteCoordinateMin : ℤ := -0x4000
def kAbsoluteCoordinateMax : ℤ := 0x4000
def kAbsoluteLengthMin : ℤ := 0
def kAbsoluteLengthMax : ℤ := 0x4000
def kRelativeMonitorIdUnset : ℤ := 0
def kRelativeMonitorIdMin : ℤ := 1
def kRelativeMonitorIdMax : ℤ := 16

section

variable {F : Type} [FloatLike F]

def kRelativeCoordinateMin : F := FloatLike.ofLong 0
def kRelativeCoordinateMax : F := FloatLike.ofLong 1

end

end NumericLimit

open NumericLimit

/-! ### Fields -/

section Fields

variable {F : Type} (env : Externals F)

/-- `removeField` -/
def removeField (node : Node) (key : Bytes) : Node :=
  if node.hasChild key then node.removeChild key else node

theorem child_removeField_of_ne (node : Node) {key key' : Bytes} (h : key' ≠ key) :
    (removeField node key).child key' = node.child key' := by
  unfold removeField
  split_ifs
  · exact Node.child_removeChild_of_ne node h
  · rfl

/-- Write through the reference `node[key]`. -/
def writeField (node : Node) (key : Bytes) (write : Option Node → Except Fault Node) :
    Except Fault Node := do
  let child ← write (node.child key)
  .ok (node.setChild key child)

/-- `ROXYG_UNCHECKED_ASSERT`: the release build assumes the condition. -/
def uncheckedAssert (cond : Bool) : Except Fault Unit :=
  if cond then .ok () else .error .undefined

/-- A coordinate of an absolute position; the four fields differ in these values only. -/
def readAbsolute (node : Node) (key : Bytes) (id : KeyId) (minVal maxVal defVal : ℤ) :
    Except Fault ℤ :=
  readLongFromNodeOrDefault env (node.child key) id minVal maxVal defVal

/-- A lane of a relative position. -/
def readRelative [FloatLike F] (node : Node) (key : Bytes) (id : KeyId) (defVal : F) : Except Fault F :=
  readFloatFromNodeOrDefault env (node.child key) id kRelativeCoordinateMin kRelativeCoordinateMax
    defVal

end Fields

/-! ### Absolute placement -/

/-- `AbsoluteMoveAndResize`, without its node. -/
structure AbsoluteMoveAndResize where
  windowBounds : Long4
  deriving DecidableEq, Repr

namespace AbsoluteMoveAndResize

variable {F : Type} (env : Externals F)

/-- `removeFields` -/
def removeFields (n : Node) : Node :=
  removeField (removeField (removeField (removeField n Key.kPosX) Key.kPosY) Key.kWidth)
    Key.kHeight

/-- The constructor. -/
def ofNode (node : Node) : Except Fault AbsoluteMoveAndResize := do
  let x ← readAbsolute env node Key.kPosX .positionX kAbsoluteCoordinateMin kAbsoluteCoordinateMax 0
  let y ← readAbsolute env node Key.kPosY .positionY kAbsoluteCoordinateMin kAbsoluteCoordinateMax 0
  let width ← readAbsolute env node Key.kWidth .width kAbsoluteLengthMin kAbsoluteLengthMax 640
  let height ← readAbsolute env node Key.kHeight .height kAbsoluteLengthMin kAbsoluteLengthMax 400
  .ok ⟨⟨x, y, width, height⟩⟩

/-- What the four setters share: check the range, and write the value when it is new. -/
def setLane (key : Bytes) (minVal maxVal : ℤ) (get : Long4 → ℤ) (put : Long4 → ℤ → Long4)
    (node : Node) (self : AbsoluteMoveAndResize) (val : ℤ) :
    Except Fault (Node × AbsoluteMoveAndResize) := do
  uncheckedAssert (decide (minVal ≤ val) && decide (val ≤ maxVal))
  if get self.windowBounds ≠ val then
    let node ← writeField node key fun child => writeLongToNode env child val
    .ok (node, ⟨put self.windowBounds val⟩)
  else .ok (node, self)

/-- `setX` -/
def setX := setLane env Key.kPosX kAbsoluteCoordinateMin kAbsoluteCoordinateMax Vec4.x
  fun b val => { b with x := val }

/-- `setY` -/
def setY := setLane env Key.kPosY kAbsoluteCoordinateMin kAbsoluteCoordinateMax Vec4.y
  fun b val => { b with y := val }

/-- `setWidth` -/
def setWidth := setLane env Key.kWidth kAbsoluteLengthMin kAbsoluteLengthMax Vec4.z
  fun b val => { b with z := val }

/-- `setHeight` -/
def setHeight := setLane env Key.kHeight kAbsoluteLengthMin kAbsoluteLengthMax Vec4.w
  fun b val => { b with w := val }

/-- The four fields can be read. -/
def Readable (node : Node) : Prop :=
  let coordinate := NumberReadable env.readLong (fun a b => decide (a < b))
    kAbsoluteCoordinateMin kAbsoluteCoordinateMax
  let length := NumberReadable env.readLong (fun a b => decide (a < b))
    kAbsoluteLengthMin kAbsoluteLengthMax
  coordinate (node.child Key.kPosX) ∧ coordinate (node.child Key.kPosY) ∧
    length (node.child Key.kWidth) ∧ length (node.child Key.kHeight)

theorem returnsNormally_ofNode (node : Node) :
    ReturnsNormally (ofNode env node) ↔ Readable env node := by
  unfold ofNode Readable readAbsolute readLongFromNodeOrDefault
  refine returnsNormally_readNumberOrDefault_bind fun x => ?_
  refine returnsNormally_readNumberOrDefault_bind fun y => ?_
  refine returnsNormally_readNumberOrDefault_bind fun width => ?_
  rw [returnsNormally_bind_of fun height => ⟨_, rfl⟩, returnsNormally_readNumberOrDefault]

end AbsoluteMoveAndResize

/-! ### Relative placement -/

/-- `RelativeMoveAndResize`, without its node. -/
structure RelativeMoveAndResize (F : Type) where
  name : StringAndMatchType
  windowBounds : Vec4 F
  id : ℤ
  deriving DecidableEq, Repr

namespace RelativeMoveAndResize

variable {F : Type} [FloatLike F] (env : Externals F)

/-- `removeFields` -/
def removeFields (n : Node) : Node :=
  removeField (removeField (removeField (removeField (removeField (removeField n Key.kMonitorId)
    Key.kMonitorName) Key.kPosX) Key.kPosY) Key.kWidth) Key.kHeight

/-- The monitor id in a node. -/
def readId (node : Node) : Except Fault ℤ :=
  readLongFromNodeOrDefault env (node.child Key.kMonitorId) .monitorId kRelativeMonitorIdMin
    kRelativeMonitorIdMax kRelativeMonitorIdUnset

/-- The constructor. -/
def ofNode (node : Node) : Except Fault (RelativeMoveAndResize F) := do
  let name ← readStringAndMatchTypeFromNode env (node.child Key.kMonitorName) .monitorName
  let x ← readRelative env node Key.kPosX .positionX FloatLike.half
  let y ← readRelative env node Key.kPosY .positionY FloatLike.half
  let width ← readRelative env node Key.kWidth .width (FloatLike.ofLong 1)
  let height ← readRelative env node Key.kHeight .height (FloatLike.ofLong 1)
  let id ← readId env node
  .ok ⟨name, ⟨x, y, width, height⟩, id⟩

/-- `setId` -/
def setId (node : Node) (self : RelativeMoveAndResize F) (val : ℤ) :
    Except Fault (Node × RelativeMoveAndResize F) := do
  if val = kRelativeMonitorIdUnset then
    .ok (removeField node Key.kMonitorId, { self with id := val })
  else
    uncheckedAssert (decide (kRelativeMonitorIdMin ≤ val) && decide (val ≤ kRelativeMonitorIdMax))
    if self.id ≠ val then
      let node ← writeField node Key.kMonitorId fun child => writeLongToNode env child val
      .ok (node, { self with id := val })
    else .ok (node, self)

/-- `setName` -/
def setName (node : Node) (self : RelativeMoveAndResize F) (val : StringAndMatchType) :
    Except Fault (Node × RelativeMoveAndResize F) := do
  if self.name ≠ val then
    let node ← writeField node Key.kMonitorName fun child =>
      writeStringAndMatchTypeToNode env child val
    .ok (node, { self with name := val })
  else .ok (node, self)

/-- What the four setters of a lane share. -/
def setLane (key : Bytes) (get : Vec4 F → F) (put : Vec4 F → F → Vec4 F) (node : Node)
    (self : RelativeMoveAndResize F) (val : F) :
    Except Fault (Node × RelativeMoveAndResize F) := do
  uncheckedAssert (FloatLike.le kRelativeCoordinateMin val && FloatLike.le val kRelativeCoordinateMax)
  if FloatLike.ne (get self.windowBounds) val then
    let node ← writeField node key fun child => writeFloatToNode env child val
    .ok (node, { self with windowBounds := put self.windowBounds val })
  else .ok (node, self)

/-- `setX` -/
def setX := setLane env Key.kPosX Vec4.x fun b val => { b with x := val }

/-- `setY` -/
def setY := setLane env Key.kPosY Vec4.y fun b val => { b with y := val }

/-- `setWidth` -/
def setWidth := setLane env Key.kWidth Vec4.z fun b val => { b with z := val }

/-- `setHeight` -/
def setHeight := setLane env Key.kHeight Vec4.w fun b val => { b with w := val }

/-- The six fields can be read. -/
def Readable (node : Node) : Prop :=
  let lane := NumberReadable env.readFloat FloatLike.lt kRelativeCoordinateMin kRelativeCoordinateMax
  PatternReadable env (node.child Key.kMonitorName) ∧
    lane (node.child Key.kPosX) ∧ lane (node.child Key.kPosY) ∧
    lane (node.child Key.kWidth) ∧ lane (node.child Key.kHeight) ∧
    NumberReadable env.readLong (fun a b => decide (a < b)) kRelativeMonitorIdMin
      kRelativeMonitorIdMax (node.child Key.kMonitorId)

theorem returnsNormally_ofNode (node : Node) :
    ReturnsNormally (ofNode env node) ↔ Readable env node := by
  unfold ofNode Readable readRelative readId readFloatFromNodeOrDefault readLongFromNodeOrDefault
  rw [returnsNormally_bind_iff, returnsNormally_readStringAndMatchType]
  refine fun name _ => ?_
  refine returnsNormally_readNumberOrDefault_bind fun x => ?_
  refine returnsNormally_readNumberOrDefault_bind fun y => ?_
  refine returnsNormally_readNumberOrDefault_bind fun width => ?_
  refine returnsNormally_readNumberOrDefault_bind fun height => ?_
  rw [returnsNormally_bind_of fun id => ⟨_, rfl⟩, returnsNormally_readNumberOrDefault]

/-- The id of an action is the one in its node. -/
theorem readId_of_ofNode {node : Node} {detail : RelativeMoveAndResize F}
    (h : ofNode env node = .ok detail) : readId env node = .ok detail.id := by
  simp only [ofNode, bind_eq_ok] at h
  obtain ⟨name, -, x, -, y, -, width, -, height, -, id, hid, hdetail⟩ := h
  cases hdetail
  exact hid

end RelativeMoveAndResize

end RoxyGlance.Settings
