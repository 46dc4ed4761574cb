import RoxyGlance.Lib.Pending
import RoxyGlance.Settings.Document

/-!
# The editor's view of an action

`AbsoluteMoveAndResizeViewModel` and `RelativeMoveAndResizeViewModel` show the fields of an action.
A setter only changes what is shown and marks the field; `applyChanges` hands the marked fields to
the action, which writes them to its node.

* `ActionViewModel.settles`: applying the edits of an action leaves none pending, unless the node
  refuses one of them.
-/

namespace RoxyGlance.Editor

open Settings Settings.NumericLimit
open Pending (Apply Keeps Settles whenPending update zoom mapState)

/-- A fault that ends a handler with an `HRESULT`; any other one ends the program. -/
def Reported (fault : Fault) : Prop := ∃ hr, fault.toHResult = .ok hr

theorem reported_throwHResult (hr : HResult) : Reported (throwHResult hr) := by
  unfold throwHResult
  split_ifs
  · exact ⟨_, rfl⟩
  · exact ⟨_, rfl⟩

/-! ### What the setters of the actions throw -/

section Throws

variable {F : Type} (env : Externals F)

theorem writeScalar_throwsOnly (node : Option Node) (text : Bytes) :
    ThrowsOnly Reported (writeScalar env node text) := by
  cases node with
  | none => exact throwsOnly_ok _
  | some n =>
    cases n with
    | scalar s => exact throwsOnly_ok _
    | seq items => exact throwsOnly_error.2 (reported_throwHResult _)
    | map entries => exact throwsOnly_error.2 (reported_throwHResult _)

theorem writeField_throwsOnly (node : Node) (key text : Bytes) :
    ThrowsOnly Reported (writeField node key fun child => writeScalar env child text) :=
  (writeScalar_throwsOnly env (node.child key) text).bind fun _ _ => throwsOnly_ok _

/-- A setter whose assertion holds at most has its text refused by the node. -/
theorem checkedWrite_throwsOnly {A : Type} {cond : Bool} (hcond : cond = true) {changed : Prop}
    [Decidable changed] (node : Node) (key text : Bytes) (written : Node → Node × A)
    (unchanged : Node × A) :
    ThrowsOnly Reported (uncheckedAssert cond >>= fun _ =>
      if changed then
        writeField node key (fun child => writeScalar env child text) >>= fun n => .ok (written n)
      else .ok unchanged) := by
  have hassert : uncheckedAssert cond = .ok () := if_pos hcond
  rw [hassert]
  refine (throwsOnly_ok ()).bind fun _ _ => ?_
  split_ifs
  · exact (writeField_throwsOnly env node key text).bind fun _ _ => throwsOnly_ok _
  · exact throwsOnly_ok _

/-- A value in its range is at most refused by the node. -/
theorem setLane_absolute_throwsOnly {key : Bytes} {minVal maxVal val : ℤ} {get : Long4 → ℤ}
    {put : Long4 → ℤ → Long4} (node : Node) (self : AbsoluteMoveAndResize)
    (hval : (decide (minVal ≤ val) && decide (val ≤ maxVal)) = true) :
    ThrowsOnly Reported
      (AbsoluteMoveAndResize.setLane env key minVal maxVal get put node self val) :=
  checkedWrite_throwsOnly env hval node key (env.showLong val) _ _

/-- The ids the setter of the action assumes. -/
def acceptsId (val : ℤ) : Bool :=
  decide (val = kRelativeMonitorIdUnset) ||
    (decide (kRelativeMonitorIdMin ≤ val) && decide (val ≤ kRelativeMonitorIdMax))

theorem setId_relative_throwsOnly (node : Node) (self : RelativeMoveAndResize F) {val : ℤ}
    (hval : acceptsId val = true) :
    ThrowsOnly Reported (RelativeMoveAndResize.setId env node self val) := by
  unfold RelativeMoveAndResize.setId
  by_cases hunset : val = kRelativeMonitorIdUnset
  · rw [if_pos hunset]
    exact throwsOnly_ok _
  · rw [if_neg hunset]
    rw [acceptsId, decide_eq_false hunset, Bool.false_or] at hval
    exact checkedWrite_throwsOnly env hval node Key.kMonitorId (env.showLong val) _ _

variable [FloatLike F]

theorem setLane_relative_throwsOnly {key : Bytes} {val : F} {get : Vec4 F → F}
    {put : Vec4 F → F → Vec4 F} (node : Node) (self : RelativeMoveAndResize F)
    (hval : (FloatLike.le kRelativeCoordinateMin val &&
      FloatLike.le val kRelativeCoordinateMax) = true) :
    ThrowsOnly Reported (RelativeMoveAndResize.setLane env key get put node self val) :=
  checkedWrite_throwsOnly env hval node key (env.showFloat val) _ _

end Throws

/-! ### What the constructors of the actions throw -/

section Refused

/-- The node does not describe an action. -/
def IsParseError (fault : Fault) : Prop := ∃ err, fault = .parseError err

theorem throwParse_isParseError {α : Type} (reason : ParseErrorReason) (id : KeyId) :
    ThrowsOnly IsParseError (throwParse reason id : Except Fault α) := throwsOnly_error.2 ⟨_, rfl⟩

theorem readNumberOrDefault_isParseError {α : Type} (parse : Bytes → Option α) (lt : α → α → Bool)
    (toChars : α → Bytes) (id : KeyId) (minVal maxVal defVal : α) (node : Option Node) :
    ThrowsOnly IsParseError (readNumberOrDefault (fun text => readNumber parse lt toChars text id
      minVal maxVal) node id defVal) := by
  unfold readNumberOrDefault
  split
  · exact throwsOnly_ok _
  · split_ifs
    · exact throwsOnly_ok _
    · unfold readNumber
      dsimp only
      split
      · exact throwParse_isParseError _ _
      · split_ifs
        · exact throwsOnly_error.2 ⟨_, rfl⟩
        · exact throwsOnly_ok _
  · exact throwParse_isParseError _ _

variable {F : Type} (env : Externals F)

theorem convertUtf8Value_isParseError {u8len : ℤ} (h : 0 < u8len) (id : KeyId) (u8ptr : Bytes) :
    ThrowsOnly IsParseError (convertUtf8Value env id u8ptr u8len) := by
  unfold convertUtf8Value TextCodec.convertUtf8ToUtf16
  rw [if_neg (not_le.2 h)]
  cases env.decode (u8ptr.take u8len.toNat) with
  | some text => exact throwsOnly_ok _
  | none => exact throwParse_isParseError .invalidString id

/-- A scalar is short enough for its length to be an `int`. -/
def Short (node : Option Node) : Prop := ∀ s, node = some (.scalar s) → s.val.length < 2 ^ 31

theorem readStringAndMatchType_isParseError {node : Option Node} (h : Short node) (id : KeyId) :
    ThrowsOnly IsParseError (readStringAndMatchTypeFromNode env node id) := by
  unfold readStringAndMatchTypeFromNode
  split
  · exact throwsOnly_ok _
  · rename_i s
    have hnonneg := utf8Length_nonneg (h s rfl)
    by_cases hnull : s.isNull = true
    · rw [if_pos hnull]
      exact throwsOnly_ok _
    rw [if_neg hnull]
    by_cases hval : s.val = []
    · rw [if_pos hval]
      exact throwsOnly_ok _
    rw [if_neg hval]
    dsimp only
    -- a text without a byte between its markers is not converted
    split_ifs with hlen
    · exact throwsOnly_ok _
    · exact (convertUtf8Value_isParseError env (by omega) id _).bind fun _ _ => throwsOnly_ok _
  · exact throwParse_isParseError _ _

theorem ofNode_absolute_isParseError (node : Node) :
    ThrowsOnly IsParseError (AbsoluteMoveAndResize.ofNode env node) := by
  unfold AbsoluteMoveAndResize.ofNode readAbsolute readLongFromNodeOrDefault
  refine (readNumberOrDefault_isParseError _ _ _ _ _ _ _ _).bind fun _ _ => ?_
  refine (readNumberOrDefault_isParseError _ _ _ _ _ _ _ _).bind fun _ _ => ?_
  refine (readNumberOrDefault_isParseError _ _ _ _ _ _ _ _).bind fun _ _ => ?_
  exact (readNumberOrDefault_isParseError _ _ _ _ _ _ _ _).bind fun _ _ => throwsOnly_ok _

variable [FloatLike F]

theorem ofNode_relative_isParseError {node : Node} (h : Short (node.child Key.kMonitorName)) :
    ThrowsOnly IsParseError (RelativeMoveAndResize.ofNode env node) := by
  unfold RelativeMoveAndResize.ofNode readRelative RelativeMoveAndResize.readId
    readFloatFromNodeOrDefault readLongFromNodeOrDefault
  refine (readStringAndMatchType_isParseError env h _).bind fun _ _ => ?_
  refine (readNumberOrDefault_isParseError _ _ _ _ _ _ _ _).bind fun _ _ => ?_
  refine (readNumberOrDefault_isParseError _ _ _ _ _ _ _ _).bind fun _ _ => ?_
  refine (readNumberOrDefault_isParseError _ _ _ _ _ _ _ _).bind fun _ _ => ?_
  refine (readNumberOrDefault_isParseError _ _ _ _ _ _ _ _).bind fun _ _ => ?_
  exact (readNumberOrDefault_isParseError _ _ _ _ _ _ _ _).bind fun _ _ => throwsOnly_ok _

end Refused

/-! ### The four fields -/

/-- A field of a position and a size. -/
inductive Lane
  | x
  | y
  | width
  | height
  deriving DecidableEq, Repr

namespace Lane

variable {α : Type}

/-- The value of a field. -/
def get (bounds : Vec4 α) : Lane → α
  | x => bounds.x
  | y => bounds.y
  | width => bounds.z
  | height => bounds.w

/-- Replace the value of a field. -/
def put (bounds : Vec4 α) (val : α) : Lane → Vec4 α
  | x => { bounds with x := val }
  | y => { bounds with y := val }
  | width => { bounds with z := val }
  | height => { bounds with w := val }

@[simp] theorem get_put_self (bounds : Vec4 α) (val : α) (lane : Lane) :
    lane.get (lane.put bounds val) = val := by
  cases lane <;> rfl

theorem get_put_of_ne {lane lane' : Lane} (h : lane' ≠ lane) (bounds : Vec4 α) (val : α) :
    lane'.get (lane.put bounds val) = lane'.get bounds := by
  cases lane <;> cases lane' <;> first | rfl | exact absurd rfl h

end Lane

/-- What the two view models share: the action they edit, the fields as they are shown, and which of
them have been edited. -/
structure MoveAndResizeViewModel (A α : Type) where
  action : A
  bounds : Vec4 α
  dirty : Vec4 Bool
  hasPendingChanges : Bool
  deriving DecidableEq, Repr

namespace MoveAndResizeViewModel

variable {A α : Type}

/-- The constructor. -/
def ofAction (action : A) (bounds : Vec4 α) (changeType : Bool) : MoveAndResizeViewModel A α :=
  { action, bounds, dirty := ⟨false, false, false, false⟩, hasPendingChanges := changeType }

/-- What the four setters share: refuse a value out of range, and take over a new one. -/
def setField (lt ne : α → α → Bool) (minVal maxVal : α) (lane : Lane)
    (self : MoveAndResizeViewModel A α) (val : α) : Except Fault (MoveAndResizeViewModel A α) :=
  if lt val minVal || lt maxVal val then .error (throwHResult HResult.invalidArg)
  else if ne (lane.get self.bounds) val then
    .ok { self with
      bounds := lane.put self.bounds val
      dirty := lane.put self.dirty true
      hasPendingChanges := true }
  else .ok self

/-- Hand a field to the action if it has been edited. -/
def applyField (set : Node → A → α → Except Fault (Node × A)) (lane : Lane) :
    EStateM Fault (Node × MoveAndResizeViewModel A α) Unit := fun (node, self) =>
  if lane.get self.dirty then
    -- the mark is gone even if the action refuses the value
    let self := { self with dirty := lane.put self.dirty false }
    match set node self.action (lane.get self.bounds) with
    | .ok (node, action) => .ok () (node, { self with action })
    | .error fault => .error fault (node, self)
  else .ok () (node, self)

/-- Hand the edited fields to the action, given its setters. -/
def applyFields (set : Lane → Node → A → α → Except Fault (Node × A)) :
    EStateM Fault (Node × MoveAndResizeViewModel A α) Unit := do
  applyField (set .x) .x
  applyField (set .y) .y
  applyField (set .width) .width
  applyField (set .height) .height

/-- The fields that have been edited are values the setters of the action accept. -/
def Accepted (accepts : Lane → α → Bool) (self : MoveAndResizeViewModel A α) : Prop :=
  ∀ lane : Lane, lane.get self.dirty = true → accepts lane (lane.get self.bounds) = true

theorem accepted_ofAction (accepts : Lane → α → Bool) (action : A) (bounds : Vec4 α)
    (changeType : Bool) : Accepted accepts (ofAction action bounds changeType) := by
  intro lane h
  cases lane <;> cases h

/-- A setter keeps the edited fields acceptable, if what it does not refuse is. -/
theorem accepted_setField {accepts : Lane → α → Bool} {lt ne : α → α → Bool} {minVal maxVal : α}
    {lane : Lane} {self self' : MoveAndResizeViewModel A α} {val : α} (hself : Accepted accepts self)
    (hval : (lt val minVal || lt maxVal val) = false → accepts lane val = true)
    (h : setField lt ne minVal maxVal lane self val = .ok self') : Accepted accepts self' := by
  unfold setField at h
  split_ifs at h with hrefused hne
  · cases h
    rw [Bool.not_eq_true] at hrefused
    -- the field has the new value, the others are as they were
    intro lane' hdirty
    by_cases hlane : lane' = lane
    · subst hlane
      rw [Lane.get_put_self]
      exact hval hrefused
    · rw [Lane.get_put_of_ne hlane] at hdirty ⊢
      exact hself lane' hdirty
  · cases h
    exact hself

/-- A setter changes nothing, or its change is pending. -/
theorem setField_eq_ok {lt ne : α → α → Bool} {minVal maxVal : α} {lane : Lane}
    {self self' : MoveAndResizeViewModel A α} {val : α}
    (h : setField lt ne minVal maxVal lane self val = .ok self') :
    self' = self ∨ self'.hasPendingChanges = true := by
  unfold setField at h
  split_ifs at h
  · cases h
    exact Or.inr rfl
  · cases h
    exact Or.inl rfl

theorem setField_throwsOnly (lt ne : α → α → Bool) (minVal maxVal : α) (lane : Lane)
    (self : MoveAndResizeViewModel A α) (val : α) :
    ThrowsOnly Reported (setField lt ne minVal maxVal lane self val) := by
  unfold setField
  split_ifs
  · exact throwsOnly_error.2 (reported_throwHResult _)
  · exact throwsOnly_ok _
  · exact throwsOnly_ok _

section Apply

variable {accepts : Lane → α → Bool} {set : Lane → Node → A → α → Except Fault (Node × A)}

/-- The edited fields are acceptable, and the edit is not forgotten yet. -/
def Applying (accepts : Lane → α → Bool) (s : Node × MoveAndResizeViewModel A α) : Prop :=
  s.2.Accepted accepts ∧ s.2.hasPendingChanges = true

/-- What is left to be handed over without one field was to be handed over before. -/
theorem Accepted.clear {self : MoveAndResizeViewModel A α} (h : self.Accepted accepts)
    (lane : Lane) : Accepted accepts { self with dirty := lane.put self.dirty false } := by
  intro lane' hdirty
  by_cases hlane : lane' = lane
  · subst hlane
    rw [Lane.get_put_self] at hdirty
    cases hdirty
  · rw [Lane.get_put_of_ne hlane] at hdirty
    exact h lane' hdirty

theorem keeps_applyField (lane : Lane)
    (hset : ∀ node action val, accepts lane val = true →
      ThrowsOnly Reported (set lane node action val)) :
    Keeps (Applying accepts) Reported (applyField (set lane) lane) := by
  rintro ⟨node, self⟩ ⟨hself, hpending⟩
  simp only [applyField]
  split_ifs with hdirty
  · have hthrows := hset node self.action _ (hself lane hdirty)
    cases hrun : set lane node self.action (lane.get self.bounds) with
    | ok done => exact ⟨hself.clear lane, hpending⟩
    | error fault => exact ⟨hthrows fault hrun, hself.clear lane, hpending⟩
  · exact ⟨hself, hpending⟩

theorem keeps_applyFields
    (hset : ∀ lane node action val, accepts lane val = true →
      ThrowsOnly Reported (set lane node action val)) :
    Keeps (Applying accepts) Reported (applyFields set) :=
  (keeps_applyField .x (hset .x)).bind fun _ =>
    (keeps_applyField .y (hset .y)).bind fun _ =>
      (keeps_applyField .width (hset .width)).bind fun _ => keeps_applyField .height (hset .height)

end Apply

end MoveAndResizeViewModel

open MoveAndResizeViewModel (Accepted setField applyFields)

/-! ### Absolute placement -/

/-- `AbsoluteMoveAndResizeViewModel` -/
abbrev AbsoluteMoveAndResizeViewModel := MoveAndResizeViewModel AbsoluteMoveAndResize ℤ

namespace AbsoluteMoveAndResizeViewModel

/-- The constructor. -/
def ofAction (action : AbsoluteMoveAndResize) (changeType : Bool) : AbsoluteMoveAndResizeViewModel :=
  MoveAndResizeViewModel.ofAction action action.windowBounds changeType

/-- What the four setters share. -/
def setAbsolute (minVal maxVal : ℤ) (lane : Lane) (self : AbsoluteMoveAndResizeViewModel) (val : ℤ) :
    Except Fault AbsoluteMoveAndResizeViewModel :=
  setField (fun a b => decide (a < b)) (fun a b => decide (a ≠ b)) minVal maxVal lane self val

/-- `X` -/
def setX := setAbsolute kAbsoluteCoordinateMin kAbsoluteCoordinateMax .x

/-- `Y` -/
def setY := setAbsolute kAbsoluteCoordinateMin kAbsoluteCoordinateMax .y

/-- `Width` -/
def setWidth := setAbsolute kAbsoluteLengthMin kAbsoluteLengthMax .width

/-- `Height` -/
def setHeight := setAbsolute kAbsoluteLengthMin kAbsoluteLengthMax .height

/-- The setter of a field. -/
def set : Lane → AbsoluteMoveAndResizeViewModel → ℤ → Except Fault AbsoluteMoveAndResizeViewModel
  | .x => setX
  | .y => setY
  | .width => setWidth
  | .height => setHeight

/-- The condition the action's setter of a field assumes. -/
def accepts (lane : Lane) (val : ℤ) : Bool :=
  match lane with
  | .x | .y => decide (kAbsoluteCoordinateMin ≤ val) && decide (val ≤ kAbsoluteCoordinateMax)
  | .width | .height => decide (kAbsoluteLengthMin ≤ val) && decide (val ≤ kAbsoluteLengthMax)

/-- The setters differ in the field and its range, which is also what the action assumes. -/
theorem set_eq (lane : Lane) : ∃ minVal maxVal, set lane = setAbsolute minVal maxVal lane ∧
    ∀ val, accepts lane val = (decide (minVal ≤ val) && decide (val ≤ maxVal)) := by
  cases lane with
  | x => exact ⟨_, _, rfl, fun _ => rfl⟩
  | y => exact ⟨_, _, rfl, fun _ => rfl⟩
  | width => exact ⟨_, _, rfl, fun _ => rfl⟩
  | height => exact ⟨_, _, rfl, fun _ => rfl⟩

theorem set_eq_ok {lane : Lane} {self self' : AbsoluteMoveAndResizeViewModel} {val : ℤ}
    (h : set lane self val = .ok self') : self' = self ∨ self'.hasPendingChanges = true := by
  obtain ⟨minVal, maxVal, hset, -⟩ := set_eq lane
  rw [hset] at h
  exact MoveAndResizeViewModel.setField_eq_ok h

theorem set_throwsOnly (lane : Lane) (self : AbsoluteMoveAndResizeViewModel) (val : ℤ) :
    ThrowsOnly Reported (set lane self val) := by
  obtain ⟨minVal, maxVal, hset, -⟩ := set_eq lane
  rw [hset]
  exact MoveAndResizeViewModel.setField_throwsOnly _ _ _ _ _ _ _

/-- What is shown after a setter is acceptable where it has been edited. -/
theorem accepted_set {lane : Lane} {self self' : AbsoluteMoveAndResizeViewModel} {val : ℤ}
    (hself : self.Accepted accepts) (h : set lane self val = .ok self') :
    self'.Accepted accepts := by
  obtain ⟨minVal, maxVal, hset, haccepts⟩ := set_eq lane
  rw [hset] at h
  refine MoveAndResizeViewModel.accepted_setField hself (fun hval => ?_) h
  rw [Bool.or_eq_false_iff, decide_eq_false_iff_not, decide_eq_false_iff_not, not_lt, not_lt] at hval
  simp only [haccepts, hval.1, hval.2, decide_true, Bool.and_self]

variable {F : Type} (env : Externals F)

/-- The setter of the action for a field. -/
def setAction : Lane → Node → AbsoluteMoveAndResize → ℤ → Except Fault (Node × AbsoluteMoveAndResize)
  | .x => AbsoluteMoveAndResize.setX env
  | .y => AbsoluteMoveAndResize.setY env
  | .width => AbsoluteMoveAndResize.setWidth env
  | .height => AbsoluteMoveAndResize.setHeight env

/-- `applyChanges` -/
def applyChanges : Apply Fault (Node × AbsoluteMoveAndResizeViewModel) :=
  whenPending (fun s => s.2.hasPendingChanges) (fun s => (s.1, { s.2 with hasPendingChanges := false }))
    (applyFields (setAction env))

theorem setAction_throwsOnly (lane : Lane) (node : Node) (action : AbsoluteMoveAndResize) (val : ℤ)
    (hval : accepts lane val = true) : ThrowsOnly Reported (setAction env lane node action val) := by
  cases lane with
  | x =>
    unfold setAction AbsoluteMoveAndResize.setX
    exact setLane_absolute_throwsOnly env node action hval
  | y =>
    unfold setAction AbsoluteMoveAndResize.setY
    exact setLane_absolute_throwsOnly env node action hval
  | width =>
    unfold setAction AbsoluteMoveAndResize.setWidth
    exact setLane_absolute_throwsOnly env node action hval
  | height =>
    unfold setAction AbsoluteMoveAndResize.setHeight
    exact setLane_absolute_throwsOnly env node action hval

theorem settles : Settles (fun s : Node × AbsoluteMoveAndResizeViewModel => s.2.Accepted accepts)
    Reported (fun s => s.2.hasPendingChanges) (applyChanges env) :=
  Settles.whenPending (MoveAndResizeViewModel.keeps_applyFields (setAction_throwsOnly env))
    fun _ hs => ⟨hs, rfl⟩

end AbsoluteMoveAndResizeViewModel

/-! ### Relative placement -/

/-- `RelativeMoveAndResizeViewModel` -/
structure RelativeMoveAndResizeViewModel (F : Type) where
  fields : MoveAndResizeViewModel (RelativeMoveAndResize F) F
  id : ℤ
  idDirty : Bool
  deriving DecidableEq, Repr

namespace RelativeMoveAndResizeViewModel

variable {F : Type} [FloatLike F]

/-- The constructor. -/
def ofAction (action : RelativeMoveAndResize F) (changeType : Bool) :
    RelativeMoveAndResizeViewModel F :=
  { fields := MoveAndResizeViewModel.ofAction action action.windowBounds changeType
    id := action.id
    idDirty := false }

/-- `HasPendingChanges` -/
def hasPendingChanges (self : RelativeMoveAndResizeViewModel F) : Bool :=
  self.fields.hasPendingChanges

/-- `Id` -/
def setId (self : RelativeMoveAndResizeViewModel F) (value : ℤ) :
    Except Fault (RelativeMoveAndResizeViewModel F) :=
  if value ≠ kRelativeMonitorIdUnset ∧
      (value < kRelativeMonitorIdMin ∨ kRelativeMonitorIdMax < value) then
    .error (throwHResult HResult.invalidArg)
  else if self.id = value then .ok self
  else .ok { fields := { self.fields with hasPendingChanges := true }, id := value, idDirty := true }

/-- What the four setters share.  The program is built with the fast floating point model, which
leaves out the `isfinite` check. -/
def setRelative (lane : Lane) (self : RelativeMoveAndResizeViewModel F) (value : F) :
    Except Fault (RelativeMoveAndResizeViewModel F) := do
  let fields ← setField FloatLike.lt FloatLike.ne kRelativeCoordinateMin kRelativeCoordinateMax lane
    self.fields value
  .ok { self with fields }

/-- `X` -/
def setX (self : RelativeMoveAndResizeViewModel F) (value : F) := setRelative .x self value

/-- `Y` -/
def setY (self : RelativeMoveAndResizeViewModel F) (value : F) := setRelative .y self value

/-- `Width` -/
def setWidth (self : RelativeMoveAndResizeViewModel F) (value : F) := setRelative .width self value

/-- `Height` -/
def setHeight (self : RelativeMoveAndResizeViewModel F) (value : F) :=
  setRelative .height self value

/-- The setter of a field. -/
def set (lane : Lane) (self : RelativeMoveAndResizeViewModel F) (value : F) :
    Except Fault (RelativeMoveAndResizeViewModel F) :=
  match lane with
  | .x => setX self value
  | .y => setY self value
  | .width => setWidth self value
  | .height => setHeight self value

/-- The condition the action's setters of the fields assume. -/
def accepts (value : F) : Bool :=
  FloatLike.le kRelativeCoordinateMin value && FloatLike.le value kRelativeCoordinateMax

/-- A value that is not outside the range is in it, unlike a NaN. -/
def Ordered (value : F) : Prop :=
  (FloatLike.lt value kRelativeCoordinateMin || FloatLike.lt kRelativeCoordinateMax value) = false →
    accepts value = true

/-- What has been edited is acceptable. -/
structure Accepted (vm : RelativeMoveAndResizeViewModel F) : Prop where
  fields : vm.fields.Accepted fun _ => accepts
  id : vm.idDirty = true → acceptsId vm.id = true

theorem accepted_ofAction (action : RelativeMoveAndResize F) (changeType : Bool) :
    (ofAction action changeType).Accepted where
  fields := MoveAndResizeViewModel.accepted_ofAction _ action action.windowBounds changeType
  id := by
    intro h
    cases h

theorem set_eq_setRelative (lane : Lane) (self : RelativeMoveAndResizeViewModel F) (value : F) :
    set lane self value = setRelative lane self value := by
  cases lane <;> rfl

theorem accepted_set {lane : Lane} {self self' : RelativeMoveAndResizeViewModel F} {value : F}
    (hself : self.Accepted) (hvalue : Ordered value) (h : set lane self value = .ok self') :
    self'.Accepted := by
  rw [set_eq_setRelative] at h
  obtain ⟨fields, hfields, hself'⟩ := bind_eq_ok.1 h
  cases hself'
  exact ⟨MoveAndResizeViewModel.accepted_setField hself.fields hvalue hfields, hself.id⟩

/-- A setter changes nothing, or its change is pending. -/
theorem set_eq_ok {lane : Lane} {self self' : RelativeMoveAndResizeViewModel F} {value : F}
    (h : set lane self value = .ok self') : self' = self ∨ self'.hasPendingChanges = true := by
  rw [set_eq_setRelative] at h
  obtain ⟨fields, hfields, hself'⟩ := bind_eq_ok.1 h
  cases hself'
  rcases MoveAndResizeViewModel.setField_eq_ok hfields with rfl | hpending
  · exact Or.inl rfl
  · exact Or.inr hpending

theorem set_throwsOnly (lane : Lane) (self : RelativeMoveAndResizeViewModel F) (value : F) :
    ThrowsOnly Reported (set lane self value) := by
  rw [set_eq_setRelative]
  exact (MoveAndResizeViewModel.setField_throwsOnly _ _ _ _ _ _ _).bind fun _ _ => throwsOnly_ok _

omit [FloatLike F] in
/-- The setter of the id takes over an id the action accepts, or changes nothing. -/
theorem setId_cases {self self' : RelativeMoveAndResizeViewModel F} {value : ℤ}
    (h : setId self value = .ok self') :
    self' = self ∨ (acceptsId value = true ∧ self' =
      { fields := { self.fields with hasPendingChanges := true }, id := value, idDirty := true }) := by
  unfold setId at h
  split_ifs at h with hrefused hsame
  · cases h
    exact Or.inl rfl
  · cases h
    refine Or.inr ⟨?_, rfl⟩
    simp only [acceptsId, Bool.or_eq_true, Bool.and_eq_true, decide_eq_true_eq]
    omega

omit [FloatLike F] in
theorem setId_eq_ok {self self' : RelativeMoveAndResizeViewModel F} {value : ℤ}
    (h : setId self value = .ok self') : self' = self ∨ self'.hasPendingChanges = true := by
  rcases setId_cases h with hself' | ⟨-, rfl⟩
  · exact Or.inl hself'
  · exact Or.inr rfl

omit [FloatLike F] in
theorem setId_throwsOnly (self : RelativeMoveAndResizeViewModel F) (value : ℤ) :
    ThrowsOnly Reported (setId self value) := by
  unfold setId
  split_ifs
  · exact throwsOnly_error.2 (reported_throwHResult _)
  · exact throwsOnly_ok _
  · exact throwsOnly_ok _

theorem accepted_setId {self self' : RelativeMoveAndResizeViewModel F} {value : ℤ}
    (hself : self.Accepted) (h : setId self value = .ok self') : self'.Accepted := by
  rcases setId_cases h with rfl | ⟨hvalue, rfl⟩
  · exact hself
  · exact ⟨hself.fields, fun _ => hvalue⟩

variable (env : Externals F)

/-- The setter of the action for a field. -/
def setAction (lane : Lane) (node : Node) (action : RelativeMoveAndResize F) (value : F) :
    Except Fault (Node × RelativeMoveAndResize F) :=
  match lane with
  | .x => action.setX env node value
  | .y => action.setY env node value
  | .width => action.setWidth env node value
  | .height => action.setHeight env node value

theorem setAction_throwsOnly (lane : Lane) (node : Node) (action : RelativeMoveAndResize F)
    (value : F) (hvalue : accepts value = true) :
    ThrowsOnly Reported (setAction env lane node action value) := by
  cases lane with
  | x =>
    unfold setAction RelativeMoveAndResize.setX
    exact setLane_relative_throwsOnly env node action hvalue
  | y =>
    unfold setAction RelativeMoveAndResize.setY
    exact setLane_relative_throwsOnly env node action hvalue
  | width =>
    unfold setAction RelativeMoveAndResize.setWidth
    exact setLane_relative_throwsOnly env node action hvalue
  | height =>
    unfold setAction RelativeMoveAndResize.setHeight
    exact setLane_relative_throwsOnly env node action hvalue

/-- Hand the id to the action if it has been edited. -/
def applyId : EStateM Fault (Node × RelativeMoveAndResizeViewModel F) Unit := fun (node, self) =>
  if self.idDirty then
    let self := { self with idDirty := false }
    match self.fields.action.setId env node self.id with
    | .ok (node, action) => .ok () (node, { self with fields := { self.fields with action } })
    | .error fault => .error fault (node, self)
  else .ok () (node, self)

/-- `applyChanges` -/
def applyChanges : Apply Fault (Node × RelativeMoveAndResizeViewModel F) :=
  whenPending (fun s => s.2.hasPendingChanges)
    (fun s => (s.1, { s.2 with fields := { s.2.fields with hasPendingChanges := false } })) do
    applyId env
    zoom (fun s => (s.1, s.2.fields)) (fun s t => (t.1, { s.2 with fields := t.2 }))
      (applyFields (setAction env))

/-- The edits are acceptable and not forgotten yet. -/
def Applying (s : Node × RelativeMoveAndResizeViewModel F) : Prop :=
  s.2.Accepted ∧ s.2.hasPendingChanges = true

theorem keeps_applyId : Keeps Applying Reported (applyId env) := by
  rintro ⟨node, self⟩ ⟨hself, hpending⟩
  simp only [applyId]
  split_ifs with hdirty
  · have hthrows := setId_relative_throwsOnly env node self.fields.action (hself.id hdirty)
    have hrest : Accepted { self with idDirty := false } := ⟨hself.fields, fun h => by cases h⟩
    cases hrun : self.fields.action.setId env node self.id with
    | ok done => exact ⟨⟨hself.fields, fun h => by cases h⟩, hpending⟩
    | error fault => exact ⟨hthrows fault hrun, hrest, hpending⟩
  · exact ⟨hself, hpending⟩

theorem settles : Settles (fun s : Node × RelativeMoveAndResizeViewModel F => s.2.Accepted)
    Reported (fun s => s.2.hasPendingChanges) (applyChanges env) := by
  refine Settles.whenPending ((keeps_applyId env).bind fun _ => ?_) fun s hs =>
    ⟨⟨hs.fields, hs.id⟩, rfl⟩
  refine (MoveAndResizeViewModel.keeps_applyFields (setAction_throwsOnly env)).zoom ?_ ?_
  · rintro s ⟨hs, hpending⟩
    exact ⟨hs.fields, hpending⟩
  · rintro s t ⟨hs, -⟩ ⟨ht, hpending⟩
    exact ⟨⟨ht, hs.id⟩, hpending⟩

end RelativeMoveAndResizeViewModel

/-! ### Either of them -/

/-- `ActionViewModel`, one of its two implementations. -/
inductive ActionViewModel (F : Type)
  | absolute (vm : AbsoluteMoveAndResizeViewModel)
  | relative (vm : RelativeMoveAndResizeViewModel F)
  deriving DecidableEq, Repr

namespace ActionViewModel

variable {F : Type} [FloatLike F]

/-- `HasPendingChanges` -/
def hasPendingChanges : ActionViewModel F → Bool
  | absolute vm => vm.hasPendingChanges
  | relative vm => vm.hasPendingChanges

/-- What has been edited is acceptable. -/
def Accepted : ActionViewModel F → Prop
  | absolute vm => MoveAndResizeViewModel.Accepted AbsoluteMoveAndResizeViewModel.accepts vm
  | relative vm => vm.Accepted

variable (env : Externals F)

/-- `makeActionViewModel` -/
def makeActionViewModel (node : Node) (action : Action) (changeType : Bool) :
    Except Fault (Option (ActionViewModel F)) :=
  match action.type with
  | .absoluteMoveAndResize => do
    let detail ← action.asAbsolute env node
    .ok (some (absolute (AbsoluteMoveAndResizeViewModel.ofAction detail changeType)))
  | .relativeMoveAndResize => do
    let detail ← action.asRelative env node
    .ok (some (relative (RelativeMoveAndResizeViewModel.ofAction detail changeType)))
  | .invalid => .ok none

/-- A view of an action has nothing edited yet. -/
theorem makeActionViewModel_eq_ok {node : Node} {action : Action} {changeType : Bool}
    {made : Option (ActionViewModel F)}
    (h : makeActionViewModel env node action changeType = .ok made) :
    (∀ vm ∈ made, vm.Accepted ∧ vm.hasPendingChanges = changeType) ∧
      (made = none → action.type = .invalid) := by
  unfold makeActionViewModel at h
  cases htype : action.type with
  | invalid =>
    simp only [htype] at h
    cases h
    refine ⟨fun vm hvm => ?_, fun _ => rfl⟩
    cases hvm
  | absoluteMoveAndResize =>
    simp only [htype, bind_eq_ok] at h
    obtain ⟨detail, -, hmade⟩ := h
    cases hmade
    refine ⟨fun vm hvm => ?_, fun hnone => by cases hnone⟩
    cases hvm
    exact ⟨MoveAndResizeViewModel.accepted_ofAction _ _ _ _, rfl⟩
  | relativeMoveAndResize =>
    simp only [htype, bind_eq_ok] at h
    obtain ⟨detail, -, hmade⟩ := h
    cases hmade
    refine ⟨fun vm hvm => ?_, fun hnone => by cases hnone⟩
    cases hvm
    exact ⟨RelativeMoveAndResizeViewModel.accepted_ofAction _ _, rfl⟩

theorem makeActionViewModel_throwsOnly {node : Node} {action : Action}
    (h : action.type = .relativeMoveAndResize → Short (node.child Key.kMonitorName))
    (changeType : Bool) :
    ThrowsOnly IsParseError (makeActionViewModel env node action changeType) := by
  unfold makeActionViewModel
  cases htype : action.type with
  | invalid => exact throwsOnly_ok _
  | absoluteMoveAndResize =>
    have has : action.asAbsolute env node = AbsoluteMoveAndResize.ofNode env node :=
      if_neg (not_not.2 htype)
    dsimp only
    rw [has]
    exact (ofNode_absolute_isParseError env node).bind fun _ _ => throwsOnly_ok _
  | relativeMoveAndResize =>
    have has : action.asRelative env node = RelativeMoveAndResize.ofNode env node :=
      if_neg (not_not.2 htype)
    dsimp only
    rw [has]
    exact (ofNode_relative_isParseError env (h htype)).bind fun _ _ => throwsOnly_ok _

/-- `action && action->applyChanges()` -/
def applyChanges : Apply Fault (Node × Option (ActionViewModel F)) := fun s =>
  match s.2 with
  | none => .ok false s
  | some (absolute vm) =>
    mapState (fun t => (t.1, some (absolute t.2)))
      (AbsoluteMoveAndResizeViewModel.applyChanges env (s.1, vm))
  | some (relative vm) =>
    mapState (fun t => (t.1, some (relative t.2)))
      (RelativeMoveAndResizeViewModel.applyChanges env (s.1, vm))

/-- **The edits of an action are applied**, or refused by its node and pending still. -/
theorem settles : Settles (fun s : Node × Option (ActionViewModel F) => ∀ vm ∈ s.2, vm.Accepted)
    Reported (fun s => s.2.any hasPendingChanges) (applyChanges env) := by
  rintro ⟨node, action⟩ haction
  cases action with
  | none => exact ⟨rfl, haction, rfl, fun _ => rfl⟩
  | some vm =>
    have hvm := haction vm rfl
    cases vm with
    | absolute vm =>
      refine (AbsoluteMoveAndResizeViewModel.settles env (node, vm) hvm).mapState
        (f := fun t => (t.1, some (absolute t.2))) ?_ ?_
      · intro t ht vm' hvm'
        cases hvm'
        exact ht
      · exact fun t => rfl
    | relative vm =>
      refine (RelativeMoveAndResizeViewModel.settles env (node, vm) hvm).mapState
        (f := fun t => (t.1, some (relative t.2))) ?_ ?_
      · intro t ht vm' hvm'
        cases hvm'
        exact ht
      · exact fun t => rfl

end ActionViewModel

end RoxyGlance.Editor
