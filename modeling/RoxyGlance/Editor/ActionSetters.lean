import RoxyGlance.Editor.ActionViewModel

/-!
# The setters of an action keep it in agreement with its node

An action caches the fields of its node.  A setter writes the node and the cache, and does neither
when the cached value is the new one already; the unset monitor id stands for a missing key.  An
object and its node *agree* when an object made from the node afresh is the same.

* `setAction_absolute`, `setAction_relative`, `setId_relative`: a setter returns and keeps the
  agreement;
* `setters_agree`: so does every sequence of them, with the bounds in their ranges.
-/

namespace RoxyGlance.Editor

open Settings Settings.NumericLimit

/-! ### Floating point comparisons -/

/-- The test for a NaN. -/
def isNaN {F : Type} [FloatLike F] (a : F) : Bool := FloatLike.ne a a

/-- What IEEE comparisons satisfy. -/
structure LawfulFloat (F : Type) [FloatLike F] : Prop where
  not_lt_of_le : ∀ a b : F, FloatLike.le a b = true → FloatLike.lt b a = false
  le_of_not_lt : ∀ a b : F, isNaN a = false → isNaN b = false → FloatLike.lt b a = false →
    FloatLike.le a b = true
  ofLong_le : ∀ m n : ℤ, m ≤ n → FloatLike.le (FloatLike.ofLong m : F) (FloatLike.ofLong n) = true
  isNaN_ofLong : ∀ n : ℤ, isNaN (FloatLike.ofLong n : F) = false
  zero_le_half : FloatLike.le (FloatLike.ofLong 0 : F) FloatLike.half = true
  half_le_one : FloatLike.le (FloatLike.half : F) (FloatLike.ofLong 1) = true

theorem lawfulFloat_rat : LawfulFloat ℚ where
  not_lt_of_le a b h := by
    have h : a ≤ b := of_decide_eq_true h
    exact decide_eq_false (not_lt.2 h)
  le_of_not_lt a b _ _ h := by
    have h : ¬ b < a := of_decide_eq_false h
    exact decide_eq_true (not_lt.1 h)
  ofLong_le m n h := decide_eq_true (Int.cast_le.2 h)
  isNaN_ofLong n := decide_eq_false (not_not.2 rfl)
  zero_le_half := by decide +kernel
  half_le_one := by decide +kernel

/-! ### Writing a number to a field -/

/-- A number survives being written: its text is read as the number, and not as a null. -/
def RoundTrips {α : Type} (read : Bytes → Option α) (toText : α → Bytes) (val : α) : Prop :=
  read (toText val) = some val ∧ toText val ∉ Scalar.nullSpellings

instance {α : Type} [DecidableEq α] (read : Bytes → Option α) (toText : α → Bytes) (val : α) :
    Decidable (RoundTrips read toText val) := inferInstanceAs (Decidable (_ ∧ _))

/-- The children under other keys are the same, in the same order. -/
def Untouched (keys : List Bytes) (node node' : Node) : Prop :=
  (node'.entries.filter fun e => !keys.contains e.1)
    = node.entries.filter fun e => !keys.contains e.1

section Fields

variable {F : Type} (env : Externals F)

theorem Untouched.trans {keys : List Bytes} {node node' node'' : Node}
    (h : Untouched keys node node') (h' : Untouched keys node' node'') :
    Untouched keys node node'' :=
  Eq.trans h' h

/-- What has the same entries off one key is untouched off a list with that key. -/
theorem untouched_of_others {keys : List Bytes} {key : Bytes} (hkey : key ∈ keys)
    {node node' : Node}
    (h : KeyedList.others key node'.entries = KeyedList.others key node.entries) :
    Untouched keys node node' := by
  have hoff : ∀ l : List (Bytes × Node), (l.filter fun e => !keys.contains e.1)
      = (KeyedList.others key l).filter fun e => !keys.contains e.1 := by
    intro l
    rw [KeyedList.others, List.filter_filter]
    refine List.filter_congr fun e _ => ?_
    by_cases he : e.1 = key
    · simp [he, hkey]
    · simp [he]
  rw [Untouched, hoff, hoff node.entries, h]

theorem untouched_setChild {keys : List Bytes} {key : Bytes} (hkey : key ∈ keys) (node child : Node) :
    Untouched keys node (node.setChild key child) :=
  untouched_of_others hkey (KeyedList.others_set key child node.entries)

theorem untouched_removeField {keys : List Bytes} {key : Bytes} (hkey : key ∈ keys) (node : Node) :
    Untouched keys node (removeField node key) := by
  unfold removeField
  split
  · exact untouched_of_others hkey (KeyedList.others_erase key node.entries)
  · rfl

/-- What a number reader accepts is a scalar, so it can be written over. -/
theorem writeScalar_of_read {α : Type} {read : Bytes → Except Fault α} {node : Option Node}
    {id : KeyId} {defVal old : α} (h : readNumberOrDefault read node id defVal = .ok old)
    (text : Bytes) : ∃ quoted, writeScalar env node text = .ok (.scalar ⟨quoted, some text⟩) := by
  cases node with
  | none => exact ⟨_, rfl⟩
  | some n =>
    cases n with
    | scalar s => exact ⟨_, rfl⟩
    | seq items => cases h
    | map entries => cases h

/-- **A number written to a field is read back.** -/
theorem writeField_readBack {α : Type} {parse : Bytes → Option α} {toText : α → Bytes}
    {lt : α → α → Bool} {toChars : α → Bytes} {id : KeyId} {minVal maxVal defVal old val : α}
    {node : Node} {key : Bytes}
    (h : readNumberOrDefault (fun text => readNumber parse lt toChars text id minVal maxVal)
      (node.child key) id defVal = .ok old)
    (hval : RoundTrips parse toText val) (hmin : lt val minVal = false)
    (hmax : lt maxVal val = false) :
    ∃ child, writeField node key (fun old => writeScalar env old (toText val))
        = .ok (node.setChild key child) ∧
      readNumberOrDefault (fun text => readNumber parse lt toChars text id minVal maxVal)
        (some child) id defVal = .ok val := by
  obtain ⟨quoted, hwrite⟩ := writeScalar_of_read env h (toText val)
  refine ⟨.scalar ⟨quoted, some (toText val)⟩, ?_, ?_⟩
  · rw [writeField, hwrite]
    rfl
  · have hnull : Scalar.isNull ⟨quoted, some (toText val)⟩ = false := by
      simp [Scalar.isNull, hval.2]
    have hread : readNumber parse lt toChars (toText val) id minVal maxVal = .ok val := by
      rw [readNumber, hval.1]
      simp only [hmin, hmax, Bool.or_self, Bool.false_eq_true, if_false]
    simp only [readNumberOrDefault, hnull, Bool.false_eq_true, if_false]
    exact hread

/-- What a number reader returns is the default or in range. -/
theorem mem_of_readNumberOrDefault {α : Type} {parse : Bytes → Option α} {lt : α → α → Bool}
    {toChars : α → Bytes} {id : KeyId} {minVal maxVal defVal val : α} {node : Option Node}
    (h : readNumberOrDefault (fun text => readNumber parse lt toChars text id minVal maxVal) node id
      defVal = .ok val) :
    val = defVal ∨ (lt val minVal = false ∧ lt maxVal val = false) := by
  cases node with
  | none =>
    cases h
    exact Or.inl rfl
  | some n =>
    cases n with
    | scalar s =>
      simp only [readNumberOrDefault] at h
      split_ifs at h with hnull
      · cases h
        exact Or.inl rfl
      · unfold readNumber at h
        cases hparse : parse s.val with
        | none =>
          rw [hparse] at h
          cases h
        | some v =>
          simp only [hparse] at h
          split_ifs at h with hrange
          cases h
          rw [Bool.not_eq_true, Bool.or_eq_false_iff] at hrange
          exact Or.inr hrange
    | seq items => cases h
    | map entries => cases h

end Fields

/-! ### The fields -/

namespace Lane

/-- The key of a field. -/
def key : Lane → Bytes
  | x => Key.kPosX
  | y => Key.kPosY
  | width => Key.kWidth
  | height => Key.kHeight

/-- The name of a field in an error. -/
def keyId : Lane → KeyId
  | x => .positionX
  | y => .positionY
  | width => .width
  | height => .height

theorem key_injective {lane lane' : Lane} (h : lane' ≠ lane) : lane'.key ≠ lane.key := by
  cases lane <;> cases lane' <;> first | exact absurd rfl h | decide

end Lane

/-- The keys of the four fields. -/
def boundsKeys : List Bytes := [Key.kPosX, Key.kPosY, Key.kWidth, Key.kHeight]

theorem key_mem_boundsKeys (lane : Lane) : lane.key ∈ boundsKeys := by
  cases lane <;> decide

/-- The field that was written reads as the new value, and the others as before. -/
theorem forall_read_setChild {α : Type} (read : Lane → Option Node → Except Fault α)
    {node child : Node} {bounds : Vec4 α}
    (hfields : ∀ lane : Lane, read lane (node.child lane.key) = .ok (lane.get bounds))
    {lane : Lane} {val : α} (hread : read lane (some child) = .ok val) (lane' : Lane) :
    read lane' ((node.setChild lane.key child).child lane'.key)
      = .ok (lane'.get (lane.put bounds val)) := by
  by_cases hlane : lane' = lane
  · subst hlane
    rw [Node.child_setChild_self, Lane.get_put_self]
    exact hread
  · rw [Node.child_setChild_of_ne node (Lane.key_injective hlane), Lane.get_put_of_ne hlane]
    exact hfields lane'

/-! ### Absolute placement -/

section Absolute

variable {F : Type} (env : Externals F)

/-- The least value of a field. -/
def absoluteMin : Lane → ℤ
  | .x | .y => kAbsoluteCoordinateMin
  | .width | .height => kAbsoluteLengthMin

/-- The greatest value of a field. -/
def absoluteMax : Lane → ℤ
  | .x | .y => kAbsoluteCoordinateMax
  | .width | .height => kAbsoluteLengthMax

/-- The value of a field that is not there. -/
def absoluteDefault : Lane → ℤ
  | .x | .y => 0
  | .width => 640
  | .height => 400

/-- What the constructor reads for a field. -/
def readAbsoluteLane (node : Node) (lane : Lane) : Except Fault ℤ :=
  readAbsolute env node lane.key lane.keyId (absoluteMin lane) (absoluteMax lane)
    (absoluteDefault lane)

theorem accepts_absolute {lane : Lane} {val : ℤ} :
    AbsoluteMoveAndResizeViewModel.accepts lane val = true ↔
      absoluteMin lane ≤ val ∧ val ≤ absoluteMax lane := by
  cases lane <;> simp [AbsoluteMoveAndResizeViewModel.accepts, absoluteMin, absoluteMax]

/-- Every default passes the check of its field. -/
theorem accepts_absoluteDefault (lane : Lane) :
    AbsoluteMoveAndResizeViewModel.accepts lane (absoluteDefault lane) = true := by
  cases lane <;> decide

/-- An object agrees with a node when each of its fields does. -/
theorem ofNode_absolute_eq_ok {node : Node} {self : AbsoluteMoveAndResize} :
    AbsoluteMoveAndResize.ofNode env node = .ok self ↔
      ∀ lane, readAbsoluteLane env node lane = .ok (lane.get self.windowBounds) := by
  simp only [AbsoluteMoveAndResize.ofNode, bind_eq_ok]
  constructor
  · rintro ⟨x, hx, y, hy, width, hwidth, height, hheight, hself⟩ lane
    cases hself
    cases lane with
    | x => exact hx
    | y => exact hy
    | width => exact hwidth
    | height => exact hheight
  · intro h
    exact ⟨_, h .x, _, h .y, _, h .width, _, h .height, rfl⟩

/-- The bounds of an object that was made from a node are in range. -/
theorem accepts_of_ofNode_absolute {node : Node} {self : AbsoluteMoveAndResize}
    (h : AbsoluteMoveAndResize.ofNode env node = .ok self) (lane : Lane) :
    AbsoluteMoveAndResizeViewModel.accepts lane (lane.get self.windowBounds) = true := by
  have hread := (ofNode_absolute_eq_ok env).1 h lane
  rcases mem_of_readNumberOrDefault hread with hdefault | ⟨hmin, hmax⟩
  · rw [hdefault]
    exact accepts_absoluteDefault lane
  · exact accepts_absolute.2 ⟨not_lt.1 (of_decide_eq_false hmin), not_lt.1 (of_decide_eq_false hmax)⟩

/-- The setters are one, at the values of their field. -/
theorem setAction_absolute_eq (lane : Lane) :
    AbsoluteMoveAndResizeViewModel.setAction env lane
      = AbsoluteMoveAndResize.setLane env lane.key (absoluteMin lane) (absoluteMax lane)
        (fun bounds => lane.get bounds) fun bounds val => lane.put bounds val := by
  cases lane <;> rfl

/-- A setter of the object keeps it in agreement with its node. -/
theorem setAction_absolute {node : Node} {self : AbsoluteMoveAndResize}
    (h : AbsoluteMoveAndResize.ofNode env node = .ok self) {lane : Lane} {val : ℤ}
    (haccepts : AbsoluteMoveAndResizeViewModel.accepts lane val = true)
    (hval : RoundTrips env.readLong env.showLong val) :
    ∃ node' self', AbsoluteMoveAndResizeViewModel.setAction env lane node self val
        = .ok (node', self') ∧
      AbsoluteMoveAndResize.ofNode env node' = .ok self' ∧ Untouched boundsKeys node node' := by
  obtain ⟨hmin, hmax⟩ := accepts_absolute.1 haccepts
  have hassert : uncheckedAssert (decide (absoluteMin lane ≤ val) &&
      decide (val ≤ absoluteMax lane)) = .ok () := by
    rw [uncheckedAssert, decide_eq_true hmin, decide_eq_true hmax]
    rfl
  have hfields := (ofNode_absolute_eq_ok env).1 h
  rw [setAction_absolute_eq, AbsoluteMoveAndResize.setLane, hassert]
  by_cases hsame : lane.get self.windowBounds = val
  · exact ⟨node, self, if_neg (not_not.2 hsame), h, rfl⟩
  · obtain ⟨child, hwrite, hread⟩ := writeField_readBack env (hfields lane) hval
      (decide_eq_false (not_lt.2 hmin)) (decide_eq_false (not_lt.2 hmax))
    refine ⟨node.setChild lane.key child, ⟨lane.put self.windowBounds val⟩, ?_, ?_,
      untouched_setChild (key_mem_boundsKeys lane) node child⟩
    · have hwrite : writeField node lane.key (fun child => writeLongToNode env child val)
          = .ok (node.setChild lane.key child) := hwrite
      show (if lane.get self.windowBounds ≠ val then _ else _) = _
      rw [if_pos hsame, hwrite]
      rfl
    · apply (ofNode_absolute_eq_ok env).2
      exact forall_read_setChild (fun lane child => readLongFromNodeOrDefault env child lane.keyId
        (absoluteMin lane) (absoluteMax lane) (absoluteDefault lane)) hfields hread

/-- A sequence of setter calls. -/
def runAbsolute (calls : List (Lane × ℤ)) (node : Node) (self : AbsoluteMoveAndResize) :
    Except Fault (Node × AbsoluteMoveAndResize) :=
  calls.foldlM (fun s c => AbsoluteMoveAndResizeViewModel.setAction env c.1 s.1 s.2 c.2) (node, self)

theorem runAbsolute_agrees {calls : List (Lane × ℤ)}
    (hcalls : ∀ c ∈ calls, AbsoluteMoveAndResizeViewModel.accepts c.1 c.2 = true ∧
      RoundTrips env.readLong env.showLong c.2) {node : Node} {self : AbsoluteMoveAndResize}
    (h : AbsoluteMoveAndResize.ofNode env node = .ok self) :
    ∃ node' self', runAbsolute env calls node self = .ok (node', self') ∧
      AbsoluteMoveAndResize.ofNode env node' = .ok self' ∧ Untouched boundsKeys node node' := by
  induction calls generalizing node self with
  | nil => exact ⟨node, self, rfl, h, rfl⟩
  | cons c calls ih =>
    obtain ⟨haccepts, hval⟩ := hcalls c List.mem_cons_self
    obtain ⟨node₁, self₁, hstep, hagree, hkept⟩ := setAction_absolute env h haccepts hval
    obtain ⟨node', self', hrun, hagree', hkept'⟩ :=
      ih (fun c hc => hcalls c (List.mem_cons_of_mem _ hc)) hagree
    refine ⟨node', self', ?_, hagree', hkept.trans hkept'⟩
    rw [runAbsolute, List.foldlM_cons, hstep]
    exact hrun

end Absolute

/-! ### Relative placement -/

section Relative

variable {F : Type} [FloatLike F] (env : Externals F)

/-- The keys the setters of a relative placement may touch. -/
def relativeKeys : List Bytes := Key.kMonitorId :: boundsKeys

/-- The value of a field that is not there. -/
def relativeDefault : Lane → F
  | .x | .y => FloatLike.half
  | .width | .height => FloatLike.ofLong 1

/-- What the constructor reads for a field. -/
def readRelativeLane (node : Node) (lane : Lane) : Except Fault F :=
  readRelative env node lane.key lane.keyId (relativeDefault lane)

/-- All four fields are in range. -/
def InRange (bounds : Vec4 F) : Prop :=
  ∀ lane : Lane, RelativeMoveAndResizeViewModel.accepts (lane.get bounds) = true

theorem accepts_relative {val : F} :
    RelativeMoveAndResizeViewModel.accepts val = true ↔
      FloatLike.le kRelativeCoordinateMin val = true ∧
        FloatLike.le val kRelativeCoordinateMax = true := by
  rw [RelativeMoveAndResizeViewModel.accepts, Bool.and_eq_true]

/-- Every default passes the check of its field. -/
theorem accepts_relativeDefault (hF : LawfulFloat F) (lane : Lane) :
    RelativeMoveAndResizeViewModel.accepts (relativeDefault lane : F) = true := by
  have hhalf : RelativeMoveAndResizeViewModel.accepts (FloatLike.half : F) = true :=
    accepts_relative.2 ⟨hF.zero_le_half, hF.half_le_one⟩
  have hone : RelativeMoveAndResizeViewModel.accepts (FloatLike.ofLong 1 : F) = true :=
    accepts_relative.2 ⟨hF.ofLong_le 0 1 (by decide), hF.ofLong_le 1 1 le_rfl⟩
  cases lane with
  | x => exact hhalf
  | y => exact hhalf
  | width => exact hone
  | height => exact hone

/-- An object agrees with a node when its name, its fields and its id do. -/
theorem ofNode_relative_eq_ok {node : Node} {self : RelativeMoveAndResize F} :
    RelativeMoveAndResize.ofNode env node = .ok self ↔
      readStringAndMatchTypeFromNode env (node.child Key.kMonitorName) .monitorName
          = .ok self.name ∧
        (∀ lane, readRelativeLane env node lane = .ok (lane.get self.windowBounds)) ∧
        RelativeMoveAndResize.readId env node = .ok self.id := by
  simp only [RelativeMoveAndResize.ofNode, bind_eq_ok]
  constructor
  · rintro ⟨name, hname, x, hx, y, hy, width, hwidth, height, hheight, id, hid, hself⟩
    cases hself
    refine ⟨hname, fun lane => ?_, hid⟩
    cases lane with
    | x => exact hx
    | y => exact hy
    | width => exact hwidth
    | height => exact hheight
  · rintro ⟨hname, hfields, hid⟩
    exact ⟨_, hname, _, hfields .x, _, hfields .y, _, hfields .width, _, hfields .height, _, hid, rfl⟩

/-- What was read for the fields is in range, unless one of them is a NaN. -/
theorem inRange_of_ofNode (hF : LawfulFloat F) {node : Node} {self : RelativeMoveAndResize F}
    (h : RelativeMoveAndResize.ofNode env node = .ok self)
    (hnumber : ∀ lane : Lane, isNaN (lane.get self.windowBounds) = false) :
    InRange self.windowBounds := by
  intro lane
  have hread := ((ofNode_relative_eq_ok env).1 h).2.1 lane
  rcases mem_of_readNumberOrDefault hread with hdefault | ⟨hmin, hmax⟩
  · rw [hdefault]
    exact accepts_relativeDefault hF lane
  · exact accepts_relative.2
      ⟨hF.le_of_not_lt _ _ (hF.isNaN_ofLong 0) (hnumber lane) hmin,
        hF.le_of_not_lt _ _ (hnumber lane) (hF.isNaN_ofLong 1) hmax⟩

omit [FloatLike F] in
theorem acceptsId_of_readId {node : Node} {id : ℤ}
    (h : RelativeMoveAndResize.readId env node = .ok id) : acceptsId id = true := by
  rcases mem_of_readNumberOrDefault h with hdefault | ⟨hmin, hmax⟩
  · rw [hdefault]
    decide
  · rw [acceptsId, decide_eq_true (not_lt.1 (of_decide_eq_false hmin)),
      decide_eq_true (not_lt.1 (of_decide_eq_false hmax)), Bool.and_self, Bool.or_true]

/-- What a setter keeps: the agreement, the keys apart, what it does not write, and the ranges. -/
structure RelativeKept (node : Node) (action : RelativeMoveAndResize F) (node' : Node)
    (action' : RelativeMoveAndResize F) : Prop where
  agrees : RelativeMoveAndResize.ofNode env node' = .ok action'
  distinct : KeyedList.Distinct node'.entries
  untouched : Untouched relativeKeys node node'
  inRange : InRange action.windowBounds → InRange action'.windowBounds

/-- The setters are one, at the values of their field. -/
theorem setAction_relative_eq (lane : Lane) (node : Node) (self : RelativeMoveAndResize F) :
    RelativeMoveAndResizeViewModel.setAction env lane node self
      = RelativeMoveAndResize.setLane env lane.key (fun bounds => lane.get bounds)
        (fun bounds val => lane.put bounds val) node self := by
  cases lane <;> rfl

/-- A setter of a field keeps the object in agreement with its node. -/
theorem setAction_relative (hF : LawfulFloat F) {node : Node} {self : RelativeMoveAndResize F}
    (h : RelativeMoveAndResize.ofNode env node = .ok self)
    (hdistinct : KeyedList.Distinct node.entries) {lane : Lane} {val : F}
    (haccepts : RelativeMoveAndResizeViewModel.accepts val = true)
    (hval : RoundTrips env.readFloat env.showFloat val) :
    ∃ node' self', RelativeMoveAndResizeViewModel.setAction env lane node self val
      = .ok (node', self') ∧ RelativeKept env node self node' self' := by
  obtain ⟨hmin, hmax⟩ := accepts_relative.1 haccepts
  have hassert : uncheckedAssert (FloatLike.le kRelativeCoordinateMin val &&
      FloatLike.le val kRelativeCoordinateMax) = .ok () := by
    rw [uncheckedAssert, hmin, hmax]
    rfl
  obtain ⟨hname, hfields, hid⟩ := (ofNode_relative_eq_ok env).1 h
  rw [setAction_relative_eq, RelativeMoveAndResize.setLane, hassert]
  by_cases hne : FloatLike.ne (lane.get self.windowBounds) val = true
  · obtain ⟨child, hwrite, hread⟩ := writeField_readBack env (hfields lane) hval
      (hF.not_lt_of_le _ _ hmin) (hF.not_lt_of_le _ _ hmax)
    have hwrite : writeField node lane.key (fun child => writeFloatToNode env child val)
        = .ok (node.setChild lane.key child) := hwrite
    refine ⟨node.setChild lane.key child, { self with windowBounds := lane.put self.windowBounds val },
      ?_, (ofNode_relative_eq_ok env).2 ⟨?_, ?_, ?_⟩, hdistinct.set _ _,
      untouched_setChild (List.mem_cons_of_mem _ (key_mem_boundsKeys lane)) node child,
      fun hrange lane' => ?_⟩
    · show (if FloatLike.ne (lane.get self.windowBounds) val = true then _ else _) = _
      rw [if_pos hne, hwrite]
      rfl
    · rw [Node.child_setChild_of_ne node (by cases lane <;> decide)]
      exact hname
    · exact forall_read_setChild (fun lane child => readFloatFromNodeOrDefault env child lane.keyId
        kRelativeCoordinateMin kRelativeCoordinateMax (relativeDefault lane)) hfields hread
    · rw [RelativeMoveAndResize.readId, Node.child_setChild_of_ne node (by cases lane <;> decide)]
      exact hid
    · -- the other fields are in range as before
      by_cases hlane : lane' = lane
      · subst hlane
        rw [Lane.get_put_self]
        exact haccepts
      · rw [Lane.get_put_of_ne hlane]
        exact hrange lane'
  · exact ⟨node, self, if_neg hne, h, hdistinct, rfl, fun hrange => hrange⟩

omit [FloatLike F] in
/-- Without the key the id reads as the unset one. -/
theorem readId_removeField {node : Node} (hdistinct : KeyedList.Distinct node.entries) :
    RelativeMoveAndResize.readId env (removeField node Key.kMonitorId)
      = .ok kRelativeMonitorIdUnset := by
  have hchild : (removeField node Key.kMonitorId).child Key.kMonitorId = none := by
    unfold removeField
    split
    · exact hdistinct.lookup_erase_self Key.kMonitorId
    · rename_i hnone
      exact Option.not_isSome_iff_eq_none.1 hnone
  rw [RelativeMoveAndResize.readId, hchild]
  rfl

/-- An object whose id alone has changed agrees with a node where no other key has. -/
theorem ofNode_relative_of_id {node node' : Node} {self : RelativeMoveAndResize F}
    (h : RelativeMoveAndResize.ofNode env node = .ok self)
    (hsame : ∀ key : Bytes, key ≠ Key.kMonitorId → node'.child key = node.child key) {val : ℤ}
    (hid : RelativeMoveAndResize.readId env node' = .ok val) :
    RelativeMoveAndResize.ofNode env node' = .ok { self with id := val } := by
  obtain ⟨hname, hfields, -⟩ := (ofNode_relative_eq_ok env).1 h
  refine (ofNode_relative_eq_ok env).2 ⟨?_, fun lane => ?_, hid⟩
  · rw [hsame Key.kMonitorName (by decide)]
    exact hname
  · rw [readRelativeLane, readRelative, hsame lane.key (by cases lane <;> decide)]
    exact hfields lane

/-- The setter of the id keeps the object in agreement with its node. -/
theorem setId_relative {node : Node} {self : RelativeMoveAndResize F}
    (h : RelativeMoveAndResize.ofNode env node = .ok self)
    (hdistinct : KeyedList.Distinct node.entries) {val : ℤ} (haccepts : acceptsId val = true)
    (hval : val ≠ kRelativeMonitorIdUnset → RoundTrips env.readLong env.showLong val) :
    ∃ node' self', self.setId env node val = .ok (node', self') ∧
      RelativeKept env node self node' self' := by
  rw [RelativeMoveAndResize.setId]
  by_cases hunset : val = kRelativeMonitorIdUnset
  · refine ⟨removeField node Key.kMonitorId, { self with id := val }, if_pos hunset,
      ofNode_relative_of_id env h (fun key hkey => child_removeField_of_ne node hkey) ?_, ?_,
      untouched_removeField List.mem_cons_self node, fun hrange => hrange⟩
    · rw [readId_removeField env hdistinct, hunset]
    · unfold removeField
      split
      · exact hdistinct.erase Key.kMonitorId
      · exact hdistinct
  · rw [if_neg hunset]
    have hrange : kRelativeMonitorIdMin ≤ val ∧ val ≤ kRelativeMonitorIdMax := by
      simpa [acceptsId, hunset] using haccepts
    have hassert : uncheckedAssert (decide (kRelativeMonitorIdMin ≤ val) &&
        decide (val ≤ kRelativeMonitorIdMax)) = .ok () := by
      rw [uncheckedAssert, decide_eq_true hrange.1, decide_eq_true hrange.2]
      rfl
    rw [hassert]
    by_cases hsame : self.id = val
    · exact ⟨node, self, if_neg (not_not.2 hsame), h, hdistinct, rfl, fun hrange => hrange⟩
    · have hid := ((ofNode_relative_eq_ok env).1 h).2.2
      obtain ⟨child, hwrite, hread⟩ := writeField_readBack env hid (hval hunset)
        (decide_eq_false (not_lt.2 hrange.1)) (decide_eq_false (not_lt.2 hrange.2))
      have hwrite : writeField node Key.kMonitorId (fun child => writeLongToNode env child val)
          = .ok (node.setChild Key.kMonitorId child) := hwrite
      refine ⟨node.setChild Key.kMonitorId child, { self with id := val }, ?_,
        ofNode_relative_of_id env h (fun key hkey => Node.child_setChild_of_ne node hkey child) ?_,
        hdistinct.set _ _, untouched_setChild List.mem_cons_self node child, fun hrange => hrange⟩
      · show (if self.id ≠ val then _ else _) = _
        rw [if_pos hsame, hwrite]
        rfl
      · rw [RelativeMoveAndResize.readId, Node.child_setChild_self]
        exact hread

/-- A call of one of the setters. -/
inductive RelativeCall (F : Type)
  | field (lane : Lane) (val : F)
  | id (val : ℤ)
  deriving DecidableEq, Repr

namespace RelativeCall

/-- The call of the setter. -/
def run (c : RelativeCall F) (node : Node) (self : RelativeMoveAndResize F) :
    Except Fault (Node × RelativeMoveAndResize F) :=
  match c with
  | field lane val => RelativeMoveAndResizeViewModel.setAction env lane node self val
  | id val => self.setId env node val

/-- The argument is in its range. -/
def Accepted : RelativeCall F → Prop
  | field _ val => RelativeMoveAndResizeViewModel.accepts val = true
  | id val => acceptsId val = true

/-- The number that is written survives it. -/
def Written : RelativeCall F → Prop
  | field _ val => RoundTrips env.readFloat env.showFloat val
  | id val => val ≠ kRelativeMonitorIdUnset → RoundTrips env.readLong env.showLong val

end RelativeCall

/-- A sequence of setter calls. -/
def runRelative (calls : List (RelativeCall F)) (node : Node) (self : RelativeMoveAndResize F) :
    Except Fault (Node × RelativeMoveAndResize F) :=
  calls.foldlM (fun s c => c.run env s.1 s.2) (node, self)

theorem runRelative_agrees (hF : LawfulFloat F) {calls : List (RelativeCall F)}
    (hcalls : ∀ c ∈ calls, c.Accepted ∧ c.Written env) {node : Node}
    {self : RelativeMoveAndResize F} (h : RelativeMoveAndResize.ofNode env node = .ok self)
    (hdistinct : KeyedList.Distinct node.entries) :
    ∃ node' self', runRelative env calls node self = .ok (node', self') ∧
      RelativeKept env node self node' self' := by
  induction calls generalizing node self with
  | nil => exact ⟨node, self, rfl, h, hdistinct, rfl, fun hrange => hrange⟩
  | cons c calls ih =>
    obtain ⟨haccepts, hval⟩ := hcalls c List.mem_cons_self
    have hone : ∃ node' self', c.run env node self = .ok (node', self') ∧
        RelativeKept env node self node' self' := by
      cases c with
      | field lane val => exact setAction_relative env hF h hdistinct haccepts hval
      | id val => exact setId_relative env h hdistinct haccepts hval
    obtain ⟨node₁, self₁, hstep, hkept⟩ := hone
    obtain ⟨node', self', hrun, hkept'⟩ :=
      ih (fun c hc => hcalls c (List.mem_cons_of_mem _ hc)) hkept.agrees hkept.distinct
    refine ⟨node', self', ?_, hkept'.agrees, hkept'.distinct,
      hkept.untouched.trans hkept'.untouched, fun hrange => hkept'.inRange (hkept.inRange hrange)⟩
    rw [runRelative, List.foldlM_cons, hstep]
    exact hrun

end Relative

/-! ### Both of them -/

/-- **The setters keep action and node in agreement**: whatever calls are made, an action made
afresh from the node is the one in memory, its bounds and its id are in range, and the children
under other keys are as they were.  A field of a relative placement that reads as a NaN passes the
check of its range, so that the ranges are claimed of nodes without one. -/
theorem setters_agree {F : Type} [FloatLike F] (hF : LawfulFloat F) (env : Externals F)
    {es : List (Bytes × Node)} (hes : KeyedList.Distinct es) :
    (∀ (action : AbsoluteMoveAndResize) (calls : List (Lane × ℤ)),
      AbsoluteMoveAndResize.ofNode env (.map es) = .ok action →
      (∀ c ∈ calls, AbsoluteMoveAndResizeViewModel.accepts c.1 c.2 = true ∧
        RoundTrips env.readLong env.showLong c.2) →
      ∃ node' action', runAbsolute env calls (.map es) action = .ok (node', action') ∧
        AbsoluteMoveAndResize.ofNode env node' = .ok action' ∧
        (∀ lane : Lane,
          AbsoluteMoveAndResizeViewModel.accepts lane (lane.get action'.windowBounds) = true) ∧
        Untouched boundsKeys (.map es) node') ∧
    (∀ (action : RelativeMoveAndResize F) (calls : List (RelativeCall F)),
      RelativeMoveAndResize.ofNode env (.map es) = .ok action →
      (∀ c ∈ calls, c.Accepted ∧ c.Written env) →
      ∃ node' action', runRelative env calls (.map es) action = .ok (node', action') ∧
        RelativeMoveAndResize.ofNode env node' = .ok action' ∧
        ((∀ lane : Lane, isNaN (lane.get action.windowBounds) = false) →
          InRange action'.windowBounds) ∧
        acceptsId action'.id = true ∧ Untouched relativeKeys (.map es) node') := by
  constructor
  · intro action calls h hcalls
    obtain ⟨node', action', hrun, hagree, hkept⟩ := runAbsolute_agrees env hcalls h
    exact ⟨node', action', hrun, hagree, accepts_of_ofNode_absolute env hagree, hkept⟩
  · intro action calls h hcalls
    obtain ⟨node', action', hrun, hkept⟩ := runRelative_agrees env hF hcalls h hes
    refine ⟨node', action', hrun, hkept.agrees, fun hnumber => ?_, ?_, hkept.untouched⟩
    · exact hkept.inRange (inRange_of_ofNode env hF h hnumber)
    · exact acceptsId_of_readId env ((ofNode_relative_eq_ok env).1 hkept.agrees).2.2

/-- A scalar without quotes. -/
def plain (text : String) : Node := .scalar { quoted := false, text := some (ascii text) }

/-- Fields of both kinds of actions, next to another child. -/
def sampleFields : List (Bytes × Node) :=
  [(Key.kPosX, plain "1"), (ascii "other", plain "preserved"), (Key.kMonitorId, plain "2")]

theorem setters_agree_sample :
    (∃ node' action', runAbsolute asciiExternals [(.x, 30), (.width, 640), (.y, 7)]
        (.map sampleFields) ⟨⟨1, 0, 640, 400⟩⟩ = .ok (node', action') ∧
      AbsoluteMoveAndResize.ofNode asciiExternals node' = .ok action' ∧
      (∀ lane : Lane,
        AbsoluteMoveAndResizeViewModel.accepts lane (lane.get action'.windowBounds) = true) ∧
      Untouched boundsKeys (.map sampleFields) node') ∧
    ∃ node' action', runRelative asciiExternals [.field .x 0, .id 4, .id 0, .field .height 1]
        (.map sampleFields) ⟨(.contains, []), ⟨1, 1 / 2, 1, 1⟩, 2⟩ = .ok (node', action') ∧
      RelativeMoveAndResize.ofNode asciiExternals node' = .ok action' ∧
      ((∀ lane : Lane, isNaN (lane.get (⟨1, 1 / 2, 1, 1⟩ : Vec4 ℚ)) = false) →
        InRange action'.windowBounds) ∧
      acceptsId action'.id = true ∧ Untouched relativeKeys (.map sampleFields) node' := by
  have hagree := setters_agree lawfulFloat_rat asciiExternals
    (show KeyedList.Distinct sampleFields by decide)
  refine ⟨hagree.1 ⟨⟨1, 0, 640, 400⟩⟩ [(.x, 30), (.width, 640), (.y, 7)] rfl ?_,
    hagree.2 ⟨(.contains, []), ⟨1, 1 / 2, 1, 1⟩, 2⟩ [.field .x 0, .id 4, .id 0, .field .height 1]
      rfl ?_⟩
  · decide +kernel
  · simp only [List.forall_mem_cons, RelativeCall.Accepted, RelativeCall.Written]
    refine ⟨⟨?_, ?_⟩, ⟨?_, ?_⟩, ⟨?_, ?_⟩, ⟨?_, ?_⟩, List.forall_mem_nil _⟩ <;> decide +kernel

/-! ### What the ranges of the manual leave out -/

/-- The ranges of the fields of an absolute placement, as the manual has them. -/
def InManualRange (bounds : Long4) : Prop :=
  ∀ lane : Lane, 0 ≤ lane.get bounds ∧ lane.get bounds ≤ 0x4000

/-- Exact arithmetic with a NaN, which differs from everything and is not comparable. -/
instance : FloatLike (Option ℚ) where
  lt a b := (Option.map₂ (fun a b : ℚ => decide (a < b)) a b).getD false
  le a b := (Option.map₂ (fun a b : ℚ => decide (a ≤ b)) a b).getD false
  ne a b := (Option.map₂ (fun a b : ℚ => decide (a ≠ b)) a b).getD true
  ofLong n := some n
  half := some (1 / 2)
  add := Option.map₂ FloatLike.add
  sub := Option.map₂ FloatLike.sub
  mul := Option.map₂ FloatLike.mul
  ceil := Option.map FloatLike.ceil
  floor := Option.map FloatLike.floor
  toLong a := (a.map FloatLike.toLong).getD 0

theorem lawfulFloat_withNaN : LawfulFloat (Option ℚ) where
  not_lt_of_le a b h := by
    cases a with
    | none => cases h
    | some a =>
      cases b with
      | none => cases h
      | some b => exact lawfulFloat_rat.not_lt_of_le a b h
  le_of_not_lt a b ha hb h := by
    cases a with
    | none => cases ha
    | some a =>
      cases b with
      | none => cases hb
      | some b => exact lawfulFloat_rat.le_of_not_lt a b ha hb h
  ofLong_le := lawfulFloat_rat.ofLong_le
  isNaN_ofLong := lawfulFloat_rat.isNaN_ofLong
  zero_le_half := lawfulFloat_rat.zero_le_half
  half_le_one := by decide +kernel

/-- Numbers with a sign, and `nan`. -/
def nanExternals : Externals (Option ℚ) where
  toTextCodec := asciiCodec
  readLong b := if b.head? = some 45 then (asciiExternals.digits b.tail).map (- ·)
    else asciiExternals.digits b
  readFloat b := if b = ascii "nan" then some none else (asciiExternals.readFloat b).map some
  showLong n := ascii (toString n)
  showFloat a := (a.map asciiExternals.showFloat).getD (ascii "nan")
  floatToChars a := (a.map asciiExternals.floatToChars).getD (ascii "nan")
  requote := id

/-- A coordinate left of the origin is accepted, which the manual rules out; and so is a NaN. -/
theorem acceptedOutside_manualRange :
    (∃ action, AbsoluteMoveAndResize.ofNode nanExternals (.map [(Key.kPosX, plain "-40")])
      = .ok action ∧ ¬ InManualRange action.windowBounds) ∧
    ∃ action, RelativeMoveAndResize.ofNode nanExternals (.map [(Key.kPosX, plain "nan")])
      = .ok action ∧ ¬ InRange action.windowBounds := by
  refine ⟨⟨⟨⟨-40, 0, 640, 400⟩⟩, rfl, fun h => ?_⟩,
    ⟨⟨(.contains, []), ⟨none, some (1 / 2), some 1, some 1⟩, 0⟩, rfl, fun h => ?_⟩⟩
  · exact absurd (h .x).1 (by decide)
  · exact absurd (h .x) (by decide +kernel)

end RoxyGlance.Editor
