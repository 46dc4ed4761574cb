import RoxyGlance.Lib.Run
import RoxyGlance.Settings.Action

/-!
# Switching the type of an action

`setType` writes the name of the new type and removes the fields of the old one.  What the node
holds under the fields of the new type is then read by its constructor: fields that were there
without belonging to the old type, and second entries that come to light when the first is removed.

* `setType_children`: all other children stay;
* `setType_switches_iff`: along a run of `setType`, the node keeps saying what the action is, and
  an object of the new type can be made of it, exactly as long as the children that come to light
  can be read.
-/

namespace RoxyGlance.Settings

/-- The fields that go with a type. -/
def ActionType.fields : ActionType → List Bytes
  | .invalid => []
  | .absoluteMoveAndResize => [Key.kPosX, Key.kPosY, Key.kWidth, Key.kHeight]
  | .relativeMoveAndResize =>
    [Key.kMonitorId, Key.kMonitorName, Key.kPosX, Key.kPosY, Key.kWidth, Key.kHeight]

theorem ActionType.nodup_fields (t : ActionType) : t.fields.Nodup := by cases t <;> decide

theorem ActionType.kType_notMem_fields (t : ActionType) : Key.kType ∉ t.fields := by
  cases t <;> decide

@[simp] theorem entries_removeField (node : Node) (key : Bytes) :
    (removeField node key).entries = KeyedList.erase key node.entries := by
  unfold removeField
  by_cases h : node.hasChild key = true
  · rw [if_pos h, Node.entries_removeChild]
  · rw [if_neg h]
    symm
    apply KeyedList.erase_of_lookup_none
    simpa [Node.hasChild, Node.child] using h

namespace Action

variable {F : Type} (env : Externals F)

theorem entries_removeFieldsOf (t : ActionType) (n : Node) :
    (removeFieldsOf t n).entries = KeyedList.eraseAll t.fields n.entries := by
  cases t with
  | invalid => rfl
  | absoluteMoveAndResize =>
    simp [removeFieldsOf, AbsoluteMoveAndResize.removeFields, ActionType.fields, KeyedList.eraseAll]
  | relativeMoveAndResize =>
    simp [removeFieldsOf, RelativeMoveAndResize.removeFields, ActionType.fields, KeyedList.eraseAll]

/-! ### The entry `type` -/

theorem writeType_of_name {value : ActionType} {name : Bytes} (h : value.name = some name) (n : Node) :
    ∃ quoted, writeType env n value =
      n.setChild Key.kType (.scalar { quoted := quoted, text := some name }) := by
  unfold writeType
  rw [h]
  exact ⟨_, rfl⟩

theorem writeType_invalid (n : Node) : writeType env n .invalid = removeField n Key.kType := rfl

theorem name_isSome {value : ActionType} (h : value ≠ .invalid) : ∃ name, value.name = some name := by
  cases value with
  | invalid => exact absurd rfl h
  | absoluteMoveAndResize => exact ⟨_, rfl⟩
  | relativeMoveAndResize => exact ⟨_, rfl⟩

/-- A name is read as the type it was written for. -/
theorem toActionType_name {value : ActionType} {name : Bytes} (h : value.name = some name) :
    toActionType name = value := by
  cases value with
  | invalid => cases h
  | absoluteMoveAndResize =>
    cases h
    decide
  | relativeMoveAndResize =>
    cases h
    decide

/-- Writing the type leaves all other entries alone. -/
theorem filter_writeType {p : Bytes × Node → Bool} (hp : ∀ v, p (Key.kType, v) = false) (n : Node)
    (value : ActionType) : (writeType env n value).entries.filter p = n.entries.filter p := by
  by_cases hvalue : value = .invalid
  · subst hvalue
    rw [writeType_invalid, entries_removeField, KeyedList.filter_erase hp]
  · obtain ⟨name, hname⟩ := name_isSome hvalue
    obtain ⟨quoted, hwrite⟩ := writeType_of_name env hname n
    rw [hwrite, Node.entries_setChild, KeyedList.filter_set hp]

theorem valuesAt_writeType {key : Bytes} (h : key ≠ Key.kType) (n : Node) (value : ActionType) :
    KeyedList.valuesAt key (writeType env n value).entries = KeyedList.valuesAt key n.entries := by
  unfold KeyedList.valuesAt
  rw [filter_writeType]
  exact fun v => decide_eq_false (Ne.symm h)

/-! ### One call -/

/-- An action and its node. -/
abbrev Held := Node × Action

/-- One call of `setType`. -/
def switch (s : Held) (value : ActionType) : Held := setType env s.1 s.2 value

/-- What the node holds under a key once the type has been changed: the second entry, if the first
one went with the old type. -/
def exposed (s : Held) (value : ActionType) (key : Bytes) : Option Node :=
  if s.2.type ≠ value ∧ s.2.type.fields.contains key then (KeyedList.valuesAt key s.1.entries)[1]?
  else s.1.child key

theorem switch_of_eq {s : Held} {value : ActionType} (h : s.2.type = value) :
    switch env s value = s := by
  rw [switch, setType, if_pos h]

theorem switch_of_ne {s : Held} {value : ActionType} (h : s.2.type ≠ value) :
    switch env s value = (removeFieldsOf s.2.type (writeType env s.1 value), { type := value }) := by
  rw [switch, setType, if_neg h]

theorem switch_type (s : Held) (value : ActionType) : (switch env s value).2.type = value := by
  by_cases h : s.2.type = value
  · rw [switch_of_eq env h, h]
  · rw [switch_of_ne env h]

theorem child_switch (s : Held) (value : ActionType) {key : Bytes} (hkey : key ≠ Key.kType) :
    (switch env s value).1.child key = exposed s value key := by
  unfold exposed
  by_cases h : s.2.type = value
  · rw [switch_of_eq env h, if_neg fun hne => hne.1 h]
  · rw [switch_of_ne env h, Node.child, KeyedList.lookup_eq_head?, entries_removeFieldsOf,
      KeyedList.valuesAt_eraseAll s.2.type.nodup_fields, valuesAt_writeType env hkey]
    by_cases hfield : key ∈ s.2.type.fields
    · rw [if_pos hfield, if_pos ⟨h, List.contains_iff_mem.2 hfield⟩, List.head?_eq_getElem?,
        List.getElem?_tail]
    · rw [if_neg hfield, if_neg fun hand => hfield (List.contains_iff_mem.1 hand.2), Node.child,
        KeyedList.lookup_eq_head?]

/-- **All other children stay**, with their values and in their order. -/
theorem setType_children (s : Held) (value : ActionType) {p : Bytes × Node → Bool}
    (htype : ∀ v, p (Key.kType, v) = false)
    (hfields : ∀ key ∈ s.2.type.fields, ∀ v, p (key, v) = false) :
    (switch env s value).1.entries.filter p = s.1.entries.filter p := by
  by_cases h : s.2.type = value
  · rw [switch_of_eq env h]
  · rw [switch_of_ne env h, entries_removeFieldsOf, KeyedList.filter_eraseAll hfields,
      filter_writeType env htype]

/-- The node still says what the action is, unless clearing the type uncovers another entry that
names one. -/
theorem readActionType_switch_iff {s : Held} (hs : readActionTypeFromNode s.1 = .ok s.2.type)
    (value : ActionType) :
    readActionTypeFromNode (switch env s value).1 = .ok value ↔
      (value = .invalid → s.2.type ≠ .invalid →
        ∀ n ∈ (KeyedList.valuesAt Key.kType s.1.entries)[1]?,
          ∃ t, n = .scalar t ∧ toActionType t.val = .invalid) := by
  by_cases h : s.2.type = value
  · rw [switch_of_eq env h, hs, h]
    exact iff_of_true rfl fun hvalue hne => absurd hvalue (h ▸ hne)
  · have hchild : (switch env s value).1.child Key.kType =
        (KeyedList.valuesAt Key.kType (writeType env s.1 value).entries).head? := by
      rw [switch_of_ne env h, Node.child, KeyedList.lookup_eq_head?, entries_removeFieldsOf,
        KeyedList.valuesAt_eraseAll s.2.type.nodup_fields, if_neg s.2.type.kType_notMem_fields]
    by_cases hvalue : value = .invalid
    · subst hvalue
      rw [writeType_invalid, entries_removeField, KeyedList.valuesAt_erase_self,
        List.head?_eq_getElem?, List.getElem?_tail] at hchild
      unfold readActionTypeFromNode
      rw [hchild]
      cases (KeyedList.valuesAt Key.kType s.1.entries)[1]? with
      | none => simp
      | some n => cases n <;> simp [throwParse, h]
    · obtain ⟨name, hname⟩ := name_isSome hvalue
      obtain ⟨quoted, hwrite⟩ := writeType_of_name env hname s.1
      rw [hwrite, Node.entries_setChild, KeyedList.valuesAt_set_self, List.head?_cons] at hchild
      unfold readActionTypeFromNode
      rw [hchild]
      exact iff_of_true (congrArg Except.ok (toActionType_name hname)) fun hv => absurd hv hvalue

end Action

/-! ### Making an object of the new type -/

section Objects

variable {F : Type} (env : Externals F)

/-- The fields of an absolute placement can be read from these children. -/
def AbsoluteMoveAndResize.ReadableFrom (child : Bytes → Option Node) : Prop :=
  let coordinate := NumberReadable env.readLong (fun a b => decide (a < b))
    NumericLimit.kAbsoluteCoordinateMin NumericLimit.kAbsoluteCoordinateMax
  let length := NumberReadable env.readLong (fun a b => decide (a < b))
    NumericLimit.kAbsoluteLengthMin NumericLimit.kAbsoluteLengthMax
  coordinate (child Key.kPosX) ∧ coordinate (child Key.kPosY) ∧ length (child Key.kWidth) ∧
    length (child Key.kHeight)

variable [FloatLike F]

/-- The fields of a relative placement can be read from these children. -/
def RelativeMoveAndResize.ReadableFrom (child : Bytes → Option Node) : Prop :=
  let lane := NumberReadable env.readFloat FloatLike.lt NumericLimit.kRelativeCoordinateMin
    NumericLimit.kRelativeCoordinateMax
  PatternReadable env (child Key.kMonitorName) ∧ lane (child Key.kPosX) ∧ lane (child Key.kPosY) ∧
    lane (child Key.kWidth) ∧ lane (child Key.kHeight) ∧
    NumberReadable env.readLong (fun a b => decide (a < b)) NumericLimit.kRelativeMonitorIdMin
      NumericLimit.kRelativeMonitorIdMax (child Key.kMonitorId)

end Objects

namespace Action

variable {F : Type} [FloatLike F] (env : Externals F)

/-- What is asked of a call of `setType`: the node says what the action is, the children that belong
to neither the type entry nor the old type stay, and an object of the new type can be made. -/
structure Switches (s : Held) (value : ActionType) : Prop where
  type : readActionTypeFromNode (switch env s value).1 = .ok (switch env s value).2.type
  children : (switch env s value).1.entries.filter
      (fun e => !(Key.kType :: s.2.type.fields).contains e.1) =
    s.1.entries.filter fun e => !(Key.kType :: s.2.type.fields).contains e.1
  absolute : value = .absoluteMoveAndResize →
    ReturnsNormally (asAbsolute env (switch env s value).1 (switch env s value).2)
  relative : value = .relativeMoveAndResize →
    ReturnsNormally (asRelative env (switch env s value).1 (switch env s value).2)

/-- Every child that comes to light can be read: behind a `type` that is removed there is no other
one that names a type, and the fields of the new type are absent, null or in order. -/
def ExposesReadable (s : Held) (value : ActionType) : Prop :=
  match value with
  | .invalid => s.2.type ≠ .invalid → ∀ n ∈ (KeyedList.valuesAt Key.kType s.1.entries)[1]?,
      ∃ t, n = .scalar t ∧ toActionType t.val = .invalid
  | .absoluteMoveAndResize => AbsoluteMoveAndResize.ReadableFrom env (exposed s value)
  | .relativeMoveAndResize => RelativeMoveAndResize.ReadableFrom env (exposed s value)

omit [FloatLike F] in
theorem asAbsolute_switch_iff (s : Held) :
    ReturnsNormally (asAbsolute env (switch env s .absoluteMoveAndResize).1
        (switch env s .absoluteMoveAndResize).2) ↔
      AbsoluteMoveAndResize.ReadableFrom env (exposed s .absoluteMoveAndResize) := by
  unfold asAbsolute
  rw [switch_type, if_neg (not_not.2 rfl), AbsoluteMoveAndResize.returnsNormally_ofNode]
  unfold AbsoluteMoveAndResize.Readable AbsoluteMoveAndResize.ReadableFrom
  simp only [child_switch env s .absoluteMoveAndResize (show Key.kPosX ≠ Key.kType by decide),
    child_switch env s .absoluteMoveAndResize (show Key.kPosY ≠ Key.kType by decide),
    child_switch env s .absoluteMoveAndResize (show Key.kWidth ≠ Key.kType by decide),
    child_switch env s .absoluteMoveAndResize (show Key.kHeight ≠ Key.kType by decide)]

theorem asRelative_switch_iff (s : Held) :
    ReturnsNormally (asRelative env (switch env s .relativeMoveAndResize).1
        (switch env s .relativeMoveAndResize).2) ↔
      RelativeMoveAndResize.ReadableFrom env (exposed s .relativeMoveAndResize) := by
  unfold asRelative
  rw [switch_type, if_neg (not_not.2 rfl), RelativeMoveAndResize.returnsNormally_ofNode]
  unfold RelativeMoveAndResize.Readable RelativeMoveAndResize.ReadableFrom
  simp only [child_switch env s .relativeMoveAndResize (show Key.kMonitorName ≠ Key.kType by decide),
    child_switch env s .relativeMoveAndResize (show Key.kPosX ≠ Key.kType by decide),
    child_switch env s .relativeMoveAndResize (show Key.kPosY ≠ Key.kType by decide),
    child_switch env s .relativeMoveAndResize (show Key.kWidth ≠ Key.kType by decide),
    child_switch env s .relativeMoveAndResize (show Key.kHeight ≠ Key.kType by decide),
    child_switch env s .relativeMoveAndResize (show Key.kMonitorId ≠ Key.kType by decide)]

omit [FloatLike F] in
theorem switch_children (s : Held) (value : ActionType) :
    (switch env s value).1.entries.filter (fun e => !(Key.kType :: s.2.type.fields).contains e.1) =
      s.1.entries.filter fun e => !(Key.kType :: s.2.type.fields).contains e.1 := by
  apply setType_children env s value
  · intro v
    simp
  · intro key hkey v
    simp [hkey]

/-- A call does what is asked of it exactly when the children that come to light can be read. -/
theorem switches_iff {s : Held} (hs : readActionTypeFromNode s.1 = .ok s.2.type)
    (value : ActionType) : Switches env s value ↔ ExposesReadable env s value := by
  have htype := readActionType_switch_iff env hs value
  constructor
  · intro h
    cases value with
    | invalid =>
      have hread := h.type
      rw [switch_type] at hread
      exact htype.1 hread rfl
    | absoluteMoveAndResize => exact (asAbsolute_switch_iff env s).1 (h.absolute rfl)
    | relativeMoveAndResize => exact (asRelative_switch_iff env s).1 (h.relative rfl)
  · intro h
    refine ⟨?_, switch_children env s value, ?_, ?_⟩
    · rw [switch_type, htype]
      rintro rfl
      exact h
    · rintro rfl
      exact (asAbsolute_switch_iff env s).2 h
    · rintro rfl
      exact (asRelative_switch_iff env s).2 h

/-- **When switching types is safe**: along a run of `setType` every call does what is asked of it
exactly when at every call the children that come to light can be read. -/
theorem setType_switches_iff {node : Node} {action : Action} (h : ofNode node = .ok action)
    (values : List ActionType) :
    Run.AllSteps (switch env) (Switches env) (node, action) values ↔
      Run.AllSteps (switch env) (ExposesReadable env) (node, action) values := by
  apply Run.allSteps_iff_of_invariant (P := fun s => readActionTypeFromNode s.1 = .ok s.2.type)
  · intro s value hs hguard
    exact ((switches_iff env hs value).2 hguard).type
  · exact fun s value hs => switches_iff env hs value
  · unfold ofNode at h
    split at h
    · cases h
    · obtain ⟨type, htype, haction⟩ := bind_eq_ok.1 h
      cases haction
      exact htype

/-- `x: 99999` without a type is no absolute placement, which only shows once the type has been
written. -/
theorem leftoverField_not_switched :
    let node : Node := .map [(Key.kPosX, .scalar ⟨false, some (ascii "99999")⟩)]
    ofNode node = .ok ⟨.invalid⟩ ∧
      ¬ Run.AllSteps (switch asciiExternals) (Switches asciiExternals) (node, ⟨.invalid⟩)
        [.absoluteMoveAndResize] := by
  intro node
  refine ⟨rfl, fun hrun => ?_⟩
  have hreadable := (asAbsolute_switch_iff asciiExternals (node, ⟨.invalid⟩)).1 (hrun.1.absolute rfl)
  obtain ⟨t, ht, hnull | ⟨v, hv, -, hhi⟩⟩ := hreadable.1 _ rfl
  · cases ht
    revert hnull
    decide
  · cases ht
    have hvalue : asciiExternals.readLong (ascii "99999") = some 99999 := by decide
    obtain rfl : 99999 = v := Option.some.inj (hvalue.symm.trans hv)
    revert hhi
    decide

/-- The node of an action of a type, with these fields before a comment. -/
def commented (type : String) (fields : List (Bytes × Node)) : Node :=
  .map ((Key.kType, .scalar ⟨false, some (ascii type)⟩) ::
    fields ++ [(ascii "comment", .scalar ⟨false, some (ascii "left")⟩)])

/-- An absolute placement with an `x`, an `id` of no use to it and a comment becomes a relative one,
which takes the `id`, an absolute one again, and none at all; the comment stays. -/
theorem setType_switches_filled :
    Run.AllSteps (switch asciiExternals) (Switches asciiExternals)
      (commented "absolute_move_and_resize" [(Key.kPosX, .scalar ⟨false, some (ascii "12")⟩),
        (Key.kMonitorId, .scalar ⟨false, some (ascii "2")⟩)], ⟨.absoluteMoveAndResize⟩)
      [.relativeMoveAndResize, .absoluteMoveAndResize, .invalid] := by
  have hnone : ∀ {α : Type} {parse : Bytes → Option α} {lt : α → α → Bool} {minVal maxVal : α},
      NumberReadable parse lt minVal maxVal none := fun n hn => by cases hn
  apply (setType_switches_iff asciiExternals (h := rfl) _).2
  refine ⟨⟨?_, hnone, hnone, hnone, hnone, ?_⟩, ?_⟩
  · intro n hn
    cases hn
  · intro n hn
    cases hn
    exact ⟨_, rfl, .inr ⟨2, by decide, by decide, by decide⟩⟩
  have hrelative : switch asciiExternals
      (commented "absolute_move_and_resize" [(Key.kPosX, .scalar ⟨false, some (ascii "12")⟩),
        (Key.kMonitorId, .scalar ⟨false, some (ascii "2")⟩)], ⟨.absoluteMoveAndResize⟩)
      .relativeMoveAndResize =
    (commented "relative_move_and_resize" [(Key.kMonitorId, .scalar ⟨false, some (ascii "2")⟩)],
      ⟨.relativeMoveAndResize⟩) := rfl
  rw [hrelative]
  refine ⟨⟨hnone, hnone, hnone, hnone⟩, ?_⟩
  have habsolute : switch asciiExternals
      (commented "relative_move_and_resize" [(Key.kMonitorId, .scalar ⟨false, some (ascii "2")⟩)],
        ⟨.relativeMoveAndResize⟩) .absoluteMoveAndResize =
    (commented "absolute_move_and_resize" [], ⟨.absoluteMoveAndResize⟩) := rfl
  rw [habsolute]
  refine ⟨fun _ n hn => ?_, trivial⟩
  cases hn

end Action

end RoxyGlance.Settings
