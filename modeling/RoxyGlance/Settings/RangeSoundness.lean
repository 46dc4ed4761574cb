import RoxyGlance.Lib.Ieee
import RoxyGlance.Settings.MoveAndResize

/-!
# Ranges of numbers, with the special values of floats

The readers of numbers refuse what lies outside a range, and the setters of an action assume that
they get what lies inside.  For a NaN neither is the case, and the fast floating point model leaves
out the test that would catch it.  Here floats are exact numbers, infinities and a NaN.

* `rangeSound_readNumberOrDefault`: what the two readers have in common;
* `numericSettings_sound_iff`: a float that is returned is in its range unless it is a NaN, and so
  are the bounds of the actions; an integer always is.
-/

namespace RoxyGlance

instance : FloatLike (Ieee ℚ) where
  lt := Ieee.lt
  le := Ieee.le
  ne := Ieee.ne
  ofLong n := .finite n
  half := .finite (1 / 2)
  add := Ieee.add
  sub a b := a.add b.neg
  mul := Ieee.mul
  ceil := Ieee.map FloatLike.ceil
  floor := Ieee.map FloatLike.floor
  toLong
    | .finite a => FloatLike.toLong a
    | _ => 0

/-- ASCII text and decimal digits, with the spellings of YAML for the special values. -/
def ieeeExternals : Externals (Ieee ℚ) where
  toTextCodec := asciiCodec
  readLong := asciiExternals.digits
  readFloat b :=
    if b = ascii ".nan" then some .nan
    else if b = ascii ".inf" then some .posInf
    else if b = ascii "-.inf" then some .negInf
    else (asciiExternals.readFloat b).map .finite
  showLong n := ascii (toString n)
  showFloat := spell
  floatToChars := spell
  requote := id
where
  /-- The text of a float. -/
  spell : Ieee ℚ → Bytes
    | .nan => ascii ".nan"
    | .posInf => ascii ".inf"
    | .negInf => ascii "-.inf"
    | .finite a => asciiExternals.showFloat a

namespace Settings

open NumericLimit

/-! ### The readers -/

/-- The node is absent or null, so that the readers return the default. -/
def IsUnset (node : Option Node) : Prop := ∀ n ∈ node, ∃ s, n = .scalar s ∧ s.isNull = true

theorem isUnset_scalar {s : Scalar} : IsUnset (some (.scalar s)) ↔ s.isNull = true := by
  constructor
  · intro h
    obtain ⟨s', hs', hnull⟩ := h _ rfl
    cases hs'
    exact hnull
  · intro h n hn
    cases hn
    exact ⟨s, rfl, h⟩

/-- A reader throws a `ParseError`, returns the default for a node that is not set, or returns a
value in the range. -/
def RangeSound {α : Type} (le : α → α → Bool) (node : Option Node) (minVal maxVal defVal : α)
    (result : Except Fault α) : Prop :=
  (∃ err, result = .error (.parseError err)) ∨ (result = .ok defVal ∧ IsUnset node) ∨
    ∃ v, result = .ok v ∧ le minVal v = true ∧ le v maxVal = true

/-- The node is a scalar with this text, and not null. -/
def HasText (node : Option Node) (text : Bytes) : Prop :=
  ∃ s : Scalar, node = some (.scalar s) ∧ s.isNull = false ∧ s.val = text

theorem hasText_scalar {s : Scalar} {text : Bytes} :
    HasText (some (.scalar s)) text ↔ s.isNull = false ∧ s.val = text := by
  constructor
  · rintro ⟨s', hs', h⟩
    cases hs'
    exact h
  · exact fun h => ⟨s, rfl, h⟩

/-- A node that is no scalar has no text. -/
theorem not_hasText {node : Option Node} (h : ∀ s, node ≠ some (.scalar s)) (text : Bytes) :
    ¬ HasText node text := by
  rintro ⟨s, hs, -⟩
  exact h s hs

theorem rangeSound_readNumber {α : Type} {parse : Bytes → Option α} {lt le : α → α → Bool}
    {toChars : α → Bytes} {text : Bytes} {id : KeyId} {minVal maxVal defVal : α} {s : Scalar}
    (hs : s.isNull = false) :
    RangeSound le (some (.scalar s)) minVal maxVal defVal
        (readNumber parse lt toChars text id minVal maxVal) ↔
      ∀ v, parse text = some v → lt v minVal = false → lt maxVal v = false →
        le minVal v = true ∧ le v maxVal = true := by
  have hset : ¬ IsUnset (some (.scalar s)) := by
    rw [isUnset_scalar, hs]
    exact Bool.false_ne_true
  unfold readNumber
  cases hparse : parse text with
  | none => exact iff_of_true (.inl ⟨_, rfl⟩) fun v h => by cases h
  | some v =>
    cases houtside : lt v minVal || lt maxVal v with
    | true =>
      refine iff_of_true (.inl ⟨_, if_pos houtside⟩) fun v' hv' hlo hhi => ?_
      cases hv'
      rw [hlo, hhi] at houtside
      cases houtside
    | false =>
      obtain ⟨hlo, hhi⟩ := Bool.or_eq_false_iff.1 houtside
      simp only [houtside, Bool.false_eq_true, if_false]
      constructor
      · rintro (⟨err, herr⟩ | ⟨-, hunset⟩ | ⟨v', hv', hmem⟩)
        · cases herr
        · exact absurd hunset hset
        · intro v'' hv'' _ _
          cases hv'
          cases hv''
          exact hmem
      · exact fun h => .inr (.inr ⟨v, rfl, h v rfl hlo hhi⟩)

/-- **What the readers have in common**: they are sound for a node unless it has a text whose value
passes the test although it is not in the range. -/
theorem rangeSound_readNumberOrDefault {α : Type} {parse : Bytes → Option α} {lt le : α → α → Bool}
    {toChars : α → Bytes} {id : KeyId} {minVal maxVal defVal : α} {node : Option Node} :
    RangeSound le node minVal maxVal defVal (readNumberOrDefault (fun text =>
        readNumber parse lt toChars text id minVal maxVal) node id defVal) ↔
      ∀ text v, HasText node text → parse text = some v → lt v minVal = false →
        lt maxVal v = false → le minVal v = true ∧ le v maxVal = true := by
  cases node with
  | none =>
    refine iff_of_true (.inr (.inl ⟨rfl, fun n hn => by cases hn⟩)) fun text v h => ?_
    exact absurd h (not_hasText (fun s hs => by cases hs) text)
  | some n =>
    cases n with
    | seq items =>
      refine iff_of_true (.inl ⟨_, rfl⟩) fun text v h => ?_
      exact absurd h (not_hasText (fun s hs => by cases hs) text)
    | map entries =>
      refine iff_of_true (.inl ⟨_, rfl⟩) fun text v h => ?_
      exact absurd h (not_hasText (fun s hs => by cases hs) text)
    | scalar s =>
      cases hnull : s.isNull with
      | true =>
        refine iff_of_true (.inr (.inl ⟨?_, isUnset_scalar.2 hnull⟩)) fun text v h => ?_
        · simp [readNumberOrDefault, hnull]
        · have hnot := (hasText_scalar.1 h).1
          rw [hnull] at hnot
          cases hnot
      | false =>
        simp only [readNumberOrDefault, hnull, Bool.false_eq_true, if_false, hasText_scalar,
          true_and, rangeSound_readNumber hnull]
        exact ⟨fun h text v htext => htext ▸ h v, fun h v => h s.val v rfl⟩

/-- The comparison of integers. -/
def longLe (a b : ℤ) : Bool := decide (a ≤ b)

variable (env : Externals (Ieee ℚ))

/-- The node has a text that is read as a NaN. -/
def ReadsAsNaN (node : Option Node) : Prop :=
  ∃ text, HasText node text ∧ env.readFloat text = some .nan

/-- Integers are always in range. -/
theorem rangeSound_readLong (node : Option Node) (id : KeyId) (minVal maxVal defVal : ℤ) :
    RangeSound longLe node minVal maxVal defVal
      (readLongFromNodeOrDefault env node id minVal maxVal defVal) := by
  apply rangeSound_readNumberOrDefault.2
  intro text v _ _ hlo hhi
  have hlo : ¬ v < minVal := of_decide_eq_false hlo
  have hhi : ¬ maxVal < v := of_decide_eq_false hhi
  exact ⟨decide_eq_true (by omega), decide_eq_true (by omega)⟩

/-- Floats are, unless they are a NaN. -/
theorem rangeSound_readFloat_iff (node : Option Node) (id : KeyId) {minVal maxVal : Ieee ℚ}
    (hmin : minVal ≠ .nan) (hmax : maxVal ≠ .nan) (defVal : Ieee ℚ) :
    RangeSound Ieee.le node minVal maxVal defVal
        (readFloatFromNodeOrDefault env node id minVal maxVal defVal) ↔ ¬ ReadsAsNaN env node := by
  unfold readFloatFromNodeOrDefault
  rw [rangeSound_readNumberOrDefault]
  constructor
  · rintro h ⟨text, htext, hread⟩
    have hmem := (h text .nan htext hread (Ieee.nan_lt minVal) (Ieee.lt_nan maxVal)).1
    rw [Ieee.le_nan] at hmem
    cases hmem
  · intro h text v htext hread hlo hhi
    refine (Ieee.mem_iff_not_outside hmin hmax).2 ⟨?_, hlo, hhi⟩
    rintro rfl
    exact h ⟨text, htext, hread⟩

/-! ### The bounds of the actions -/

/-- What a sound reader returns is in range if the default is. -/
theorem mem_of_rangeSound {α : Type} {le : α → α → Bool} {node : Option Node}
    {minVal maxVal defVal v : α} (h : RangeSound le node minVal maxVal defVal (.ok v))
    (hdef : le minVal defVal = true ∧ le defVal maxVal = true) :
    le minVal v = true ∧ le v maxVal = true := by
  rcases h with ⟨err, herr⟩ | ⟨hv, -⟩ | ⟨v', hv', hmem⟩
  · cases herr
  · cases hv
    exact hdef
  · cases hv'
    exact hmem

/-- The intervals of an absolute placement. -/
def AbsoluteInRange (bounds : Long4) : Prop :=
  (∀ v ∈ [bounds.x, bounds.y], kAbsoluteCoordinateMin ≤ v ∧ v ≤ kAbsoluteCoordinateMax) ∧
    ∀ v ∈ [bounds.z, bounds.w], kAbsoluteLengthMin ≤ v ∧ v ≤ kAbsoluteLengthMax

/-- A finite number from zero to one. -/
def InUnit (v : Ieee ℚ) : Prop := ∃ a : ℚ, v = .finite a ∧ 0 ≤ a ∧ a ≤ 1

/-- The intervals of a relative placement: its lanes are fractions, and the id is unset or a number
of a monitor. -/
def RelativeInRange (action : RelativeMoveAndResize (Ieee ℚ)) : Prop :=
  (∀ v ∈ [action.windowBounds.x, action.windowBounds.y, action.windowBounds.z,
      action.windowBounds.w], InUnit v) ∧
    (action.id = kRelativeMonitorIdUnset ∨
      (kRelativeMonitorIdMin ≤ action.id ∧ action.id ≤ kRelativeMonitorIdMax))

theorem mem_readAbsolute {node : Node} {key : Bytes} {id : KeyId} {minVal maxVal defVal v : ℤ}
    (h : readAbsolute env node key id minVal maxVal defVal = .ok v)
    (hdef : minVal ≤ defVal ∧ defVal ≤ maxVal) : minVal ≤ v ∧ v ≤ maxVal := by
  have hsound := rangeSound_readLong env (node.child key) id minVal maxVal defVal
  rw [show readLongFromNodeOrDefault env (node.child key) id minVal maxVal defVal = .ok v from h]
    at hsound
  obtain ⟨hlo, hhi⟩ := mem_of_rangeSound hsound ⟨decide_eq_true hdef.1, decide_eq_true hdef.2⟩
  exact ⟨of_decide_eq_true hlo, of_decide_eq_true hhi⟩

theorem absoluteInRange_ofNode {node : Node} {action : AbsoluteMoveAndResize}
    (h : AbsoluteMoveAndResize.ofNode env node = .ok action) :
    AbsoluteInRange action.windowBounds := by
  simp only [AbsoluteMoveAndResize.ofNode, bind_eq_ok] at h
  obtain ⟨x, hx, y, hy, width, hwidth, height, hheight, haction⟩ := h
  cases haction
  simp only [AbsoluteInRange, List.forall_mem_cons, List.not_mem_nil, false_imp_iff, implies_true,
    and_true]
  exact ⟨⟨mem_readAbsolute env hx (by decide), mem_readAbsolute env hy (by decide)⟩,
    mem_readAbsolute env hwidth (by decide), mem_readAbsolute env hheight (by decide)⟩

theorem inUnit_iff {v : Ieee ℚ} :
    InUnit v ↔ Ieee.le kRelativeCoordinateMin v = true ∧ Ieee.le v kRelativeCoordinateMax = true := by
  have hmin : (kRelativeCoordinateMin : Ieee ℚ) = .finite 0 := congrArg Ieee.finite Int.cast_zero
  have hmax : (kRelativeCoordinateMax : Ieee ℚ) = .finite 1 := congrArg Ieee.finite Int.cast_one
  rw [hmin, hmax]
  constructor
  · rintro ⟨a, rfl, hlo, hhi⟩
    exact ⟨Ieee.finite_le_finite.2 hlo, Ieee.finite_le_finite.2 hhi⟩
  · rintro ⟨hlo, hhi⟩
    exact Ieee.exists_finite_of_mem hlo hhi

/-- A lane is a fraction unless its field is read as a NaN. -/
theorem inUnit_readRelative_iff {node : Node} {key : Bytes} {id : KeyId} {defVal v : Ieee ℚ}
    (h : readRelative env node key id defVal = .ok v) (hdef : InUnit defVal) :
    InUnit v ↔ ¬ ReadsAsNaN env (node.child key) := by
  have hsound := rangeSound_readFloat_iff env (node.child key) id
    (show (kRelativeCoordinateMin : Ieee ℚ) ≠ .nan from fun h => by cases h)
    (show (kRelativeCoordinateMax : Ieee ℚ) ≠ .nan from fun h => by cases h) defVal
  rw [show readFloatFromNodeOrDefault env (node.child key) id _ _ defVal = .ok v from h] at hsound
  rw [← hsound, inUnit_iff]
  exact ⟨fun hmem => .inr (.inr ⟨v, rfl, hmem⟩),
    fun hsound => mem_of_rangeSound hsound (inUnit_iff.1 hdef)⟩

theorem idInRange_readId {node : Node} {id : ℤ}
    (h : RelativeMoveAndResize.readId env node = .ok id) :
    id = kRelativeMonitorIdUnset ∨ (kRelativeMonitorIdMin ≤ id ∧ id ≤ kRelativeMonitorIdMax) := by
  have hsound := rangeSound_readLong env (node.child Key.kMonitorId) .monitorId
    kRelativeMonitorIdMin kRelativeMonitorIdMax kRelativeMonitorIdUnset
  rw [show readLongFromNodeOrDefault env (node.child Key.kMonitorId) .monitorId
    kRelativeMonitorIdMin kRelativeMonitorIdMax kRelativeMonitorIdUnset = .ok id from h] at hsound
  rcases hsound with ⟨err, herr⟩ | ⟨hid, -⟩ | ⟨v, hv, hlo, hhi⟩
  · cases herr
  · cases hid
    exact .inl rfl
  · cases hv
    exact .inr ⟨of_decide_eq_true hlo, of_decide_eq_true hhi⟩

/-- The keys of the lanes of a placement. -/
def laneKeys : List Bytes := [Key.kPosX, Key.kPosY, Key.kWidth, Key.kHeight]

theorem relativeInRange_ofNode_iff {node : Node} {action : RelativeMoveAndResize (Ieee ℚ)}
    (h : RelativeMoveAndResize.ofNode env node = .ok action) :
    RelativeInRange action ↔ ∀ key ∈ laneKeys, ¬ ReadsAsNaN env (node.child key) := by
  have hone : InUnit (FloatLike.ofLong 1) :=
    ⟨1, congrArg Ieee.finite Int.cast_one, by decide +kernel, le_refl 1⟩
  have hhalf : InUnit FloatLike.half := ⟨1 / 2, rfl, by decide +kernel, by decide +kernel⟩
  simp only [RelativeMoveAndResize.ofNode, bind_eq_ok] at h
  obtain ⟨name, -, x, hx, y, hy, width, hwidth, height, hheight, id, hid, haction⟩ := h
  cases haction
  simp only [RelativeInRange, laneKeys, List.forall_mem_cons, List.not_mem_nil, false_imp_iff,
    implies_true, and_true, inUnit_readRelative_iff env hx hhalf,
    inUnit_readRelative_iff env hy hhalf, inUnit_readRelative_iff env hwidth hone,
    inUnit_readRelative_iff env hheight hone, and_iff_left (idInRange_readId env hid)]

/-- **Numeric settings are in range, unless they are a NaN.** -/
theorem numericSettings_sound_iff (env : Externals (Ieee ℚ)) :
    (∀ (node : Option Node) (id : KeyId) (minVal maxVal defVal : ℤ),
      RangeSound longLe node minVal maxVal defVal
        (readLongFromNodeOrDefault env node id minVal maxVal defVal)) ∧
    (∀ (node : Option Node) (id : KeyId) (minVal maxVal defVal : Ieee ℚ), minVal ≠ .nan →
      maxVal ≠ .nan →
      (RangeSound Ieee.le node minVal maxVal defVal
        (readFloatFromNodeOrDefault env node id minVal maxVal defVal) ↔ ¬ ReadsAsNaN env node)) ∧
    (∀ (node : Node) (action : AbsoluteMoveAndResize),
      AbsoluteMoveAndResize.ofNode env node = .ok action → AbsoluteInRange action.windowBounds) ∧
    ∀ (node : Node) (action : RelativeMoveAndResize (Ieee ℚ)),
      RelativeMoveAndResize.ofNode env node = .ok action →
      (RelativeInRange action ↔ ∀ key ∈ laneKeys, ¬ ReadsAsNaN env (node.child key)) :=
  ⟨rangeSound_readLong env,
    fun node id _ _ defVal hmin hmax => rangeSound_readFloat_iff env node id hmin hmax defVal,
    fun _ _ => absoluteInRange_ofNode env, fun _ _ => relativeInRange_ofNode_iff env⟩

/-- The infinity is refused, like any other value outside. -/
theorem numericSettings_sound_inf :
    RangeSound Ieee.le (some (.scalar ⟨false, some (ascii ".inf")⟩)) (.finite 0) (.finite 1)
      (.finite (1 / 2)) (readFloatFromNodeOrDefault ieeeExternals
        (some (.scalar ⟨false, some (ascii ".inf")⟩)) .width (.finite 0) (.finite 1)
        (.finite (1 / 2))) := by
  have hsound := (numericSettings_sound_iff ieeeExternals).2.1
  apply (hsound _ _ _ _ _ (by simp) (by simp)).2
  rintro ⟨text, htext, hread⟩
  obtain rfl := (hasText_scalar.1 htext).2
  have hinf : ieeeExternals.readFloat (ascii ".inf") = some .posInf := rfl
  cases hinf.symm.trans hread

/-- The text `.nan` is returned as a value in the range from zero to one, and the position of a
relative placement can be one. -/
theorem nan_notRangeSound :
    let node : Node := .scalar ⟨false, some (ascii ".nan")⟩
    ¬ RangeSound Ieee.le (some node) (.finite 0) (.finite 1) (.finite (1 / 2))
        (readFloatFromNodeOrDefault ieeeExternals (some node) .positionX (.finite 0) (.finite 1)
          (.finite (1 / 2))) ∧
      ∃ action, RelativeMoveAndResize.ofNode ieeeExternals (.map [(Key.kPosX, node)]) = .ok action ∧
        ¬ RelativeInRange action := by
  intro node
  have hnan : ReadsAsNaN ieeeExternals (some node) := ⟨ascii ".nan", ⟨_, rfl, by decide, rfl⟩, rfl⟩
  refine ⟨fun h => ?_, ?_⟩
  · exact (rangeSound_readFloat_iff ieeeExternals (some node) .positionX (by simp) (by simp) _).1 h hnan
  · refine ⟨⟨(.contains, []), ⟨.nan, .finite (1 / 2), .finite 1, .finite 1⟩, 0⟩, ?_, fun h => ?_⟩
    · rfl
    · obtain ⟨a, ha, -⟩ := h.1 .nan List.mem_cons_self
      cases ha

end Settings

end RoxyGlance
