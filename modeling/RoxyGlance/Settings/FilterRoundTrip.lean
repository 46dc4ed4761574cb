import RoxyGlance.Lib.Run
import RoxyGlance.Settings.Filter

/-!
# Filters and their nodes

A setter of `Filter` writes a pattern to the node without any escaping, and the constructor takes
the markers off by position.  The patterns in memory therefore agree with the node only while every
pattern that was set can be told apart in the file.

* `readStringAndMatchTypeFromNode_write_iff`: which patterns a child gives back;
* `readStringAndMatchTypeFromNode_then_write`: which scalar a pattern that was read is written as;
* `Filter.agrees_iff_storable`: in a run of setter calls, the filter agrees with a fresh one in
  every state exactly when every call finds its pattern storable;
* `Filter.set_caret`: a text that begins with `^` comes back as another pattern.
-/

namespace RoxyGlance.Settings

variable {F : Type} (env : Externals F)

/-! ### One pattern -/

section Pattern

theorem convertUtf16ToUtf8_eq_ok {utf16 : Wide} {utf16len : ℤ} {u8str : Bytes} :
    env.convertUtf16ToUtf8 utf16 utf16len = .ok (.ok u8str) ↔
      0 < utf16len ∧ env.encode (utf16.take utf16len.toNat) = some u8str ∧
        u8str.length < 2 ^ 31 := by
  unfold TextCodec.convertUtf16ToUtf8
  by_cases hlen : utf16len ≤ 0
  · simp [hlen]
  · rw [if_neg hlen]
    cases henc : env.encode (utf16.take utf16len.toNat) with
    | none => simp
    | some b =>
      simp only [not_le.1 hlen, true_and, Option.some.injEq, Except.ok.injEq]
      split_ifs with hb
      · simp only [Except.ok.injEq]
        exact ⟨fun h => ⟨h, h ▸ hb⟩, fun h => h.1⟩
      · simp only [false_iff]
        rintro ⟨rfl, h⟩
        exact hb h

/-- The UTF-8 form of a text is empty for the empty text and otherwise a conversion. -/
theorem toUtf8_cases {text : Wide} {u8str : Bytes} (h : toUtf8 env text = .ok u8str) :
    (text = [] ∧ u8str = []) ∨
      (env.encode (text.take (toInt text.length).toNat) = some u8str ∧ u8str.length < 2 ^ 31) := by
  unfold toUtf8 at h
  split_ifs at h with hnil
  · cases h
    exact Or.inl ⟨hnil, rfl⟩
  · obtain ⟨r, hr, hrest⟩ := bind_eq_ok.1 h
    cases r with
    | error hr => cases hrest
    | ok b =>
      cases hrest
      exact Or.inr ((convertUtf16ToUtf8_eq_ok env).1 hr).2

theorem toUtf8_eq_ok {text : Wide} (hlen : text.length < 2 ^ 31) {u8str : Bytes} :
    toUtf8 env text = .ok u8str ↔ env.encode text = some u8str ∧ u8str.length < 2 ^ 31 := by
  constructor
  · intro h
    rcases toUtf8_cases env h with ⟨rfl, rfl⟩ | hconverted
    · exact ⟨env.encode_eq_some.2 env.decode_nil, by decide⟩
    · rwa [toInt_of_lt hlen, Int.toNat_natCast, List.take_length] at hconverted
  · rintro ⟨henc, hu8⟩
    unfold toUtf8
    split_ifs with hnil
    · subst hnil
      rw [env.eq_nil_of_decode (env.encode_eq_some.1 henc)]
    · have hpos : 0 < text.length := List.length_pos_iff.2 hnil
      have hconvert : env.convertUtf16ToUtf8 text (toInt text.length) = .ok (.ok u8str) := by
        rw [convertUtf16ToUtf8_eq_ok, toInt_of_lt hlen, Int.toNat_natCast, List.take_length]
        exact ⟨by omega, henc, hu8⟩
      rw [hconvert]
      rfl

/-- The UTF-8 form of a text fits in an `int`. -/
theorem length_lt_of_toUtf8 {text : Wide} {u8str : Bytes} (h : toUtf8 env text = .ok u8str) :
    u8str.length < 2 ^ 31 := by
  rcases toUtf8_cases env h with ⟨-, rfl⟩ | ⟨-, hlen⟩
  · decide
  · exact hlen

/-- A scalar that is written where a reference points is not in quotes. -/
def writtenPlain : Option Node → Bool
  | some (.scalar s) => !env.requote s.quoted
  | _ => true

/-- Over anything but a container, the writer stores the text with its markers. -/
theorem writeStringAndMatchTypeToNode_eq_ok {node : Option Node} {val : StringAndMatchType}
    {n : Node} (hnode : node.any Node.isContainer = false) :
    writeStringAndMatchTypeToNode env node val = .ok n ↔
      ∃ u8str, toUtf8 env val.2 = .ok u8str ∧
        n = .scalar { quoted := !writtenPlain env node, text := some (addMarkers val.1 u8str) } := by
  unfold writeStringAndMatchTypeToNode
  simp only [hnode, Bool.false_eq_true, if_false, bind_eq_ok]
  refine exists_congr fun u8str => and_congr_right fun _ => ?_
  cases node with
  | none => simp [writeScalar, writtenPlain, eq_comm]
  | some m =>
    cases m with
    | scalar s => simp [writeScalar, writtenPlain, eq_comm]
    | seq items => cases hnode
    | map entries => cases hnode

/-- No spelling of null carries a marker. -/
theorem addMarkers_mem_nullSpellings {type : StringMatchType} {u8str : Bytes} :
    addMarkers type u8str ∈ Scalar.nullSpellings ↔
      type = .contains ∧ u8str ∈ Scalar.nullSpellings := by
  have hends : ∀ s ∈ Scalar.nullSpellings, s.head? ≠ some caret ∧ s.getLast? ≠ some dollar := by
    decide
  constructor
  · intro h
    have h' := hends _ h
    rw [addMarkers_eq_mark, Ne, Ne, MarkedWord.head?_mark caret_ne_dollar,
      MarkedWord.getLast?_mark caret_ne_dollar] at h'
    cases type with
    | contains => exact ⟨rfl, h⟩
    | startsWith => exact absurd (Or.inl rfl) h'.1
    | endsWith => exact absurd (Or.inl rfl) h'.2
    | equals => exact absurd (Or.inl rfl) h'.1
  · rintro ⟨rfl, h⟩
    exact h

/-- **A pattern that can be told apart in the file**: it is well formed and short enough, an end
without marker does not look like one, and it is not written as a null scalar. -/
def Storable (node : Option Node) (val : StringAndMatchType) : Prop :=
  ∃ u8str, env.encode val.2 = some u8str ∧ (addMarkers val.1 u8str).length < 2 ^ 31 ∧
    (val.1.first = true ∨ u8str.head? ≠ some caret) ∧
    (val.1.last = true ∨ u8str.getLast? ≠ some dollar) ∧
    ¬ (val.1 = .contains ∧ u8str ∈ Scalar.nullSpellings ∧ writtenPlain env node = true)

/-- The markers add at most two bytes. -/
theorem length_addMarkers (type : StringMatchType) (u8str : Bytes) :
    (addMarkers type u8str).length = type.first.toNat + u8str.length + type.last.toNat := by
  rw [addMarkers_eq_mark, MarkedWord.length_mark]

/-- What a scalar with markers around a well-formed text is read as. -/
theorem readStringAndMatchTypeFromNode_addMarkers {quoted : Bool} {val : StringAndMatchType}
    {u8str : Bytes} {id : KeyId} (henc : env.encode val.2 = some u8str)
    (hlen : (addMarkers val.1 u8str).length < 2 ^ 31)
    (hnull : Scalar.isNull ⟨quoted, some (addMarkers val.1 u8str)⟩ = false) :
    readStringAndMatchTypeFromNode env
        (some (.scalar ⟨quoted, some (addMarkers val.1 u8str)⟩)) id = .ok val ↔
      (val.1.first = true ∨ u8str.head? ≠ some caret) ∧
        (val.1.last = true ∨ u8str.getLast? ≠ some dollar) := by
  obtain ⟨type, text⟩ := val
  simp only at henc hlen hnull ⊢
  have hdec := env.encode_eq_some.1 henc
  rw [readStringAndMatchTypeFromNode_scalar env hnull,
    ← MarkedWord.strip_mark_iff caret_ne_dollar, ← addMarkers_eq_mark, strip_eq hlen,
    Prod.mk.injEq, Prod.mk.injEq]
  simp only [Scalar.val, Option.getD_some]
  constructor
  · rintro ⟨-, htype, htext⟩
    have hfirst := (congrArg StringMatchType.first htype).trans (StringMatchType.first_ofFlags _ _)
    have hlast := (congrArg StringMatchType.last htype).trans (StringMatchType.last_ofFlags _ _)
    refine ⟨hfirst.symm, hlast.symm, ?_⟩
    have hback := env.encode_eq_some.2 htext
    exact Option.some.inj (hback.symm.trans henc)
  · rintro ⟨hfirst, hlast, htext⟩
    rw [hfirst, hlast, StringMatchType.ofFlags_first_last, htext]
    refine ⟨?_, rfl, hdec⟩
    unfold utf8Length
    rw [toInt_of_lt hlen, hfirst, hlast, length_addMarkers]
    omega

/-- **Reading undoes writing exactly on the storable patterns.** -/
theorem readStringAndMatchTypeFromNode_write_iff {node : Option Node} (val : StringAndMatchType)
    (id : KeyId) (hnode : node.any Node.isContainer = false) :
    (∃ n, writeStringAndMatchTypeToNode env node val = .ok n ∧
      readStringAndMatchTypeFromNode env (some n) id = .ok val) ↔ Storable env node val := by
  simp only [writeStringAndMatchTypeToNode_eq_ok env hnode]
  constructor
  · rintro ⟨n, ⟨u8str, hutf8, rfl⟩, hread⟩
    have hu8 := length_lt_of_toUtf8 env hutf8
    cases hnull : Scalar.isNull ⟨!writtenPlain env node, some (addMarkers val.1 u8str)⟩ with
    | true =>
      -- a null scalar is read as the empty pattern, which is not written as one
      exfalso
      rw [readStringAndMatchTypeFromNode_null env id (by simp [hnull])] at hread
      cases hread
      cases hutf8
      simp [Scalar.isNull, addMarkers, Scalar.nullSpellings, ascii] at hnull
    | false =>
      obtain ⟨hnonneg, -, -⟩ := (readStringAndMatchTypeFromNode_scalar env hnull).1 hread
      have hfirst := Bool.toNat_le val.1.first
      have hlast := Bool.toNat_le val.1.last
      have hmarked := length_addMarkers val.1 u8str
      have hlen : (addMarkers val.1 u8str).length < 2 ^ 31 :=
        length_lt_of_utf8Length hnonneg (by omega)
      have htext := length_lt_of_readStringAndMatchType env hread
      have henc := ((toUtf8_eq_ok env htext).1 hutf8).1
      obtain ⟨hhead, hend⟩ :=
        (readStringAndMatchTypeFromNode_addMarkers env henc hlen hnull).1 hread
      refine ⟨u8str, henc, hlen, hhead, hend, ?_⟩
      rintro ⟨htype, hmem, hplain⟩
      have hmem' := addMarkers_mem_nullSpellings.2 ⟨htype, hmem⟩
      simp [Scalar.isNull, hplain, hmem'] at hnull
  · rintro ⟨u8str, henc, hlen, hhead, hend, hplain⟩
    have htext : val.2.length < 2 ^ 31 := by
      have hle := env.length_decode_le (env.encode_eq_some.1 henc)
      rw [length_addMarkers] at hlen
      omega
    have hu8 : u8str.length < 2 ^ 31 := by
      rw [length_addMarkers] at hlen
      omega
    refine ⟨_, ⟨u8str, (toUtf8_eq_ok env htext).2 ⟨henc, hu8⟩, rfl⟩, ?_⟩
    refine (readStringAndMatchTypeFromNode_addMarkers env henc hlen ?_).2 ⟨hhead, hend⟩
    have hmem : writtenPlain env node = true →
        addMarkers val.1 u8str ∉ Scalar.nullSpellings := fun hw hmem => by
      obtain ⟨htype, hspelling⟩ := addMarkers_mem_nullSpellings.1 hmem
      exact hplain ⟨htype, hspelling, hw⟩
    cases hw : writtenPlain env node with
    | true => simp [Scalar.isNull, hmem hw]
    | false => simp [Scalar.isNull]

/-- Writing the markers that were seen around what is left without them gives the scalar back. -/
theorem addMarkers_textBytes {u8str : Bytes} (h : u8str.length < 2 ^ 31) :
    addMarkers (.ofFlags (hasCaret u8str) (hasDollar u8str)) (textBytes u8str) = u8str := by
  have hmark := MarkedWord.mark_strip caret_ne_dollar u8str
  simp only [strip_eq h] at hmark
  rw [addMarkers_eq_mark, StringMatchType.first_ofFlags, StringMatchType.last_ofFlags, hmark]

/-- The markers are characters of their own, so what stands between them is well formed when the
whole is. -/
theorem decode_of_decode_addMarkers {type : StringMatchType} {u8str : Bytes} {w : Wide}
    (h : env.decode (addMarkers type u8str) = some w) : ∃ text, env.decode u8str = some text := by
  have hcaret := env.decode_ascii caret (by decide)
  have hdollar := env.decode_ascii dollar (by decide)
  cases type with
  | contains => exact ⟨w, h⟩
  | startsWith =>
    obtain ⟨text, htext, -⟩ := env.decode_append_right (b := u8str) hcaret h
    exact ⟨text, htext⟩
  | endsWith => exact env.decode_left hdollar h
  | equals =>
    obtain ⟨text, htext⟩ := env.decode_left hdollar h
    obtain ⟨text', htext', -⟩ := env.decode_append_right (b := u8str) hcaret htext
    exact ⟨text', htext'⟩

/-- What is read from a well-formed scalar, and that it is written as that scalar again. -/
theorem readStringAndMatchTypeFromNode_survives {s : Scalar} (hnull : s.isNull = false)
    (hlen : s.val.length < 2 ^ 31) {w : Wide} (hdec : env.decode s.val = some w) (id : KeyId) :
    ∃ val, readStringAndMatchTypeFromNode env (some (.scalar s)) id = .ok val ∧
      ∀ node : Option Node, node.any Node.isContainer = false →
        writeStringAndMatchTypeToNode env node val =
          .ok (.scalar { quoted := !writtenPlain env node, text := some s.val }) := by
  have hmarked := addMarkers_textBytes hlen
  obtain ⟨text, htext⟩ := decode_of_decode_addMarkers env (hmarked.symm ▸ hdec)
  have htextlen : text.length < 2 ^ 31 :=
    lt_of_le_of_lt (env.length_decode_le htext) (length_textBytes_lt s.val)
  refine ⟨(.ofFlags (hasCaret s.val) (hasDollar s.val), text), ?_, fun node hnode => ?_⟩
  · exact (readStringAndMatchTypeFromNode_scalar env hnull).2 ⟨utf8Length_nonneg hlen, rfl, htext⟩
  · refine (writeStringAndMatchTypeToNode_eq_ok env hnode).2 ⟨textBytes s.val, ?_, ?_⟩
    · exact (toUtf8_eq_ok env htextlen).2
        ⟨env.encode_eq_some.2 htext, length_textBytes_lt s.val⟩
    · rw [hmarked]

/-- A scalar of a pattern: not null, well-formed UTF-8, and short enough for an `int`. -/
structure PatternScalar (s : Scalar) : Prop where
  notNull : s.isNull = false
  length_lt : s.val.length < 2 ^ 31
  wellFormed : ∃ text, env.decode s.val = some text

/-- **A pattern scalar survives a save without edits**, wherever the pattern is written, and no
other text is read as the same pattern. -/
theorem readStringAndMatchTypeFromNode_then_write {s : Scalar} (hs : PatternScalar env s)
    (id : KeyId) :
    (∃ val, readStringAndMatchTypeFromNode env (some (.scalar s)) id = .ok val ∧
      ∀ node : Option Node, node.any Node.isContainer = false →
        writeStringAndMatchTypeToNode env node val =
          .ok (.scalar { quoted := !writtenPlain env node, text := some s.val })) ∧
      ∀ s' id', PatternScalar env s' →
        readStringAndMatchTypeFromNode env (some (.scalar s')) id' =
          readStringAndMatchTypeFromNode env (some (.scalar s)) id → s'.val = s.val := by
  obtain ⟨w, hdec⟩ := hs.wellFormed
  obtain ⟨val, hread, hwrite⟩ :=
    readStringAndMatchTypeFromNode_survives env hs.notNull hs.length_lt hdec id
  refine ⟨⟨val, hread, hwrite⟩, fun s' id' hs' hsame => ?_⟩
  obtain ⟨w', hdec'⟩ := hs'.wellFormed
  obtain ⟨val', hread', hwrite'⟩ :=
    readStringAndMatchTypeFromNode_survives env hs'.notNull hs'.length_lt hdec' id'
  rw [hread', hread] at hsame
  cases hsame
  -- one pattern has been written from both scalars
  have hboth := (hwrite' none rfl).symm.trans (hwrite none rfl)
  simpa using hboth

/-- The scalar `^` is the pattern of every text, and `^` again when it is written back. -/
theorem readStringAndMatchTypeFromNode_then_write_caret :
    (∃ val, readStringAndMatchTypeFromNode asciiExternals
        (some (.scalar ⟨false, some [caret]⟩)) .windowTitle = .ok val ∧
      ∀ node : Option Node, node.any Node.isContainer = false →
        writeStringAndMatchTypeToNode asciiExternals node val =
          .ok (.scalar { quoted := !writtenPlain asciiExternals node, text := some [caret] })) ∧
      ∀ s' id', PatternScalar asciiExternals s' →
        readStringAndMatchTypeFromNode asciiExternals (some (.scalar s')) id' =
          readStringAndMatchTypeFromNode asciiExternals
            (some (.scalar ⟨false, some [caret]⟩)) .windowTitle → s'.val = [caret] :=
  readStringAndMatchTypeFromNode_then_write asciiExternals
    ⟨by decide, by decide, ⟨[94], by decide⟩⟩ .windowTitle

/-- A child that is read as the empty pattern. -/
def ReadAsEmpty (node : Option Node) : Prop :=
  ∀ n ∈ node, ∃ s, n = .scalar s ∧ (s.isNull = true ∨
    (utf8Length s.val = 0 ∧ hasCaret s.val = false ∧ hasDollar s.val = false))

theorem readStringAndMatchTypeFromNode_eq_empty {node : Option Node} {id : KeyId} :
    readStringAndMatchTypeFromNode env node id = .ok (.contains, []) ↔ ReadAsEmpty node := by
  unfold ReadAsEmpty
  cases node with
  | none => simp [readStringAndMatchTypeFromNode]
  | some n =>
    cases n with
    | seq items => simp [readStringAndMatchTypeFromNode, throwParse]
    | map entries => simp [readStringAndMatchTypeFromNode, throwParse]
    | scalar s =>
      cases hs : s.isNull with
      | true => simp [readStringAndMatchTypeFromNode, hs]
      | false =>
        have hflags : StringMatchType.contains = .ofFlags false false := rfl
        rw [readStringAndMatchTypeFromNode_scalar env hs, hflags, StringMatchType.ofFlags_inj]
        simp only [Option.mem_def, Option.some.injEq, forall_eq', Node.scalar.injEq,
          exists_eq_left', hs, Bool.false_eq_true, false_or]
        constructor
        · rintro ⟨hnonneg, ⟨hc, hd⟩, hdec⟩
          refine ⟨?_, hc.symm, hd.symm⟩
          have hnil := env.eq_nil_of_decode hdec
          rw [textBytes, ← hc, Bool.toNat_false, List.drop_zero, List.take_eq_nil_iff] at hnil
          rcases hnil with hzero | hval
          · omega
          · rw [hval]
            exact utf8Length_nil
        · rintro ⟨hzero, hc, hd⟩
          refine ⟨hzero.ge, ⟨hc.symm, hd.symm⟩, ?_⟩
          simp [textBytes, hzero]

end Pattern

/-! ### The three patterns of a filter -/

namespace Filter

/-- The three patterns. -/
inductive Slot
  | processImageName
  | windowClass
  | windowTitle
  deriving DecidableEq, Repr

namespace Slot

/-- The key of a pattern. -/
def key : Slot → Bytes
  | processImageName => Key.kProcessKey
  | windowClass => Key.kWindowClassKey
  | windowTitle => Key.kWindowTitleKey

/-- The id its errors are reported with. -/
def keyId : Slot → KeyId
  | processImageName => .processImageName
  | windowClass => .windowClass
  | windowTitle => .windowTitle

/-- The getter. -/
def get (filter : Filter) : Slot → StringAndMatchType
  | processImageName => filter.processImageName
  | windowClass => filter.windowClass
  | windowTitle => filter.windowTitle

/-- The filter with one pattern replaced. -/
def update (filter : Filter) (val : StringAndMatchType) : Slot → Filter
  | processImageName => { filter with processImageName := val }
  | windowClass => { filter with windowClass := val }
  | windowTitle => { filter with windowTitle := val }

/-- The setter. -/
def set (node : Node) (filter : Filter) (val : StringAndMatchType) :
    Slot → Except Fault (Node × Filter)
  | processImageName => filter.setProcessImageName env node val
  | windowClass => filter.setWindowClass env node val
  | windowTitle => filter.setWindowTitle env node val

theorem key_injective : Function.Injective key := by
  intro a b
  cases a <;> cases b <;> decide

@[simp] theorem get_update_self (filter : Filter) (val : StringAndMatchType) (slot : Slot) :
    slot.get (slot.update filter val) = val := by
  cases slot <;> rfl

theorem get_update_of_ne {slot slot' : Slot} (h : slot' ≠ slot) (filter : Filter)
    (val : StringAndMatchType) : slot'.get (slot.update filter val) = slot'.get filter := by
  cases slot <;> cases slot' <;> first | rfl | exact absurd rfl h

end Slot

variable {node node' : Node} {filter filter' : Filter} {slot : Slot} {val : StringAndMatchType}

theorem ofNode_eq_ok_iff_get : ofNode env node = .ok filter ↔ node.isMap = true ∧
    ∀ slot : Slot, readStringAndMatchTypeFromNode env (node.child slot.key) slot.keyId =
      .ok (slot.get filter) := by
  rw [ofNode_eq_ok]
  refine and_congr_right fun _ => ⟨?_, fun h => ⟨h .processImageName, h .windowClass,
    h .windowTitle⟩⟩
  rintro ⟨hp, hc, ht⟩ slot
  cases slot with
  | processImageName => exact hp
  | windowClass => exact hc
  | windowTitle => exact ht

/-- A setter writes its entry, and then replaces its pattern. -/
theorem Slot.set_eq : slot.set env node filter val =
    writeFilterStringMatchType env node slot.key val >>= fun n =>
      .ok (n, slot.update filter val) := by
  cases slot <;> rfl

theorem Slot.set_eq_ok : slot.set env node filter val = .ok (node', filter') ↔
    writeFilterStringMatchType env node slot.key val = .ok node' ∧
      filter' = slot.update filter val := by
  rw [Slot.set_eq, bind_eq_ok]
  simp only [Except.ok.injEq, Prod.mk.injEq]
  constructor
  · rintro ⟨n, hn, rfl, rfl⟩
    exact ⟨hn, rfl⟩
  · rintro ⟨hn, rfl⟩
    exact ⟨node', hn, rfl, rfl⟩

/-- Writing an entry leaves the entries under the other keys alone. -/
theorem child_of_write {key key' : Bytes}
    (h : writeFilterStringMatchType env node key val = .ok node') (hne : key' ≠ key) :
    node'.child key' = node.child key' := by
  unfold writeFilterStringMatchType at h
  split_ifs at h with hempty hchild
  · cases h
    exact Node.child_removeChild_of_ne node hne
  · cases h
    rfl
  · obtain ⟨child, -, hrest⟩ := bind_eq_ok.1 h
    cases hrest
    exact Node.child_setChild_of_ne node hne child

theorem isMap_of_write {key : Bytes}
    (h : writeFilterStringMatchType env node key val = .ok node') (hmap : node.isMap = true) :
    node'.isMap = true := by
  unfold writeFilterStringMatchType at h
  split_ifs at h with hempty hchild
  · cases h
    rfl
  · cases h
    exact hmap
  · obtain ⟨child, -, hrest⟩ := bind_eq_ok.1 h
    cases hrest
    rfl

/-- The second entry under a key, which a removal brings to light. -/
def hiddenChild (node : Node) (key : Bytes) : Option Node :=
  (KeyedList.valuesAt key node.entries).tail.head?

/-- **A call whose pattern can be told apart afterwards.**  The empty pattern removes its entry, so
nothing may be left under the key; any other pattern must be storable. -/
def StorableAt (node : Node) (slot : Slot) (val : StringAndMatchType) : Prop :=
  if val.2 = [] ∧ val.1 = .contains then ReadAsEmpty (hiddenChild node slot.key)
  else Storable env (node.child slot.key) val

/-- The entry that a setter writes gives the pattern back exactly if it is storable. -/
theorem write_read_iff (hnode : (node.child slot.key).any Node.isContainer = false) :
    (∃ node', writeFilterStringMatchType env node slot.key val = .ok node' ∧
      readStringAndMatchTypeFromNode env (node'.child slot.key) slot.keyId = .ok val) ↔
      StorableAt env node slot val := by
  unfold writeFilterStringMatchType StorableAt
  by_cases hempty : val.2 = [] ∧ val.1 = .contains
  · obtain ⟨type, text⟩ := val
    obtain ⟨rfl, rfl⟩ : text = [] ∧ type = .contains := hempty
    have hchild : (if node.hasChild slot.key then node.removeChild slot.key else node).child
        slot.key = hiddenChild node slot.key := by
      unfold hiddenChild
      split_ifs with hhas
      · rw [Node.child, Node.entries_removeChild, KeyedList.lookup_eq_head?,
          KeyedList.valuesAt_erase_self]
      · rw [Node.hasChild, Node.child, KeyedList.lookup_eq_head?] at hhas
        rw [Node.child, KeyedList.lookup_eq_head?]
        cases hvalues : KeyedList.valuesAt slot.key node.entries with
        | nil => rfl
        | cons n rest => simp [hvalues] at hhas
    simp only [and_self, if_true, Except.ok.injEq, exists_eq_left', hchild,
      readStringAndMatchTypeFromNode_eq_empty]
  · have hroundTrip := readStringAndMatchTypeFromNode_write_iff env val slot.keyId hnode
    simp only [if_neg hempty, ← hroundTrip, bind_eq_ok, Except.ok.injEq]
    constructor
    · rintro ⟨_, ⟨child, hwrite, rfl⟩, hread⟩
      rw [Node.child_setChild_self] at hread
      exact ⟨child, hwrite, hread⟩
    · rintro ⟨child, hwrite, hread⟩
      refine ⟨_, ⟨child, hwrite, rfl⟩, ?_⟩
      rw [Node.child_setChild_self]
      exact hread

/-! ### Sequences of calls -/

/-- The call of a setter; a call that throws ends the sequence. -/
def step (s : Except Fault (Node × Filter)) (call : Slot × StringAndMatchType) :
    Except Fault (Node × Filter) :=
  s >>= fun p => call.1.set env p.1 p.2 call.2

/-- A fresh filter on the node has the patterns in memory. -/
def Agrees (s : Except Fault (Node × Filter)) : Prop :=
  ∃ node filter, s = .ok (node, filter) ∧ ofNode env node = .ok filter

/-- The call finds its pattern storable in the node. -/
def CallStorable (s : Except Fault (Node × Filter)) (call : Slot × StringAndMatchType) : Prop :=
  ∀ node filter, s = .ok (node, filter) → StorableAt env node call.1 call.2

/-- A child that a filter was read from is no container. -/
theorem not_isContainer_of_read {child : Option Node} {id : KeyId}
    (h : readStringAndMatchTypeFromNode env child id = .ok val) :
    child.any Node.isContainer = false := by
  cases child with
  | none => rfl
  | some n =>
    obtain ⟨s, rfl⟩ := scalar_of_readStringAndMatchType env h
    rfl

/-- A call keeps the agreement exactly if its pattern is storable. -/
theorem agrees_step_iff (s : Except Fault (Node × Filter)) (call : Slot × StringAndMatchType)
    (h : Agrees env s) : Agrees env (step env s call) ↔ CallStorable env s call := by
  obtain ⟨node, filter, rfl, hfilter⟩ := h
  obtain ⟨slot, val⟩ := call
  obtain ⟨hmap, hread⟩ := (ofNode_eq_ok_iff_get env).1 hfilter
  have hstorable : CallStorable env (.ok (node, filter)) (slot, val) ↔
      StorableAt env node slot val := by
    refine ⟨fun h => h node filter rfl, fun h n f heq => ?_⟩
    cases heq
    exact h
  rw [hstorable, ← write_read_iff env (not_isContainer_of_read env (hread slot))]
  have hstep : step env (.ok (node, filter)) (slot, val) = slot.set env node filter val := rfl
  simp only [Agrees, hstep, Slot.set_eq_ok]
  constructor
  · rintro ⟨node', filter', ⟨hwrite, rfl⟩, hfresh⟩
    have hslot := ((ofNode_eq_ok_iff_get env).1 hfresh).2 slot
    rw [Slot.get_update_self] at hslot
    exact ⟨node', hwrite, hslot⟩
  · rintro ⟨node', hwrite, hslot⟩
    refine ⟨node', slot.update filter val, ⟨hwrite, rfl⟩, ?_⟩
    refine (ofNode_eq_ok_iff_get env).2 ⟨isMap_of_write env hwrite hmap, fun slot' => ?_⟩
    by_cases hslot' : slot' = slot
    · rw [hslot', Slot.get_update_self]
      exact hslot
    · have hkey : slot'.key ≠ slot.key := fun hk => hslot' (Slot.key_injective hk)
      rw [child_of_write env hwrite hkey, Slot.get_update_of_ne hslot']
      exact hread slot'

/-- **A filter agrees with its node throughout a sequence of calls** exactly if every call finds its
pattern storable. -/
theorem agrees_iff_storable {node : Node} {filter : Filter} (h : ofNode env node = .ok filter)
    (calls : List (Slot × StringAndMatchType)) :
    Run.Always (step env) (Agrees env) (.ok (node, filter)) calls ↔
      Run.AllSteps (step env) (CallStorable env) (.ok (node, filter)) calls :=
  Run.always_iff_allSteps (agrees_step_iff env) ⟨node, filter, rfl, h⟩ calls

/-- The filter of a map without entries. -/
def matchAll : Filter :=
  { processImageName := (.contains, []), windowClass := (.contains, []),
    windowTitle := (.contains, []) }

/-- A title that begins with `a`, set and removed again. -/
theorem agrees_startsWith :
    Run.Always (step asciiExternals) (Agrees asciiExternals) (.ok (.map [], matchAll))
      [(.windowTitle, .startsWith, wide "a"), (.windowTitle, .contains, [])] := by
  refine (agrees_iff_storable asciiExternals rfl _).2 ⟨?_, ?_, trivial⟩
  · intro node filter h
    cases h
    rw [StorableAt, if_neg (by decide)]
    exact ⟨ascii "a", by decide, by decide, by decide, by decide, by decide⟩
  · intro node filter h
    cases h
    rw [StorableAt, if_pos ⟨rfl, rfl⟩]
    intro n hn
    cases hn

/-- A title that contains `^a` comes back as one that starts with `a`. -/
theorem set_caret :
    ofNode asciiExternals (.map []) = .ok matchAll ∧
    (asciiExternals.encode (wide "^a")).isSome = true ∧
    ¬ Run.Always (step asciiExternals) (Agrees asciiExternals) (.ok (.map [], matchAll))
      [(.windowTitle, .contains, wide "^a")] := by
  refine ⟨rfl, by decide, ?_⟩
  rintro ⟨-, node, filter, hstep, hfresh⟩
  cases hstep
  exact absurd hfresh (by decide)

end Filter

end RoxyGlance.Settings
