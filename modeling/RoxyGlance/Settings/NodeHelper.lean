import RoxyGlance.Yaml
import RoxyGlance.Externals
import RoxyGlance.Lib.MarkedWord

/-!
# Reading and writing values

The readers and writers that the settings types are built from.  Readers get an optional node,
`none` for a missing child; a missing or null value gives the default.  Writers get the node a
reference points at, `none` for a seed, and return the node that stands there afterwards.

* `readStringAndMatchTypeFromNode_scalar`: what a pattern scalar is read as, in terms of
  `MarkedWord.strip`;
* `writeStringAndMatchTypeToNode_eq_ok`: which scalar a pattern is written as, in terms of
  `MarkedWord.mark`.
-/

namespace RoxyGlance.Settings

/-! ### Keys -/

namespace Key

def kRules : Bytes := ascii "rules"
def kName : Bytes := ascii "name"
def kWhen : Bytes := ascii "when"
def kWhere : Bytes := ascii "where"
def kThen : Bytes := ascii "then"
def kProcessKey : Bytes := ascii "process"
def kWindowClassKey : Bytes := ascii "class"
def kWindowTitleKey : Bytes := ascii "title"
def kType : Bytes := ascii "type"
def kMonitorId : Bytes := ascii "id"
def kMonitorName : Bytes := ascii "name"
def kPosX : Bytes := ascii "x"
def kPosY : Bytes := ascii "y"
def kWidth : Bytes := ascii "width"
def kHeight : Bytes := ascii "height"

end Key

/-- Throw a `ParseError` without content. -/
def throwParse {α : Type} (reason : ParseErrorReason) (id : KeyId) : Except Fault α :=
  .error (.parseError { reason, keyId := id })

/-! ### Numbers -/

section Numbers

variable {F : Type} [FloatLike F] (env : Externals F)

/-- The part the number readers share: parse the text and check the range. -/
def readNumber {α : Type} (parse : Bytes → Option α) (lt : α → α → Bool) (toChars : α → Bytes)
    (text : Bytes) (id : KeyId) (minVal maxVal : α) : Except Fault α :=
  match parse text with
  | none => throwParse .invalidNumber id
  | some val =>
    if lt val minVal || lt maxVal val then
      .error (.parseError { reason := .numberOutOfRange, keyId := id, content := toChars val })
    else .ok val

/-- What the `OrDefault` readers do with a node, given how to read its text. -/
def readNumberOrDefault {α : Type} (read : Bytes → Except Fault α) (node : Option Node) (id : KeyId)
    (defVal : α) : Except Fault α :=
  match node with
  | none => .ok defVal
  | some (.scalar s) => if s.isNull then .ok defVal else read s.val
  | some _ => throwParse .expectedNumber id

/-- `ReadLongFromNodeOrDefault` -/
def readLongFromNodeOrDefault (node : Option Node) (id : KeyId) (minVal maxVal defVal : ℤ) :
    Except Fault ℤ :=
  readNumberOrDefault (fun text => readNumber env.readLong (fun a b => decide (a < b))
    (fun n => ascii (toString n)) text id minVal maxVal) node id defVal

/-- `ReadFloatFromNodeOrDefault`.  The program is built with the fast floating point model, which
leaves out the `isfinite` check. -/
def readFloatFromNodeOrDefault (node : Option Node) (id : KeyId) (minVal maxVal defVal : F) :
    Except Fault F :=
  readNumberOrDefault (fun text => readNumber env.readFloat FloatLike.lt env.floatToChars text id
    minVal maxVal) node id defVal

/-- Store a text where a reference points: into the scalar there, or as a new scalar.  A container
is refused. -/
def writeScalar (node : Option Node) (text : Bytes) : Except Fault Node :=
  match node with
  | none => .ok (.scalar { quoted := false, text := some text })
  | some (.scalar s) => .ok (.scalar { quoted := env.requote s.quoted, text := some text })
  | some _ => .error (throwHResult HResult.invalidArg)

/-- `WriteLongToNode` -/
def writeLongToNode (node : Option Node) (val : ℤ) : Except Fault Node :=
  writeScalar env node (env.showLong val)

/-- `WriteFloatToNode` -/
def writeFloatToNode (node : Option Node) (val : F) : Except Fault Node :=
  writeScalar env node (env.showFloat val)

end Numbers

/-! ### Which numbers are readable -/

section Readable

variable {F : Type} [FloatLike F] (env : Externals F)

/-- A child the number readers accept: missing, null, or a number that is not outside the range. -/
def NumberReadable {α : Type} (parse : Bytes → Option α) (lt : α → α → Bool) (minVal maxVal : α)
    (node : Option Node) : Prop :=
  ∀ n ∈ node, ∃ s, n = .scalar s ∧ (s.isNull = true ∨
    ∃ v, parse s.val = some v ∧ lt v minVal = false ∧ lt maxVal v = false)

theorem returnsNormally_readNumber {α : Type} {parse : Bytes → Option α} {lt : α → α → Bool}
    {toChars : α → Bytes} {text : Bytes} {id : KeyId} {minVal maxVal : α} :
    ReturnsNormally (readNumber parse lt toChars text id minVal maxVal) ↔
      ∃ v, parse text = some v ∧ lt v minVal = false ∧ lt maxVal v = false := by
  unfold readNumber
  cases h : parse text with
  | none => simp [throwParse]
  | some v =>
    simp only [Option.some.injEq, exists_eq_left']
    cases hlo : lt v minVal <;> cases hhi : lt maxVal v <;> simp

theorem returnsNormally_readNumberOrDefault {α : Type} {parse : Bytes → Option α}
    {lt : α → α → Bool} {toChars : α → Bytes} {id : KeyId} {minVal maxVal defVal : α}
    {node : Option Node} :
    ReturnsNormally (readNumberOrDefault (fun text => readNumber parse lt toChars text id minVal
      maxVal) node id defVal) ↔ NumberReadable parse lt minVal maxVal node := by
  unfold NumberReadable
  cases node with
  | none => simp [readNumberOrDefault]
  | some n =>
    cases n with
    | scalar s =>
      cases hs : s.isNull with
      | true => simp [readNumberOrDefault, hs]
      | false =>
        simp only [readNumberOrDefault, hs, Bool.false_eq_true, if_false,
          returnsNormally_readNumber]
        simp [hs]
    | seq items => simp [readNumberOrDefault, throwParse]
    | map entries => simp [readNumberOrDefault, throwParse]

/-- A number that is read before something else. -/
theorem returnsNormally_readNumberOrDefault_bind {α β : Type} {parse : Bytes → Option α}
    {lt : α → α → Bool} {toChars : α → Bytes} {id : KeyId} {minVal maxVal defVal : α}
    {node : Option Node} {f : α → Except Fault β} {q : Prop} (h : ∀ a, ReturnsNormally (f a) ↔ q) :
    ReturnsNormally (readNumberOrDefault (fun text => readNumber parse lt toChars text id minVal
      maxVal) node id defVal >>= f) ↔ NumberReadable parse lt minVal maxVal node ∧ q := by
  rw [returnsNormally_bind_iff fun a _ => h a, returnsNormally_readNumberOrDefault]

end Readable

/-! ### Strings -/

section Strings

variable {F : Type} (env : Externals F)

/-- `ConvertUtf8Value` -/
def convertUtf8Value (id : KeyId) (u8ptr : Bytes) (u8len : ℤ) : Except Fault Wide := do
  match ← env.convertUtf8ToUtf16 u8ptr u8len with
  | .ok u16str => .ok u16str
  | .error hr =>
    if hr = HResult.kErrorNoUnicodeTranslation then throwParse .invalidString id
    else .error (throwHResult hr)

/-- `ReadStringFromNode` -/
def readStringFromNode (node : Option Node) (id : KeyId) : Except Fault Wide :=
  match node with
  | none => .ok []
  | some (.scalar s) =>
    if s.isNull then .ok []
    else if s.val = [] then .ok []
    else convertUtf8Value env id s.val (toInt s.val.length)
  | some _ => throwParse .expectedString id

/-- `StringMatchType`, a set of the two flags *starts with* and *ends with*. -/
inductive StringMatchType
  | contains
  | startsWith
  | endsWith
  | equals
  deriving DecidableEq, Repr

namespace StringMatchType

/-- The value with the given flags. -/
def ofFlags : Bool → Bool → StringMatchType
  | false, false => contains
  | true, false => startsWith
  | false, true => endsWith
  | true, true => equals

/-- The flag `kStartsWith` is set. -/
def first : StringMatchType → Bool
  | contains | endsWith => false
  | startsWith | equals => true

/-- The flag `kEndsWith` is set. -/
def last : StringMatchType → Bool
  | contains | startsWith => false
  | endsWith | equals => true

@[simp] theorem ofFlags_first_last (t : StringMatchType) : ofFlags t.first t.last = t := by
  cases t <;> rfl

@[simp] theorem first_ofFlags (a b : Bool) : (ofFlags a b).first = a := by
  cases a <;> cases b <;> rfl

@[simp] theorem last_ofFlags (a b : Bool) : (ofFlags a b).last = b := by
  cases a <;> cases b <;> rfl

theorem ofFlags_inj {a b c d : Bool} : ofFlags a b = ofFlags c d ↔ a = c ∧ b = d := by
  cases a <;> cases b <;> cases c <;> cases d <;> decide

end StringMatchType

/-- `StringAndMatchType` -/
abbrev StringAndMatchType := StringMatchType × Wide

/-- `^` -/
def caret : UInt8 := 94

/-- `$` -/
def dollar : UInt8 := 36

theorem caret_ne_dollar : caret ≠ dollar := by decide

/-- A pattern begins with `^`. -/
def hasCaret (u8str : Bytes) : Bool := decide (u8str.head? = some caret)

/-- A pattern ends with `$`. -/
def hasDollar (u8str : Bytes) : Bool := decide (u8str.getLast? = some dollar)

/-- The length of what is left of a pattern without its markers, computed as an `int`. -/
def utf8Length (u8str : Bytes) : ℤ :=
  toInt u8str.length - (hasCaret u8str).toNat - (hasDollar u8str).toNat

/-- `ReadStringAndMatchTypeFromNode` -/
def readStringAndMatchTypeFromNode (node : Option Node) (id : KeyId) :
    Except Fault StringAndMatchType :=
  match node with
  | none => .ok (.contains, [])
  | some (.scalar s) =>
    if s.isNull then .ok (.contains, [])
    else if s.val = [] then .ok (.contains, [])
    else
      let compareType := StringMatchType.ofFlags (hasCaret s.val) (hasDollar s.val)
      let utf8ptr := s.val.drop (hasCaret s.val).toNat
      let utf8len := utf8Length s.val
      if utf8len = 0 then .ok (compareType, [])
      else do
        let text ← convertUtf8Value env id utf8ptr utf8len
        .ok (compareType, text)
  | some _ => throwParse .expectedString id

/-- The markers a match type is written with around the text. -/
def addMarkers (type : StringMatchType) (u8str : Bytes) : Bytes :=
  match type with
  | .contains => u8str
  | .equals => (caret :: u8str) ++ [dollar]
  | .endsWith => u8str ++ [dollar]
  | .startsWith => caret :: u8str

/-- The UTF-8 form of a text, which the conversion is not asked for when the text is empty. -/
def toUtf8 (text : Wide) : Except Fault Bytes :=
  if text = [] then .ok []
  else do
    match ← env.convertUtf16ToUtf8 text (toInt text.length) with
    | .ok u8str => .ok u8str
    | .error hr => .error (throwHResult hr)

/-- `WriteStringAndMatchTypeToNode` -/
def writeStringAndMatchTypeToNode (node : Option Node) (val : StringAndMatchType) :
    Except Fault Node :=
  if node.any Node.isContainer then .error (throwHResult HResult.invalidArg)
  else do
    let u8str ← toUtf8 env val.2
    writeScalar env node (addMarkers val.1 u8str)

/-! ### What the pattern reader returns -/

theorem convertUtf8Value_eq_ok {id : KeyId} {u8ptr : Bytes} {u8len : ℤ} {text : Wide} :
    convertUtf8Value env id u8ptr u8len = .ok text ↔
      0 < u8len ∧ env.decode (u8ptr.take u8len.toNat) = some text := by
  unfold convertUtf8Value TextCodec.convertUtf8ToUtf16
  by_cases hlen : u8len ≤ 0
  · simp [hlen, bind, Except.bind]
  · cases h : env.decode (u8ptr.take u8len.toNat) with
    | none => simp [hlen, bind, Except.bind, throwParse]
    | some w => simp [hlen, bind, Except.bind, not_le.1 hlen]

/-- The bytes of a pattern that are converted. -/
def textBytes (u8str : Bytes) : Bytes :=
  (u8str.drop (hasCaret u8str).toNat).take (utf8Length u8str).toNat

@[simp] theorem textBytes_nil : textBytes [] = [] := rfl

theorem utf8Length_nil : utf8Length [] = 0 := by decide

/-- **What a pattern scalar is read as.** -/
theorem readStringAndMatchTypeFromNode_scalar {s : Scalar} (hs : s.isNull = false) {id : KeyId}
    {type : StringMatchType} {text : Wide} :
    readStringAndMatchTypeFromNode env (some (.scalar s)) id = .ok (type, text) ↔
      0 ≤ utf8Length s.val ∧ type = .ofFlags (hasCaret s.val) (hasDollar s.val) ∧
        env.decode (textBytes s.val) = some text := by
  unfold readStringAndMatchTypeFromNode
  simp only [hs, Bool.false_eq_true, if_false]
  by_cases hnil : s.val = []
  · simp only [hnil, if_true, textBytes_nil, TextCodec.decode_nil, utf8Length_nil, le_refl,
      true_and, Except.ok.injEq, Prod.mk.injEq, Option.some.injEq]
    refine and_congr_left fun _ => ?_
    exact eq_comm
  · rw [if_neg hnil]
    by_cases hzero : utf8Length s.val = 0
    · have htext : textBytes s.val = [] := by simp [textBytes, hzero]
      simp only [hzero, if_true, htext, TextCodec.decode_nil, le_refl, true_and,
        Except.ok.injEq, Prod.mk.injEq, Option.some.injEq]
      exact and_congr_left fun _ => eq_comm
    · simp only [if_neg hzero, bind_eq_ok, convertUtf8Value_eq_ok, Except.ok.injEq,
        Prod.mk.injEq]
      constructor
      · rintro ⟨w, ⟨hpos, hdec⟩, rfl, rfl⟩
        exact ⟨hpos.le, rfl, hdec⟩
      · rintro ⟨hnonneg, rfl, hdec⟩
        exact ⟨text, ⟨by omega, hdec⟩, rfl, rfl⟩

/-- A missing or null scalar is read as the empty pattern. -/
theorem readStringAndMatchTypeFromNode_null {node : Option Node} (id : KeyId)
    (h : ∀ n ∈ node, ∃ s, n = .scalar s ∧ s.isNull = true) :
    readStringAndMatchTypeFromNode env node id = .ok (.contains, []) := by
  cases node with
  | none => rfl
  | some n =>
    obtain ⟨s, rfl, hs⟩ := h n rfl
    simp [readStringAndMatchTypeFromNode, hs]

/-- A pattern is only read from a missing child or a scalar. -/
theorem scalar_of_readStringAndMatchType {n : Node} {id : KeyId} {val : StringAndMatchType}
    (h : readStringAndMatchTypeFromNode env (some n) id = .ok val) : ∃ s, n = .scalar s := by
  cases n with
  | scalar s => exact ⟨s, rfl⟩
  | seq items => cases h
  | map entries => cases h

/-- A child the pattern reader accepts: missing, null, or a text whose part between the markers is
well-formed. -/
def PatternReadable (node : Option Node) : Prop :=
  ∀ n ∈ node, ∃ s, n = .scalar s ∧ (s.isNull = true ∨
    (0 ≤ utf8Length s.val ∧ ∃ text, env.decode (textBytes s.val) = some text))

theorem returnsNormally_readStringAndMatchType {node : Option Node} {id : KeyId} :
    ReturnsNormally (readStringAndMatchTypeFromNode env node id) ↔ PatternReadable env node := by
  unfold PatternReadable
  cases node with
  | none => simp [readStringAndMatchTypeFromNode]
  | some n =>
    cases n with
    | scalar s =>
      cases hs : s.isNull with
      | true => simp [readStringAndMatchTypeFromNode, hs]
      | false =>
        simp only [ReturnsNormally, Prod.exists, readStringAndMatchTypeFromNode_scalar env hs]
        simp [hs]
    | seq items => simp [readStringAndMatchTypeFromNode, throwParse]
    | map entries => simp [readStringAndMatchTypeFromNode, throwParse]

section Length

variable {u8str : Bytes}

theorem strip_eq (h : u8str.length < 2 ^ 31) :
    MarkedWord.strip caret dollar u8str =
      (hasCaret u8str, hasDollar u8str, textBytes u8str) := by
  have hlen : (utf8Length u8str).toNat =
      u8str.length - (hasCaret u8str).toNat - (hasDollar u8str).toNat := by
    unfold utf8Length
    rw [toInt_of_lt h]
    omega
  simp [MarkedWord.strip, textBytes, hlen, hasCaret, hasDollar]

theorem utf8Length_lt (u8str : Bytes) : utf8Length u8str < 2 ^ 31 := by
  have := toInt_lt u8str.length
  unfold utf8Length
  omega

/-- There is room for the markers of a short text, since one byte is not both of them. -/
theorem utf8Length_nonneg (h : u8str.length < 2 ^ 31) : 0 ≤ utf8Length u8str := by
  unfold utf8Length
  rw [toInt_of_lt h]
  match u8str with
  | [] => decide
  | [c] =>
    by_cases hc : c = caret
    · simp [hasCaret, hasDollar, hc, caret_ne_dollar]
    · have hdollar := Bool.toNat_le (hasDollar [c])
      simp [hasCaret, hc] at hdollar ⊢
      omega
  | c :: d :: rest =>
    have hcaret := Bool.toNat_le (hasCaret (c :: d :: rest))
    have hdollar := Bool.toNat_le (hasDollar (c :: d :: rest))
    simp only [List.length_cons]
    omega

/-- A length that is narrowed to a number that is not negative is below `2 ^ 31`, or at least
`2 ^ 32`. -/
theorem length_lt_of_utf8Length (h : 0 ≤ utf8Length u8str) (hlen : u8str.length < 2 ^ 32) :
    u8str.length < 2 ^ 31 := by
  by_contra hge
  have := toInt_of_ge (not_lt.1 hge) hlen
  unfold utf8Length at h
  omega

end Length

theorem length_textBytes_lt (u8str : Bytes) : (textBytes u8str).length < 2 ^ 31 := by
  have hlt := utf8Length_lt u8str
  rw [textBytes, List.length_take]
  omega

/-- The text of a pattern that was read is the meaning of few enough bytes. -/
theorem decode_of_readStringAndMatchType {node : Option Node} {id : KeyId}
    {val : StringAndMatchType} (h : readStringAndMatchTypeFromNode env node id = .ok val) :
    ∃ u8str : Bytes, u8str.length < 2 ^ 31 ∧ env.decode u8str = some val.2 := by
  cases node with
  | none =>
    cases h
    exact ⟨[], by decide, env.decode_nil⟩
  | some n =>
    obtain ⟨s, rfl⟩ := scalar_of_readStringAndMatchType env h
    cases hnull : s.isNull with
    | true =>
      rw [readStringAndMatchTypeFromNode_null env id (by simp [hnull])] at h
      cases h
      exact ⟨[], by decide, env.decode_nil⟩
    | false =>
      obtain ⟨-, -, hdec⟩ := (readStringAndMatchTypeFromNode_scalar env hnull).1 h
      exact ⟨textBytes s.val, length_textBytes_lt s.val, hdec⟩

/-- The text of a pattern that was read is short. -/
theorem length_lt_of_readStringAndMatchType {node : Option Node} {id : KeyId}
    {val : StringAndMatchType} (h : readStringAndMatchTypeFromNode env node id = .ok val) :
    val.2.length < 2 ^ 31 := by
  -- a code unit takes at least one of the bytes that are converted
  obtain ⟨u8str, hlength, hdec⟩ := decode_of_readStringAndMatchType env h
  exact lt_of_le_of_lt (env.length_decode_le hdec) hlength

/-! ### What the pattern writer stores -/

theorem addMarkers_eq_mark (type : StringMatchType) (u8str : Bytes) :
    addMarkers type u8str = MarkedWord.mark caret dollar type.first type.last u8str := by
  cases type <;> simp [addMarkers, MarkedWord.mark, StringMatchType.first, StringMatchType.last]

end Strings

end RoxyGlance.Settings
