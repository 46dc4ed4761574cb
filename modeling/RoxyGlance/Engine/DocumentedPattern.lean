import RoxyGlance.Engine.RuleSet

/-!
# The documented reading of patterns

The documentation gives a pattern one of four readings, by the markers `^` and `$` at its ends.
`documentedMatch` states them on the pattern as a text; the program instead strips the markers
from the bytes, stores the rest with a match type, and drops patterns that seem to restrict
nothing.

* `storedMatch_eq_documented`: the two agree on every pattern the program reads, except for
  patterns that are too long for an `int` and, where equality with the empty text is dropped, for
  the bare markers;
* `storedMatch_self` and `documented_truncated`: a pattern that is too long matches a text that
  the documentation rejects.
-/

namespace RoxyGlance.Engine

open Settings (StringMatchType StringAndMatchType readStringAndMatchTypeFromNode caret dollar
  hasCaret hasDollar utf8Length textBytes)

variable {F : Type} (env : Externals F)

/-- `^` as a UTF-16 unit. -/
def wideCaret : UInt16 := caret.toUInt16

/-- `$` as a UTF-16 unit. -/
def wideDollar : UInt16 := dollar.toUInt16

theorem wideCaret_ne_wideDollar : wideCaret ≠ wideDollar := by decide

/-- The documented reading: `^text$` equals, `^text` starts with, `text$` ends with, `text`
contains. -/
def documentedMatch (pattern value : Wide) : Bool :=
  match MarkedWord.strip wideCaret wideDollar pattern with
  | (true, true, text) => decide (value = text)
  | (true, false, text) => decide (text <+: value)
  | (false, true, text) => decide (text <:+ value)
  | (false, false, text) => decide (text <:+: value)

/-- The documented reading of the child under a key of `where`; a missing or null child is no
pattern. -/
def documentedEntry (node : Option Node) (value : Wide) : Bool :=
  match node with
  | none => true
  | some (.scalar s) =>
    if s.isNull then true
    else match env.decode s.val with
      | some pattern => documentedMatch pattern value
      | none => false
  | some _ => false

/-- The reading of a stored pattern: it is dropped when its text is empty, unless it asks for
equality and `keepEquals` is set. -/
def storedMatch (keepEquals : Bool) (conf : StringAndMatchType) (value : Wide) : Bool :=
  if conf.2 ≠ [] ∨ (keepEquals = true ∧ conf.1 = .equals) then Predicate.test conf.1 conf.2 value
  else true

example : documentedMatch (wide "^a$") (wide "a") = true := by decide

/-! ### Agreement -/

section Agreement

/-- A pattern is matched by its own text. -/
theorem test_self (type : StringMatchType) (text : Wide) : Predicate.test type text text = true := by
  cases type with
  | contains => exact decide_eq_true (List.infix_refl text)
  | startsWith => exact decide_eq_true (List.prefix_refl text)
  | endsWith => exact decide_eq_true (List.suffix_refl text)
  | equals => exact decide_eq_true rfl

theorem storedMatch_self (keepEquals : Bool) (conf : StringAndMatchType) :
    storedMatch keepEquals conf conf.2 = true := by
  unfold storedMatch
  split_ifs
  · exact test_self conf.1 conf.2
  · rfl

theorem test_nil {type : StringMatchType} (h : type ≠ .equals) (value : Wide) :
    Predicate.test type [] value = true := by
  cases type with
  | contains => exact decide_eq_true (List.nil_infix : [] <:+: value)
  | startsWith => exact decide_eq_true (List.nil_prefix : [] <+: value)
  | endsWith => exact decide_eq_true (List.nil_suffix : [] <:+ value)
  | equals => exact absurd rfl h

/-- A stored pattern that is not the dropped equality is compared as its match type says. -/
theorem storedMatch_eq_test {keepEquals : Bool} {conf : StringAndMatchType}
    (h : keepEquals = true ∨ conf ≠ (.equals, [])) (value : Wide) :
    storedMatch keepEquals conf value = Predicate.test conf.1 conf.2 value := by
  obtain ⟨type, text⟩ := conf
  unfold storedMatch
  split_ifs with hkept
  · rfl
  · simp only [not_or, not_not, not_and] at hkept
    obtain ⟨rfl, hequals⟩ := hkept
    refine (test_nil ?_ value).symm
    rintro rfl
    rcases h with hkeep | hne
    · exact hequals hkeep rfl
    · exact hne rfl

/-- The documented reading of a text with its markers. -/
theorem documentedMatch_of_strip {pattern text : Wide} {first last : Bool}
    (h : MarkedWord.strip wideCaret wideDollar pattern = (first, last, text)) (value : Wide) :
    documentedMatch pattern value = Predicate.test (.ofFlags first last) text value := by
  unfold documentedMatch
  rw [h]
  cases first <;> cases last <;> rfl

/-- The marks of well-formed text are those of its UTF-8 form. -/
theorem decode_mark {first last : Bool} {b : Bytes} {w : Wide} (h : env.decode b = some w) :
    env.decode (MarkedWord.mark caret dollar first last b) =
      some (MarkedWord.mark wideCaret wideDollar first last w) := by
  have hcaret : env.decode [caret] = some [wideCaret] := env.decode_ascii caret (by decide)
  have hdollar : env.decode [dollar] = some [wideDollar] := env.decode_ascii dollar (by decide)
  unfold MarkedWord.mark
  refine env.decode_append (env.decode_append ?_ h) ?_
  · cases first
    · exact env.decode_nil
    · exact hcaret
  · cases last
    · exact env.decode_nil
    · exact hdollar

/-- Stripping the bytes of a pattern is stripping its text. -/
theorem strip_decode {raw : Bytes} (hlen : raw.length < 2 ^ 31) {text : Wide}
    (h : env.decode (textBytes raw) = some text) :
    ∃ pattern, env.decode raw = some pattern ∧
      MarkedWord.strip wideCaret wideDollar pattern = (hasCaret raw, hasDollar raw, text) := by
  have hstrip := Settings.strip_eq hlen
  have hraw := MarkedWord.mark_strip Settings.caret_ne_dollar raw
  rw [hstrip] at hraw
  simp only at hraw
  have hends := (MarkedWord.strip_mark_iff Settings.caret_ne_dollar (hasCaret raw) (hasDollar raw)
    (textBytes raw)).1 (by rw [hraw, hstrip])
  refine ⟨MarkedWord.mark wideCaret wideDollar (hasCaret raw) (hasDollar raw) text, ?_, ?_⟩
  · rw [← decode_mark env h, hraw]
  · refine (MarkedWord.strip_mark_iff wideCaret_ne_wideDollar _ _ _).2 ⟨?_, ?_⟩
    · exact hends.1.imp_right fun hne hhead => hne (env.head_ascii (by decide) h hhead)
    · exact hends.2.imp_right fun hne hlast => hne (env.getLast_ascii (by decide) h hlast)

/-- **The stored pattern means what the documentation says**, when it is not too long and not the
dropped equality with the empty text. -/
theorem storedMatch_eq_documented {node : Option Node} {id : KeyId} {conf : StringAndMatchType}
    (hread : readStringAndMatchTypeFromNode env node id = .ok conf) {keepEquals : Bool}
    (hlen : ∀ s, node = some (.scalar s) → s.isNull = false → s.val.length < 2 ^ 32)
    (hkeep : keepEquals = true ∨
      ∀ s, node = some (.scalar s) → s.isNull = false → s.val ≠ ascii "^$") (value : Wide) :
    storedMatch keepEquals conf value = documentedEntry env node value := by
  cases node with
  | none =>
    cases hread
    simp [storedMatch, documentedEntry]
  | some n =>
    obtain ⟨s, rfl⟩ := Settings.scalar_of_readStringAndMatchType env hread
    cases hs : s.isNull with
    | true =>
      rw [Settings.readStringAndMatchTypeFromNode_null env id (by simp [hs])] at hread
      cases hread
      simp [storedMatch, documentedEntry, hs]
    | false =>
      obtain ⟨type, text⟩ := conf
      obtain ⟨hnonneg, rfl, hdec⟩ := (Settings.readStringAndMatchTypeFromNode_scalar env hs).1 hread
      have hlt := Settings.length_lt_of_utf8Length hnonneg (hlen s rfl hs)
      obtain ⟨pattern, hpattern, hstrip⟩ := strip_decode env hlt hdec
      have hdropped : keepEquals = true ∨
          ((StringMatchType.ofFlags (hasCaret s.val) (hasDollar s.val), text) :
            StringAndMatchType) ≠ (.equals, []) := by
        refine hkeep.imp_right fun hne heq => hne s rfl hs ?_
        obtain ⟨htype, rfl⟩ := Prod.mk.inj heq
        -- only the bare markers are read as equality with the empty text
        have hflags : hasCaret s.val = true ∧ hasDollar s.val = true :=
          StringMatchType.ofFlags_inj.1 (htype.trans rfl)
        have hnil := env.eq_nil_of_decode hdec
        have hmark := MarkedWord.mark_strip Settings.caret_ne_dollar s.val
        rw [Settings.strip_eq hlt, hflags.1, hflags.2, hnil] at hmark
        exact hmark.symm
      rw [storedMatch_eq_test hdropped]
      simp only [documentedEntry, hs, Bool.false_eq_true, if_false, hpattern,
        documentedMatch_of_strip hstrip]

end Agreement

/-! ### Disagreement -/

section Disagreement

/-- A documented match is no shorter than the text of the pattern. -/
theorem length_le_of_documentedMatch {pattern value : Wide}
    (h : documentedMatch pattern value = true) : pattern.length ≤ value.length + 2 := by
  have hmark := MarkedWord.mark_strip wideCaret_ne_wideDollar pattern
  obtain ⟨⟨first, last, text⟩, hstrip⟩ : ∃ r, MarkedWord.strip wideCaret wideDollar pattern = r :=
    ⟨_, rfl⟩
  rw [documentedMatch_of_strip hstrip] at h
  rw [hstrip] at hmark
  have hlen : text.length ≤ value.length := by
    cases first <;> cases last
    · exact (of_decide_eq_true h).length_le
    · exact (of_decide_eq_true h).length_le
    · exact (of_decide_eq_true h).length_le
    · exact (congrArg List.length (of_decide_eq_true h : value = text)).ge
  have htotal := congrArg List.length hmark
  rw [MarkedWord.length_mark] at htotal
  cases first <;> cases last <;> simp at htotal <;> omega

/-- A pattern is its opening mark, a number of bytes and the rest. -/
theorem mark_take_append_drop (raw : Bytes) (n : ℕ) :
    MarkedWord.mark caret dollar (hasCaret raw) false ((raw.drop (hasCaret raw).toNat).take n) ++
      (raw.drop (hasCaret raw).toNat).drop n = raw := by
  cases h : hasCaret raw with
  | false => simp [MarkedWord.mark]
  | true =>
    have hhead : raw.head? = some caret := of_decide_eq_true h
    cases raw with
    | nil => cases hhead
    | cons c raw =>
      cases hhead
      simp [MarkedWord.mark]

/-- A pattern of `2 ^ 32` bytes or more is cut off when it is read, and the documented reading
rejects the text that is left of it. -/
theorem documented_truncated {s : Scalar} {id : KeyId} {conf : StringAndMatchType}
    (hs : s.isNull = false) (hlen : 2 ^ 32 ≤ s.val.length)
    (hread : readStringAndMatchTypeFromNode env (some (.scalar s)) id = .ok conf) :
    documentedEntry env (some (.scalar s)) conf.2 = false := by
  obtain ⟨type, text⟩ := conf
  obtain ⟨hnonneg, -, hdec⟩ := (Settings.readStringAndMatchTypeFromNode_scalar env hs).1 hread
  simp only [documentedEntry, hs, Bool.false_eq_true, if_false]
  cases hpattern : env.decode s.val with
  | none => rfl
  | some pattern =>
    cases hmatch : documentedMatch pattern text with
    | false => exact hmatch
    | true =>
      exfalso
      have hle := length_le_of_documentedMatch hmatch
      have hsplit := mark_take_append_drop s.val (utf8Length s.val).toNat
      rw [← hsplit] at hpattern
      obtain ⟨v, hv, rfl⟩ := env.decode_append_right (decode_mark env hdec) hpattern
      -- the rest is so long that more than the two markers are missing
      have hrest := env.length_le_decode hv
      have hint := Settings.utf8Length_lt s.val
      have hone : (hasCaret s.val).toNat ≤ 1 := Bool.toNat_le _
      rw [List.length_drop, List.length_drop] at hrest
      rw [List.length_append, MarkedWord.length_mark] at hle
      omega

end Disagreement

end RoxyGlance.Engine
