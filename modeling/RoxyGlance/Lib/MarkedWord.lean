import Mathlib.Data.List.Basic

/-!
# Words with an optional mark at either end

A word over `α` may carry an opening mark `b` in front and a closing mark `e` behind, with no
escape for a word that itself begins with `b` or ends with `e`.  `mark` writes the marks and
`strip` takes them off by position.

* `mark_strip`: writing back what was taken off is always exact;
* `strip_mark_iff`: taking off what was written is exact only when an absent mark cannot be
  mistaken for the word's own first or last letter.
-/

namespace MarkedWord

variable {α : Type*} [DecidableEq α]

/-- `w` with the marks asked for. -/
def mark (b e : α) (first last : Bool) (w : List α) : List α :=
  (if first then [b] else []) ++ w ++ (if last then [e] else [])

/-- The marks found at the two ends of `s`, and the letters between them. -/
def strip (b e : α) (s : List α) : Bool × Bool × List α :=
  let first := decide (s.head? = some b)
  let last := decide (s.getLast? = some e)
  (first, last, (s.drop first.toNat).take (s.length - first.toNat - last.toNat))

variable {b e : α}

omit [DecidableEq α] in
theorem getLast?_cons_concat (a c : α) (l : List α) : (a :: (l ++ [c])).getLast? = some c := by
  rw [← List.cons_append, List.getLast?_concat]

omit [DecidableEq α] in
/-- The marked word begins with a mark when one is asked for or the word begins with one. -/
theorem head?_mark (h : b ≠ e) (first last : Bool) (w : List α) :
    (mark b e first last w).head? = some b ↔ first = true ∨ w.head? = some b := by
  cases first <;> cases last <;> cases w <;> simp [mark, h.symm]

omit [DecidableEq α] in
theorem getLast?_mark (h : b ≠ e) (first last : Bool) (w : List α) :
    (mark b e first last w).getLast? = some e ↔ last = true ∨ w.getLast? = some e := by
  cases last with
  | true => simp [mark]
  | false =>
    rcases List.eq_nil_or_concat w with rfl | ⟨w', c, rfl⟩
    · cases first <;> simp [mark, h]
    · cases first <;> simp [mark, getLast?_cons_concat]

omit [DecidableEq α] in
theorem length_mark (first last : Bool) (w : List α) :
    (mark b e first last w).length = first.toNat + w.length + last.toNat := by
  cases first <;> cases last <;> simp [mark] <;> omega

omit [DecidableEq α] in
/-- Between the marks that were written stands the word. -/
theorem drop_take_mark (first last : Bool) (w : List α) :
    ((mark b e first last w).drop first.toNat).take
      ((mark b e first last w).length - first.toNat - last.toNat) = w := by
  have hlen : (mark b e first last w).length - first.toNat - last.toNat = w.length := by
    rw [length_mark]; omega
  rw [hlen]
  cases first <;> simp [mark]

/-- **Taking the marks off is undone by writing them back.** -/
theorem mark_strip (h : b ≠ e) (s : List α) :
    mark b e (strip b e s).1 (strip b e s).2.1 (strip b e s).2.2 = s := by
  rcases List.eq_nil_or_concat s with rfl | ⟨s', c, rfl⟩
  · simp [strip, mark]
  · rw [List.concat_eq_append]
    by_cases hc : c = e
    · subst hc
      cases s' with
      | nil => simp [strip, mark, h.symm]
      | cons a s' =>
        by_cases ha : a = b <;> simp [strip, mark, ha, getLast?_cons_concat]
    · cases s' with
      | nil => by_cases hb : c = b <;> simp [strip, mark, hc, hb, h]
      | cons a s' =>
        have htake : (s' ++ [c]).take (s'.length + 1) = s' ++ [c] :=
          List.take_of_length_le (by simp)
        by_cases ha : a = b <;> simp [strip, mark, ha, hc, getLast?_cons_concat, htake]

/-- **Writing marks is undone by taking them off** exactly when each end of the word is either
marked or does not look marked. -/
theorem strip_mark_iff (h : b ≠ e) (first last : Bool) (w : List α) :
    strip b e (mark b e first last w) = (first, last, w) ↔
      (first = true ∨ w.head? ≠ some b) ∧ (last = true ∨ w.getLast? ≠ some e) := by
  have hf : decide ((mark b e first last w).head? = some b) =
      (first || decide (w.head? = some b)) := by
    rw [Bool.eq_iff_iff]; simp [head?_mark h]
  have hl : decide ((mark b e first last w).getLast? = some e) =
      (last || decide (w.getLast? = some e)) := by
    rw [Bool.eq_iff_iff]; simp [getLast?_mark h]
  constructor
  · intro hs
    simp only [strip, hf, hl, Prod.mk.injEq] at hs
    obtain ⟨h1, h2, -⟩ := hs
    constructor
    · cases first
      · simpa using h1
      · exact Or.inl rfl
    · cases last
      · simpa using h2
      · exact Or.inl rfl
  · rintro ⟨h1, h2⟩
    have hf' : (first || decide (w.head? = some b)) = first := by
      cases first <;> simp_all
    have hl' : (last || decide (w.getLast? = some e)) = last := by
      cases last <;> simp_all
    simp only [strip, hf, hl, hf', hl', drop_take_mark]

end MarkedWord
