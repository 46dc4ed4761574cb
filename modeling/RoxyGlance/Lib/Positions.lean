import Mathlib.Data.List.Basic

/-!
# Positions in a list

`List.findIdxs p l` lists the positions at which `p` holds.  Two selections from a list agree
exactly when they agree on each element, and a selection can be moved along a `filterMap`.
`insertIdx_filter` puts an element back into a selection that left it out.
-/

namespace Positions

variable {α β : Type*}

/-- Two selections have the same positions exactly when they agree on every element. -/
theorem findIdxs_eq_iff {p q : α → Bool} {l : List α} (start : ℕ) :
    l.findIdxs p start = l.findIdxs q start ↔ ∀ a ∈ l, p a = q a := by
  induction l generalizing start with
  | nil => simp
  | cons a l ih =>
    have hnot : ∀ r : α → Bool, start ∉ l.findIdxs r (start + 1) := by
      intro r hmem
      have := List.ge_of_mem_findIdxs _ hmem
      omega
    rw [List.findIdxs_cons, List.findIdxs_cons, List.forall_mem_cons, ← ih (start + 1)]
    cases hp : p a <;> cases hq : q a
    · simp
    · simp only [Bool.false_eq_true, if_false, if_true, false_and, iff_false]
      intro h
      exact hnot p (h ▸ List.mem_cons_self)
    · simp only [Bool.false_eq_true, if_false, if_true, Bool.true_eq_false, false_and, iff_false]
      intro h
      exact hnot q (h ▸ List.mem_cons_self)
    · simp

/-- Positions in the image of a partial function are positions among the elements it is defined
on. -/
theorem findIdxs_filterMap {f : α → Option β} {p : β → Bool} {q : α → Bool}
    (h : ∀ a b, f a = some b → p b = q a) (l : List α) (start : ℕ) :
    (l.filterMap f).findIdxs p start = (l.filter fun a => (f a).isSome).findIdxs q start := by
  induction l generalizing start with
  | nil => rfl
  | cons a l ih =>
    cases hf : f a with
    | none => simpa [hf] using ih start
    | some b => simp [hf, List.findIdxs_cons, h a b hf, ih]

/-- Positions in a mapped list are positions in the list. -/
theorem findIdxs_map (f : α → β) (p : β → Bool) (l : List α) (start : ℕ) :
    (l.map f).findIdxs p start = l.findIdxs (fun a => p (f a)) start := by
  induction l generalizing start with
  | nil => rfl
  | cons a l ih => simp [List.findIdxs_cons, ih]

/-- An element that a selection from a list leaves out is put where it belongs in the order of the
list, at the number of selected elements before it. -/
theorem insertIdx_filter [DecidableEq α] {l : List α} (hl : l.Nodup) {k : α} (hk : k ∈ l)
    {p q : α → Bool} (hp : p k = false) (hq : ∀ a, q a = (p a || decide (a = k))) :
    (l.filter p).insertIdx ((l.takeWhile fun a => a ≠ k).countP p) k = l.filter q := by
  have hqk : q k = true := by
    rw [hq, decide_eq_true rfl, Bool.or_true]
  induction l with
  | nil => cases hk
  | cons a l ih =>
    obtain ⟨hnot, hrest⟩ := List.nodup_cons.1 hl
    by_cases ha : a = k
    · subst ha
      have hsame : l.filter q = l.filter p := by
        refine List.filter_congr fun b hb => ?_
        have hne : b ≠ a := fun h => hnot (h ▸ hb)
        rw [hq, decide_eq_false hne, Bool.or_false]
      rw [List.filter_cons_of_neg (by simp [hp]), List.filter_cons_of_pos hqk, hsame]
      simp
    · have htail := ih hrest ((List.mem_cons.1 hk).resolve_left (Ne.symm ha))
      have hqa : q a = p a := by
        rw [hq, decide_eq_false ha, Bool.or_false]
      rw [List.takeWhile_cons_of_pos (by simpa using ha)]
      cases hpa : p a with
      | true =>
        rw [List.filter_cons_of_pos hpa, List.filter_cons_of_pos (hqa.trans hpa),
          List.countP_cons_of_pos hpa, List.insertIdx_succ_cons, htail]
      | false =>
        rw [List.filter_cons_of_neg (by simp [hpa]), List.filter_cons_of_neg (by simp [hqa, hpa]),
          List.countP_cons_of_neg (by simp [hpa]), htail]

end Positions
