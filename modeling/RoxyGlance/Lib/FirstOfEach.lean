import Mathlib.Data.List.Basic

/-!
# The first element of each class

A list is walked once, and an element is kept unless one with the same key has been kept before.
What is kept are the elements that no earlier element shares the key with, in order.

* `keep key seen l`: the elements kept, when those of `seen` have been kept already;
* `IsFirst key l a`: the element stands somewhere in the list, and before it none with its key;
* `mem_keep_iff`: these are the same elements.
-/

namespace FirstOfEach

variable {α κ : Type*} (key : α → κ)

/-- The elements kept. -/
def keep [DecidableEq κ] (seen : List α) : List α → List α
  | [] => []
  | a :: l =>
    if seen.any fun b => key b = key a then keep seen l else a :: keep (seen ++ [a]) l

/-- The element stands in the list, and no element with its key comes before it. -/
def IsFirst (l : List α) (a : α) : Prop :=
  ∃ before after, l = before ++ a :: after ∧ ∀ b ∈ before, key b ≠ key a

variable {key}

theorem IsFirst.mem {l : List α} {a : α} (h : IsFirst key l a) : a ∈ l := by
  obtain ⟨before, after, rfl, -⟩ := h
  simp

theorem isFirst_head (a : α) (l : List α) : IsFirst key (a :: l) a := ⟨[], l, rfl, by simp⟩

theorem isFirst_cons_of_ne {a b : α} {l : List α} (h : key b ≠ key a) :
    IsFirst key (b :: l) a ↔ IsFirst key l a := by
  constructor
  · rintro ⟨before, after, hl, hne⟩
    cases before with
    | nil =>
      obtain ⟨rfl, -⟩ := List.cons.inj hl
      exact absurd rfl h
    | cons c before =>
      obtain ⟨-, rfl⟩ := List.cons.inj hl
      exact ⟨before, after, rfl, fun d hd => hne d (List.mem_cons_of_mem c hd)⟩
  · rintro ⟨before, after, rfl, hne⟩
    exact ⟨b :: before, after, rfl, List.forall_mem_cons.2 ⟨h, hne⟩⟩

/-- An element with the key of the head is first only if it is the head. -/
theorem IsFirst.eq_head {a b : α} {l : List α} (h : IsFirst key (b :: l) a) (hkey : key a = key b) :
    a = b := by
  obtain ⟨before, after, hl, hne⟩ := h
  cases before with
  | nil => exact (List.cons.inj hl).1.symm
  | cons c before =>
    obtain ⟨rfl, -⟩ := List.cons.inj hl
    exact absurd hkey.symm (hne b List.mem_cons_self)

/-- Two elements that are first and share their key are the same. -/
theorem IsFirst.eq_of_key {l : List α} {a b : α} (ha : IsFirst key l a) (hb : IsFirst key l b)
    (hkey : key a = key b) : a = b := by
  induction l with
  | nil =>
    obtain ⟨before, after, hl, -⟩ := ha
    simp at hl
  | cons c l ih =>
    by_cases hc : key c = key a
    · rw [ha.eq_head hc.symm, hb.eq_head (hkey.symm.trans hc.symm)]
    · exact ih ((isFirst_cons_of_ne hc).1 ha) ((isFirst_cons_of_ne (hkey ▸ hc)).1 hb)

/-- **What is kept.** -/
theorem mem_keep_iff [DecidableEq κ] {seen l : List α} {a : α} :
    a ∈ keep key seen l ↔ IsFirst key l a ∧ ∀ b ∈ seen, key b ≠ key a := by
  induction l generalizing seen with
  | nil =>
    constructor
    · intro h
      cases h
    · rintro ⟨⟨before, after, hl, -⟩, -⟩
      simp at hl
  | cons c l ih =>
    rw [keep]
    split
    · rename_i hseen
      obtain ⟨b, hb, hkey⟩ := List.any_eq_true.1 hseen
      have hkey : key b = key c := of_decide_eq_true hkey
      rw [ih]
      refine and_congr_left fun hne => (isFirst_cons_of_ne ?_).symm
      exact hkey ▸ hne b hb
    · rename_i hseen
      have hnew : ∀ b ∈ seen, key b ≠ key c := by simpa using hseen
      rw [List.mem_cons, ih]
      constructor
      · rintro (rfl | ⟨hfirst, hne⟩)
        · exact ⟨isFirst_head a l, hnew⟩
        · obtain ⟨hseen, hc⟩ := List.forall_mem_append.1 hne
          exact ⟨(isFirst_cons_of_ne (hc c (by simp))).2 hfirst, hseen⟩
      · rintro ⟨hfirst, hne⟩
        by_cases hc : key c = key a
        · exact .inl (hfirst.eq_head hc.symm)
        · refine .inr ⟨(isFirst_cons_of_ne hc).1 hfirst, ?_⟩
          exact List.forall_mem_append.2 ⟨hne, by simpa using hc⟩

end FirstOfEach
