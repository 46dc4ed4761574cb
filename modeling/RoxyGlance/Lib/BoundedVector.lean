import Mathlib.Data.List.Basic

/-!
# Vectors of bounded size

A list together with the proof that it fits a fixed capacity.  Appending to a full vector is an
error of the caller's choice (`emplaceBack`), or does nothing (`stableEmplaceBack`).
-/

/-- At most `capacity` elements. -/
structure BoundedVector (α : Type) (capacity : ℕ) where
  toList : List α
  length_le : toList.length ≤ capacity

namespace BoundedVector

variable {ε α : Type} {capacity : ℕ}

/-- The empty vector. -/
def empty : BoundedVector α capacity := ⟨[], Nat.zero_le _⟩

/-- Append an element, if there is room. -/
def emplaceBack (overflow : ε) (v : BoundedVector α capacity) (a : α) :
    Except ε (BoundedVector α capacity) :=
  if h : v.toList.length < capacity then
    .ok ⟨v.toList ++ [a], by simpa using Nat.succ_le_of_lt h⟩
  else .error overflow

/-- Append elements one after the other. -/
def emplaceAll (overflow : ε) (v : BoundedVector α capacity) :
    List α → Except ε (BoundedVector α capacity)
  | [] => .ok v
  | a :: l => do
    let v ← v.emplaceBack overflow a
    v.emplaceAll overflow l

/-- Appending returns when there is room, with the element at the end. -/
theorem emplaceBack_eq_ok {overflow : ε} {v w : BoundedVector α capacity} {a : α} :
    v.emplaceBack overflow a = .ok w ↔ w.toList = v.toList ++ [a] := by
  unfold emplaceBack
  split_ifs with h
  · constructor
    · intro hw
      cases hw
      rfl
    · intro hw
      obtain ⟨l, hl⟩ := w
      subst hw
      rfl
  · constructor
    · intro hw
      cases hw
    · intro hw
      have hlen := w.length_le
      rw [hw, List.length_append, List.length_singleton] at hlen
      exact absurd hlen (by omega)

/-- **Appending a list** succeeds exactly when everything fits. -/
theorem emplaceAll_eq_ok {overflow : ε} {l : List α} {v w : BoundedVector α capacity} :
    v.emplaceAll overflow l = .ok w ↔ w.toList = v.toList ++ l := by
  induction l generalizing v with
  | nil =>
    constructor
    · intro h
      cases h
      simp
    · intro h
      obtain ⟨lw, hw⟩ := w
      rw [List.append_nil] at h
      subst h
      rfl
  | cons a l ih =>
    constructor
    · intro h
      unfold emplaceAll at h
      cases hv : v.emplaceBack overflow a with
      | error e => rw [hv] at h; cases h
      | ok u =>
        rw [hv] at h
        have hu := emplaceBack_eq_ok.1 hv
        have hw := (ih (v := u)).1 h
        rw [hw, hu, List.append_assoc, List.singleton_append]
    · intro h
      have hlen := w.length_le
      rw [h, List.length_append, List.length_cons] at hlen
      -- what fits as a whole leaves room for the first element
      have hroom : (v.toList ++ [a]).length ≤ capacity := by
        rw [List.length_append, List.length_singleton]
        omega
      have hv : v.emplaceBack overflow a = .ok ⟨v.toList ++ [a], hroom⟩ := emplaceBack_eq_ok.2 rfl
      unfold emplaceAll
      rw [hv]
      exact ih.2 (by rw [h, List.append_assoc, List.singleton_append])

theorem emplaceAll_append (overflow : ε) (v : BoundedVector α capacity) (l m : List α) :
    v.emplaceAll overflow (l ++ m) =
      v.emplaceAll overflow l >>= fun w => w.emplaceAll overflow m := by
  induction l generalizing v with
  | nil => rfl
  | cons a l ih =>
    simp only [List.cons_append, emplaceAll, bind_assoc, ih]

/-- There is room for a list exactly when the lengths add up to no more than the capacity. -/
theorem exists_emplaceAll_eq_ok {overflow : ε} {v : BoundedVector α capacity} {l : List α} :
    (∃ w, v.emplaceAll overflow l = .ok w) ↔ v.toList.length + l.length ≤ capacity := by
  simp only [emplaceAll_eq_ok]
  constructor
  · rintro ⟨w, hw⟩
    have hlen := w.length_le
    rwa [hw, List.length_append] at hlen
  · intro h
    exact ⟨⟨v.toList ++ l, by rwa [List.length_append]⟩, rfl⟩

/-! ### Appending without a failure -/

/-- Append an element if there is room, and say whether there was. -/
def stableEmplaceBack (v : BoundedVector α capacity) (a : α) : Bool × BoundedVector α capacity :=
  if h : v.toList.length < capacity then
    (true, ⟨v.toList ++ [a], by simpa using Nat.succ_le_of_lt h⟩)
  else (false, v)

/-- Append elements one after the other, whatever becomes of each. -/
def stableEmplaceAll (v : BoundedVector α capacity) (l : List α) : BoundedVector α capacity :=
  l.foldl (fun v a => (v.stableEmplaceBack a).2) v

/-- The elements that do not fit are dropped. -/
theorem stableEmplaceAll_toList (v : BoundedVector α capacity) (l : List α) :
    (v.stableEmplaceAll l).toList = (v.toList ++ l).take capacity := by
  induction l generalizing v with
  | nil =>
    show v.toList = _
    rw [List.append_nil, List.take_of_length_le v.length_le]
  | cons a l ih =>
    show ((v.stableEmplaceBack a).2.stableEmplaceAll l).toList = _
    rw [ih, stableEmplaceBack]
    split
    · rw [List.append_assoc, List.singleton_append]
    · rename_i hfull
      have hlength : v.toList.length = capacity := by
        have := v.length_le
        omega
      rw [List.take_left' hlength, List.take_left' hlength]

/-! ### Removing -/

/-- Drop every occurrence of an element. -/
def removeAll [DecidableEq α] (v : BoundedVector α capacity) (a : α) : BoundedVector α capacity :=
  ⟨v.toList.filter (· ≠ a), Nat.le_trans (List.length_filter_le _ _) v.length_le⟩

/-- Nothing gets shorter exactly if the element is not there. -/
theorem length_removeAll_eq [DecidableEq α] (v : BoundedVector α capacity) (a : α) :
    (v.removeAll a).toList.length = v.toList.length ↔ a ∉ v.toList := by
  rw [removeAll, List.length_filter_eq_length_iff]
  constructor
  · intro h ha
    simpa using h a ha
  · intro h b hb
    simpa using fun heq : b = a => h (heq ▸ hb)

end BoundedVector
