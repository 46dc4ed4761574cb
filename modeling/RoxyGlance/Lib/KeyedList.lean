import Mathlib.Data.List.Basic
import Mathlib.Data.List.Nodup
import Mathlib.Data.List.Perm.Subperm

/-!
# Keyed lists with first-match lookup

An ordered map as a document tree keeps it: a list of entries, looked up by walking to the first
entry with the key.  Nothing forbids a second entry with the same key; it is hidden until the
first one is erased.

* `lookup k l`: the value of the first entry with key `k`;
* `set k v l`: overwrite that entry in place, or append a new one at the end;
* `erase k l`: remove that entry;
* `equal eqv a b`: equality of two such maps;
* `valuesAt k l` is everything stored under `k`, in order, and `others k l` all the rest.  The
  three operations are described completely by what they do to these two lists.
-/

namespace KeyedList

variable {κ α : Type*} [DecidableEq κ]

/-- The value of the first entry with key `k`. -/
def lookup (k : κ) : List (κ × α) → Option α
  | [] => none
  | e :: l => if e.1 = k then some e.2 else lookup k l

/-- Overwrite the first entry with key `k`, or append a new entry. -/
def set (k : κ) (v : α) : List (κ × α) → List (κ × α)
  | [] => [(k, v)]
  | e :: l => if e.1 = k then (k, v) :: l else e :: set k v l

/-- Remove the first entry with key `k`. -/
def erase (k : κ) : List (κ × α) → List (κ × α)
  | [] => []
  | e :: l => if e.1 = k then l else e :: erase k l

/-- Remove the first entry of each of the keys. -/
def eraseAll (ks : List κ) (l : List (κ × α)) : List (κ × α) := ks.foldl (fun l k => erase k l) l

/-- All values stored under `k`, in order. -/
def valuesAt (k : κ) (l : List (κ × α)) : List α :=
  (l.filter fun e => e.1 = k).map Prod.snd

/-- All entries stored under a key other than `k`, in order. -/
def others (k : κ) (l : List (κ × α)) : List (κ × α) := l.filter fun e => e.1 ≠ k

/-- No key occurs twice. -/
def Distinct (l : List (κ × α)) : Prop := (l.map Prod.fst).Nodup

instance (l : List (κ × α)) : Decidable (Distinct l) := inferInstanceAs (Decidable (List.Nodup _))

section ValuesAt

@[simp] theorem valuesAt_nil (k : κ) : valuesAt k ([] : List (κ × α)) = [] := rfl

theorem valuesAt_cons_self (k : κ) (v : α) (l : List (κ × α)) :
    valuesAt k ((k, v) :: l) = v :: valuesAt k l := by simp [valuesAt]

theorem valuesAt_cons_of_ne {k : κ} {e : κ × α} (h : e.1 ≠ k) (l : List (κ × α)) :
    valuesAt k (e :: l) = valuesAt k l := by simp [valuesAt, h]

/-- Lookup sees the head of what is stored under the key. -/
theorem lookup_eq_head? (k : κ) (l : List (κ × α)) : lookup k l = (valuesAt k l).head? := by
  induction l with
  | nil => rfl
  | cons e l ih =>
    obtain ⟨k', v⟩ := e
    by_cases h : k' = k
    · subst h; rw [valuesAt_cons_self]; simp [lookup]
    · rw [valuesAt_cons_of_ne (e := (k', v)) h, ← ih]; simp [lookup, h]

theorem valuesAt_set_self (k : κ) (v : α) (l : List (κ × α)) :
    valuesAt k (set k v l) = v :: (valuesAt k l).tail := by
  induction l with
  | nil => simp [set, valuesAt]
  | cons e l ih =>
    obtain ⟨k', w⟩ := e
    by_cases h : k' = k
    · subst h; simp [set, valuesAt_cons_self]
    · rw [set, if_neg h, valuesAt_cons_of_ne (e := (k', w)) h, ih,
        valuesAt_cons_of_ne (e := (k', w)) h]

theorem valuesAt_erase_self (k : κ) (l : List (κ × α)) :
    valuesAt k (erase k l) = (valuesAt k l).tail := by
  induction l with
  | nil => rfl
  | cons e l ih =>
    obtain ⟨k', w⟩ := e
    by_cases h : k' = k
    · subst h; simp [erase, valuesAt_cons_self]
    · rw [erase, if_neg h, valuesAt_cons_of_ne (e := (k', w)) h, ih,
        valuesAt_cons_of_ne (e := (k', w)) h]

theorem others_set (k : κ) (v : α) (l : List (κ × α)) : others k (set k v l) = others k l := by
  induction l with
  | nil => simp [set, others]
  | cons e l ih =>
    by_cases h : e.1 = k
    · simp [set, others, h]
    · simpa [set, others, h] using ih

theorem others_erase (k : κ) (l : List (κ × α)) : others k (erase k l) = others k l := by
  induction l with
  | nil => rfl
  | cons e l ih =>
    by_cases h : e.1 = k
    · simp [erase, others, h]
    · simpa [erase, others, h] using ih

/-- What is stored under another key is part of the rest. -/
theorem valuesAt_eq_of_others {k k' : κ} (h : k' ≠ k) {l l' : List (κ × α)}
    (ho : others k l = others k l') : valuesAt k' l = valuesAt k' l' := by
  have key : ∀ m : List (κ × α), valuesAt k' m = valuesAt k' (others k m) := by
    intro m
    simp only [valuesAt, others, List.filter_filter]
    congr 1
    refine List.filter_congr fun e _ => ?_
    by_cases he : e.1 = k' <;> simp [he, h]
  rw [key l, key l', ho]

theorem valuesAt_set_of_ne {k k' : κ} (h : k' ≠ k) (v : α) (l : List (κ × α)) :
    valuesAt k' (set k v l) = valuesAt k' l := valuesAt_eq_of_others h (others_set k v l)

theorem valuesAt_erase_of_ne {k k' : κ} (h : k' ≠ k) (l : List (κ × α)) :
    valuesAt k' (erase k l) = valuesAt k' l := valuesAt_eq_of_others h (others_erase k l)

/-- Of each of the keys one value goes, and the next one is first. -/
theorem valuesAt_eraseAll {ks : List κ} (hks : ks.Nodup) (k : κ) (l : List (κ × α)) :
    valuesAt k (eraseAll ks l) = if k ∈ ks then (valuesAt k l).tail else valuesAt k l := by
  induction ks generalizing l with
  | nil => rfl
  | cons k' ks ih =>
    obtain ⟨hnot, hks⟩ := List.nodup_cons.1 hks
    rw [eraseAll, List.foldl_cons, ← eraseAll, ih hks]
    by_cases hk : k = k'
    · subst hk
      rw [if_neg hnot, if_pos List.mem_cons_self, valuesAt_erase_self]
    · rw [valuesAt_erase_of_ne hk]
      simp only [List.mem_cons, hk, false_or]

/-- Entries that are no concern of the key are the same after a removal. -/
theorem filter_erase {p : κ × α → Bool} {k : κ} (hp : ∀ v, p (k, v) = false) (l : List (κ × α)) :
    (erase k l).filter p = l.filter p := by
  induction l with
  | nil => rfl
  | cons e l ih =>
    obtain ⟨k', v⟩ := e
    by_cases h : k' = k
    · subst h
      simp [erase, hp]
    · rw [erase, if_neg h, List.filter_cons, List.filter_cons, ih]

theorem filter_set {p : κ × α → Bool} {k : κ} (hp : ∀ v, p (k, v) = false) (v : α)
    (l : List (κ × α)) : (set k v l).filter p = l.filter p := by
  induction l with
  | nil => simp [set, hp]
  | cons e l ih =>
    obtain ⟨k', w⟩ := e
    by_cases h : k' = k
    · subst h
      simp [set, hp]
    · rw [set, if_neg h, List.filter_cons, List.filter_cons, ih]

theorem filter_eraseAll {p : κ × α → Bool} {ks : List κ} (hp : ∀ k ∈ ks, ∀ v, p (k, v) = false)
    (l : List (κ × α)) : (eraseAll ks l).filter p = l.filter p := by
  induction ks generalizing l with
  | nil => rfl
  | cons k ks ih =>
    rw [eraseAll, List.foldl_cons, ← eraseAll, ih fun k' hk' => hp k' (List.mem_cons_of_mem k hk')]
    exact filter_erase (hp k List.mem_cons_self) l

end ValuesAt

section Lookup

@[simp] theorem lookup_set_self (k : κ) (v : α) (l : List (κ × α)) :
    lookup k (set k v l) = some v := by
  rw [lookup_eq_head?, valuesAt_set_self]; rfl

theorem lookup_set_of_ne {k k' : κ} (h : k' ≠ k) (v : α) (l : List (κ × α)) :
    lookup k' (set k v l) = lookup k' l := by
  rw [lookup_eq_head?, valuesAt_set_of_ne h, ← lookup_eq_head?]

theorem lookup_erase_of_ne {k k' : κ} (h : k' ≠ k) (l : List (κ × α)) :
    lookup k' (erase k l) = lookup k' l := by
  rw [lookup_eq_head?, valuesAt_erase_of_ne h, ← lookup_eq_head?]

/-- What is found in two lists, one behind the other. -/
theorem lookup_append_eq_or (k : κ) (l l' : List (κ × α)) :
    lookup k (l ++ l') = (lookup k l).or (lookup k l') := by
  induction l with
  | nil => rfl
  | cons e l ih =>
    by_cases he : e.1 = k
    · simp [lookup, he]
    · simp only [lookup, if_neg he, List.cons_append]
      exact ih

/-- Entries that are added at the end do not change what is found. -/
theorem lookup_append {k : κ} {l : List (κ × α)} (h : (lookup k l).isSome = true)
    (l' : List (κ × α)) : lookup k (l ++ l') = lookup k l := by
  rw [lookup_append_eq_or, Option.or_of_isSome h]

theorem lookup_eq_none_iff {k : κ} {l : List (κ × α)} : lookup k l = none ↔ k ∉ l.map Prod.fst := by
  induction l with
  | nil => simp [lookup]
  | cons e l ih =>
    by_cases he : e.1 = k
    · simp [lookup, he]
    · rw [lookup, if_neg he, ih, List.map_cons, List.mem_cons, not_or]
      exact ⟨fun hnot => ⟨Ne.symm he, hnot⟩, fun hnot => hnot.2⟩

theorem lookup_append_cons {k : κ} {v : α} {l₁ l₂ : List (κ × α)} (h : k ∉ l₁.map Prod.fst) :
    lookup k (l₁ ++ (k, v) :: l₂) = some v := by
  induction l₁ with
  | nil => simp [lookup]
  | cons e l₁ ih =>
    obtain ⟨hne, hnot⟩ := not_or.1 (mt List.mem_cons.2 h)
    rw [List.cons_append, lookup, if_neg (Ne.symm hne), ih hnot]

/-- The entry that is found stands behind entries with other keys, and overwriting it leaves what is
before and behind it. -/
theorem exists_split_of_lookup {k : κ} {v : α} {l : List (κ × α)} (h : lookup k l = some v) :
    ∃ l₁ l₂, l = l₁ ++ (k, v) :: l₂ ∧ k ∉ l₁.map Prod.fst ∧
      ∀ w, set k w l = l₁ ++ (k, w) :: l₂ := by
  induction l with
  | nil => cases h
  | cons e l ih =>
    by_cases he : e.1 = k
    · rw [lookup, if_pos he, Option.some_inj] at h
      refine ⟨[], l, ?_, by simp, fun w => ?_⟩
      · rw [← he, ← h]
        rfl
      · rw [set, if_pos he]
        rfl
    · rw [lookup, if_neg he] at h
      obtain ⟨l₁, l₂, hl, hnot, hset⟩ := ih h
      refine ⟨e :: l₁, l₂, ?_, ?_, fun w => ?_⟩
      · rw [hl]
        rfl
      · simpa [Ne.symm he] using hnot
      · rw [set, if_neg he, hset]
        rfl

/-- Overwriting an entry with the value it has changes nothing. -/
theorem set_of_lookup {k : κ} {v : α} {l : List (κ × α)} (h : lookup k l = some v) :
    set k v l = l := by
  obtain ⟨l₁, l₂, hl, -, hset⟩ := exists_split_of_lookup h
  rw [hset, ← hl]

theorem erase_of_lookup_none {k : κ} {l : List (κ × α)} (h : lookup k l = none) : erase k l = l := by
  induction l with
  | nil => rfl
  | cons e l ih =>
    by_cases he : e.1 = k
    · simp [lookup, he] at h
    · rw [lookup, if_neg he] at h
      rw [erase, if_neg he, ih h]

end Lookup

section Distinct

theorem valuesAt_eq_nil {k : κ} {l : List (κ × α)} (h : k ∉ l.map Prod.fst) :
    valuesAt k l = [] := by
  induction l with
  | nil => rfl
  | cons e l ih =>
    simp only [List.map_cons, List.mem_cons, not_or] at h
    rw [valuesAt_cons_of_ne (Ne.symm h.1), ih h.2]

/-- Without repeated keys nothing hides behind the first entry. -/
theorem Distinct.valuesAt_tail {l : List (κ × α)} (h : Distinct l) (k : κ) :
    (valuesAt k l).tail = [] := by
  induction l with
  | nil => rfl
  | cons e l ih =>
    obtain ⟨k', v⟩ := e
    obtain ⟨hnot, htail⟩ := List.nodup_cons.1 h
    by_cases he : k' = k
    · subst he; rw [valuesAt_cons_self]; exact valuesAt_eq_nil hnot
    · rw [valuesAt_cons_of_ne (e := (k', v)) he]; exact ih htail

theorem Distinct.lookup_erase_self {l : List (κ × α)} (h : Distinct l) (k : κ) :
    lookup k (erase k l) = none := by
  rw [lookup_eq_head?, valuesAt_erase_self, h.valuesAt_tail]; rfl

theorem mem_keys_set {k k' : κ} {v : α} {l : List (κ × α)} (h : k' ∈ (set k v l).map Prod.fst) :
    k' = k ∨ k' ∈ l.map Prod.fst := by
  induction l with
  | nil => simpa [set] using h
  | cons e l ih =>
    by_cases he : e.1 = k
    · simp only [set, if_pos he, List.map_cons, List.mem_cons] at h ⊢
      tauto
    · simp only [set, if_neg he, List.map_cons, List.mem_cons] at h ⊢
      rcases h with h | h
      · exact Or.inr (Or.inl h)
      · rcases ih h with h | h <;> tauto

theorem Distinct.set {l : List (κ × α)} (h : Distinct l) (k : κ) (v : α) :
    Distinct (set k v l) := by
  induction l with
  | nil => simp [KeyedList.set, Distinct]
  | cons e l ih =>
    obtain ⟨hnot, htail⟩ := List.nodup_cons.1 h
    by_cases he : e.1 = k
    · rw [KeyedList.set, if_pos he]
      exact List.nodup_cons.2 ⟨he ▸ hnot, htail⟩
    · rw [KeyedList.set, if_neg he]
      refine List.nodup_cons.2 ⟨fun hmem => ?_, ih htail⟩
      rcases mem_keys_set hmem with h' | h'
      · exact he h'
      · exact hnot h'

theorem erase_sublist (k : κ) (l : List (κ × α)) : (erase k l).Sublist l := by
  induction l with
  | nil => exact List.Sublist.refl _
  | cons e l ih =>
    by_cases he : e.1 = k
    · rw [erase, if_pos he]; exact List.sublist_cons_self e l
    · rw [erase, if_neg he]; exact ih.cons_cons e

theorem Distinct.erase {l : List (κ × α)} (h : Distinct l) (k : κ) : Distinct (erase k l) :=
  List.Nodup.sublist ((erase_sublist k l).map Prod.fst) h

/-- Without repeated keys an entry is what is found under its key. -/
theorem Distinct.mem_iff {l : List (κ × α)} (h : Distinct l) {k : κ} {v : α} :
    (k, v) ∈ l ↔ lookup k l = some v := by
  induction l with
  | nil => simp [lookup]
  | cons e l ih =>
    obtain ⟨k', w⟩ := e
    obtain ⟨hnot, htail⟩ := List.nodup_cons.1 h
    by_cases he : k' = k
    · subst he
      have hother : (k', v) ∉ l := fun hmem => hnot (List.mem_map.2 ⟨_, hmem, rfl⟩)
      simp [lookup, hother, eq_comm]
    · rw [lookup, if_neg he, ← ih htail]
      simp [Ne.symm he]

omit [DecidableEq κ] in
theorem Distinct.nodup {l : List (κ × α)} (h : Distinct l) : l.Nodup := List.Nodup.of_map _ h

end Distinct

section Equal

/-- Equality of maps: as many entries, and each of them found with an equal value. -/
def equal (eqv : α → α → Bool) (a b : List (κ × α)) : Bool :=
  a.length == b.length && a.all fun e => (lookup e.1 b).any (eqv e.2)

/-- Maps are equal when the same is found under every key. -/
theorem equal_iff {eqv : α → α → Bool} (heqv : ∀ v w, eqv v w = true ↔ v = w) {a b : List (κ × α)}
    (ha : Distinct a) (hb : Distinct b) :
    equal eqv a b = true ↔ ∀ k, lookup k a = lookup k b := by
  have hfound : (a.all fun e => (lookup e.1 b).any (eqv e.2)) = true ↔ a ⊆ b := by
    rw [List.all_eq_true]
    refine forall₂_congr fun e _ => ?_
    rw [Option.any_eq_true]
    constructor
    · rintro ⟨v, hv, hsame⟩
      exact hb.mem_iff.2 ((heqv e.2 v).1 hsame ▸ hv)
    · intro hmem
      exact ⟨e.2, hb.mem_iff.1 hmem, (heqv _ _).2 rfl⟩
  rw [equal, Bool.and_eq_true, hfound, beq_iff_eq]
  constructor
  · rintro ⟨hlength, hsub⟩ k
    have hperm : a.Perm b := (List.subperm_of_subset ha.nodup hsub).perm_of_length_le (by omega)
    refine Option.ext fun v => ?_
    rw [← ha.mem_iff, ← hb.mem_iff]
    exact hperm.mem_iff
  · intro hsame
    have hmem : ∀ e, e ∈ a ↔ e ∈ b := fun e => by
      rw [show e = (e.1, e.2) from rfl, ha.mem_iff, hb.mem_iff, hsame]
    have hperm : a.Perm b := (List.perm_ext_iff_of_nodup ha.nodup hb.nodup).2 hmem
    exact ⟨hperm.length_eq, hperm.subset⟩

end Equal

end KeyedList
