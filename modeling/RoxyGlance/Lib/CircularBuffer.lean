import Mathlib.Data.List.OfFn
import Mathlib.Data.Nat.ModEq
import Mathlib.Logic.Function.Basic
import Mathlib.Tactic.Common

/-!
# Circular buffers

A fixed number of slots, read in a circle from the slot of the front.  An element is pushed into
the slot before the front; when the buffer is full, that is the slot of the last element, which is
lost.  What is in a slot is read through its index, as a pointer to the slot would be, so a reader
that kept the index may find a newer element there.

* `getElem?_toList`: the slots behind the elements;
* `toList_pushFront`: a push is a `cons` cut off at the capacity;
* `slotAt_pushFront`: after a push every slot is one place further behind the front.
-/

/-- The slots of a buffer, of which `size` are in use from `first` on. -/
structure CircularBuffer (α : Type*) where
  capacity : ℕ
  slots : ℕ → Option α
  first : ℕ
  size : ℕ
  first_lt : first < capacity
  size_le : size ≤ capacity
  filled : ∀ i < size, (slots ((first + i) % capacity)).isSome

namespace CircularBuffer

variable {α : Type*}

/-- The slot `i` places behind the front, around the circle. -/
def slotAt (b : CircularBuffer α) (i : ℕ) : ℕ := (b.first + i) % b.capacity

/-- All slots are in use. -/
def full (b : CircularBuffer α) : Bool := b.size == b.capacity

/-- The slot before the front. -/
def previous (b : CircularBuffer α) : ℕ := if b.first = 0 then b.capacity - 1 else b.first - 1

/-- The elements from the front on. -/
def toList (b : CircularBuffer α) : List α :=
  List.ofFn fun i : Fin b.size => (b.slots (b.slotAt i)).get (b.filled i i.2)

theorem capacity_pos (b : CircularBuffer α) : 0 < b.capacity :=
  Nat.lt_of_le_of_lt (Nat.zero_le _) b.first_lt

@[simp] theorem length_toList (b : CircularBuffer α) : b.toList.length = b.size := by
  simp [toList]

theorem slotAt_zero (b : CircularBuffer α) : b.slotAt 0 = b.first := by
  rw [slotAt, Nat.add_zero, Nat.mod_eq_of_lt b.first_lt]

/-- Counting past the last slot starts again at the front. -/
theorem slotAt_mod (b : CircularBuffer α) (i : ℕ) : b.slotAt (i % b.capacity) = b.slotAt i := by
  rw [slotAt, slotAt, Nat.add_mod_mod]

theorem slotAt_injOn (b : CircularBuffer α) {i j : ℕ} (hi : i < b.capacity) (hj : j < b.capacity)
    (h : b.slotAt i = b.slotAt j) : i = j := by
  have hmod : i % b.capacity = j % b.capacity := Nat.ModEq.add_left_cancel' b.first h
  rwa [Nat.mod_eq_of_lt hi, Nat.mod_eq_of_lt hj] at hmod

/-- The element at a position is what its slot holds. -/
theorem getElem?_toList (b : CircularBuffer α) {i : ℕ} (hi : i < b.size) :
    b.toList[i]? = b.slots (b.slotAt i) := by
  rw [List.getElem?_eq_getElem (by simpa using hi)]
  simp only [toList, List.getElem_ofFn]
  exact Option.some_get _

/-! ### Pushing in front -/

theorem previous_lt (b : CircularBuffer α) : b.previous < b.capacity := by
  have hpos := b.capacity_pos
  have hfirst := b.first_lt
  unfold previous
  split <;> omega

/-- Seen from the slot before the front, everything is one place further. -/
theorem previous_add_succ (b : CircularBuffer α) (i : ℕ) :
    (b.previous + (i + 1)) % b.capacity = b.slotAt i := by
  have hpos := b.capacity_pos
  unfold previous slotAt
  split
  · rename_i hzero
    rw [hzero, show b.capacity - 1 + (i + 1) = b.capacity + i by omega, Nat.add_mod_left,
      Nat.zero_add]
  · rw [show b.first - 1 + (i + 1) = b.first + i by omega]

/-- The slot before the front is the last one around the circle. -/
theorem previous_eq (b : CircularBuffer α) : b.previous = b.slotAt (b.capacity - 1) := by
  have hpos := b.capacity_pos
  have hprev := b.previous_lt
  rw [← previous_add_succ, show b.capacity - 1 + 1 = b.capacity by omega, Nat.add_mod_right,
    Nat.mod_eq_of_lt hprev]

/-- What is in the slots after an element was put before the front. -/
theorem update_previous {b : CircularBuffer α} (a : α) {i : ℕ} (hi : i + 1 < b.capacity) :
    Function.update b.slots b.previous (some a) (b.slotAt i) = b.slots (b.slotAt i) := by
  apply Function.update_of_ne
  intro h
  rw [previous_eq] at h
  have := b.slotAt_injOn (by omega) (by have := b.capacity_pos; omega) h
  omega

/-- `push_front`: the slot before the front becomes the front.  In a full buffer that slot belonged
to the last element. -/
def pushFront (b : CircularBuffer α) (a : α) : CircularBuffer α where
  capacity := b.capacity
  slots := Function.update b.slots b.previous (some a)
  first := b.previous
  size := if b.full then b.size else b.size + 1
  first_lt := b.previous_lt
  size_le := by
    have hsize := b.size_le
    unfold full
    split
    · exact hsize
    · rename_i hfull
      have hne : b.size ≠ b.capacity := by simpa using hfull
      omega
  filled := by
    intro i hi
    have hsize := b.size_le
    cases i with
    | zero => rw [Nat.add_zero, Nat.mod_eq_of_lt b.previous_lt, Function.update_self]; rfl
    | succ i =>
      have hlt : i + 1 < b.capacity ∧ i < b.size := by
        unfold full at hi
        split at hi
        · omega
        · rename_i hfull
          have hne : b.size ≠ b.capacity := by simpa using hfull
          omega
      rw [previous_add_succ, update_previous a hlt.1]
      exact b.filled i hlt.2

@[simp] theorem capacity_pushFront (b : CircularBuffer α) (a : α) :
    (b.pushFront a).capacity = b.capacity := rfl

@[simp] theorem first_pushFront (b : CircularBuffer α) (a : α) :
    (b.pushFront a).first = b.previous := rfl

theorem size_pushFront (b : CircularBuffer α) (a : α) :
    (b.pushFront a).size = min (b.size + 1) b.capacity := by
  have hsize := b.size_le
  show (if b.full then b.size else b.size + 1) = _
  unfold full
  split
  · rename_i hfull
    have heq : b.size = b.capacity := by simpa using hfull
    omega
  · rename_i hfull
    have hne : b.size ≠ b.capacity := by simpa using hfull
    omega

theorem slotAt_pushFront (b : CircularBuffer α) (a : α) (i : ℕ) :
    (b.pushFront a).slotAt (i + 1) = b.slotAt i :=
  b.previous_add_succ i

/-- **A push**: the new element in front, and the last one gone if there was no room. -/
theorem toList_pushFront (b : CircularBuffer α) (a : α) :
    (b.pushFront a).toList = (a :: b.toList).take b.capacity := by
  apply List.ext_getElem?
  intro i
  have hsize := b.size_pushFront a
  by_cases hi : i < (b.pushFront a).size
  · rw [getElem?_toList _ hi, List.getElem?_take_of_lt (by omega)]
    cases i with
    | zero =>
      rw [slotAt_zero]
      exact Function.update_self _ _ _
    | succ i =>
      rw [slotAt_pushFront, List.getElem?_cons_succ, getElem?_toList _ (by omega)]
      exact update_previous a (by omega)
  · rw [List.getElem?_eq_none (by rw [length_toList]; omega),
      List.getElem?_eq_none (by rw [List.length_take, List.length_cons, length_toList]; omega)]

end CircularBuffer
