import Mathlib.Data.List.Count

/-!
# Ledgers of owned resources

A ledger lists, newest entry first, what has been done with resources: one is acquired, something
that involves resources is done, one is released.  A resource here is an identity that is acquired
once, so a value the system hands out again counts as a new one.

* `Held log r`: the resource has been acquired and not released;
* `Legal ok log`: only held resources were released, no identity was acquired twice, and every
  use was permitted by what was held at that moment;
* `legal_uses_append`: a batch of uses leaves what is held alone, so that it is judged as a whole;
* `Legal.count_release_le_one`: in a legal ledger nothing is released twice.
-/

namespace Ledger

/-- What can happen to resources `ρ`, with uses `υ`. -/
inductive Entry (ρ υ : Type*)
  | acquire (r : ρ)
  | use (u : υ)
  | release (r : ρ)
  deriving DecidableEq, Repr

variable {ρ υ : Type*}

/-- The resource has been acquired and is not released yet. -/
def Held (log : List (Entry ρ υ)) (r : ρ) : Prop := .acquire r ∈ log ∧ .release r ∉ log

instance [DecidableEq ρ] [DecidableEq υ] (log : List (Entry ρ υ)) (r : ρ) : Decidable (Held log r) :=
  inferInstanceAs (Decidable (_ ∧ _))

/-- Every entry was allowed when it was made; `ok` says which uses are, given what is held. -/
def Legal (ok : (ρ → Prop) → υ → Prop) : List (Entry ρ υ) → Prop
  | [] => True
  | .acquire r :: log => .acquire r ∉ log ∧ .release r ∉ log ∧ Legal ok log
  | .use u :: log => ok (Held log) u ∧ Legal ok log
  | .release r :: log => Held log r ∧ Legal ok log

@[simp] theorem not_held_nil (r : ρ) : ¬ Held ([] : List (Entry ρ υ)) r := by
  rintro ⟨h, -⟩
  cases h

@[simp] theorem held_use (u : υ) (log : List (Entry ρ υ)) (r : ρ) :
    Held (.use u :: log) r ↔ Held log r := by
  simp [Held]

/-- Uses do not change what is held. -/
theorem held_uses_append (us : List υ) (log : List (Entry ρ υ)) :
    Held (us.map .use ++ log) = Held log := by
  funext r
  induction us with
  | nil => rfl
  | cons u us ih => rw [List.map_cons, List.cons_append, propext (held_use _ _ _), ih]

@[simp] theorem acquire_mem_uses_append {us : List υ} {log : List (Entry ρ υ)} {r : ρ} :
    Entry.acquire r ∈ us.map .use ++ log ↔ .acquire r ∈ log := by
  simp

@[simp] theorem release_mem_uses_append {us : List υ} {log : List (Entry ρ υ)} {r : ρ} :
    Entry.release r ∈ us.map .use ++ log ↔ .release r ∈ log := by
  simp

variable {ok : (ρ → Prop) → υ → Prop}

theorem legal_uses_append (us : List υ) (log : List (Entry ρ υ)) :
    Legal ok (us.map .use ++ log) ↔ (∀ u ∈ us, ok (Held log) u) ∧ Legal ok log := by
  induction us with
  | nil => simp
  | cons u us ih =>
    show ok (Held (us.map .use ++ log)) u ∧ Legal ok (us.map .use ++ log) ↔ _
    rw [held_uses_append, ih, List.forall_mem_cons, and_assoc]

/-- What is held is not released a second time. -/
theorem Legal.count_release_le_one [DecidableEq ρ] [DecidableEq υ] {log : List (Entry ρ υ)}
    (h : Legal ok log) (r : ρ) : log.count (.release r) ≤ 1 := by
  induction log with
  | nil => simp
  | cons e log ih =>
    cases e with
    | acquire r' => simpa using ih h.2.2
    | use u => simpa using ih h.2
    | release r' =>
      by_cases hr : r' = r
      · subst hr
        have hnone : log.count (.release r') = 0 := List.count_eq_zero_of_not_mem h.1.2
        rw [List.count_cons_self]
        omega
      · rw [List.count_cons_of_ne (by simpa using hr)]
        exact ih h.2

end Ledger
