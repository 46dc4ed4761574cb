import Mathlib.Data.Nat.Notation
import Mathlib.Tactic.ByCases

/-!
# Computations that request memory

A deterministic computation that may throw, and that counts the allocation requests it makes.
Running it with a budget answers the first requests and refuses the next one, which ends the run
with a given error; with no budget every request is granted.

* `run_cases`: a refused request is the only way in which memory influences a run;
* `result_bind`: with enough memory the counting disappears.
-/

/-- A computation with result or error, and the number of allocation requests until then. -/
structure Counted (ε α : Type) where
  requests : ℕ
  result : Except ε α

namespace Counted

variable {ε α β : Type}

protected def pure (a : α) : Counted ε α := ⟨0, .ok a⟩

protected def bind (x : Counted ε α) (f : α → Counted ε β) : Counted ε β :=
  match x.result with
  | .error e => ⟨x.requests, .error e⟩
  | .ok a => ⟨x.requests + (f a).requests, (f a).result⟩

instance : Monad (Counted ε) where
  pure := Counted.pure
  bind := Counted.bind

/-- One request. -/
def request : Counted ε Unit := ⟨1, .ok ()⟩

/-- A computation that makes no request. -/
def lift (x : Except ε α) : Counted ε α := ⟨0, x⟩

/-- Run with a budget; `none` is enough memory. -/
def run (refused : ε) (budget : Option ℕ) (x : Counted ε α) : Except ε α :=
  match budget with
  | none => x.result
  | some n => if x.requests ≤ n then x.result else .error refused

@[simp] theorem result_pure (a : α) : (pure a : Counted ε α).result = .ok a := rfl

@[simp] theorem result_lift (x : Except ε α) : (lift x).result = x := rfl

@[simp] theorem result_request : (request : Counted ε Unit).result = .ok () := rfl

@[simp] theorem result_bind (x : Counted ε α) (f : α → Counted ε β) :
    (x >>= f).result = x.result >>= fun a => (f a).result := by
  show (Counted.bind x f).result = _
  unfold Counted.bind
  cases h : x.result with
  | error e => rfl
  | ok a => rfl

@[simp] theorem run_none (refused : ε) (x : Counted ε α) : x.run refused none = x.result := rfl

/-- A run with a budget agrees with the run on enough memory, or was refused a request. -/
theorem run_cases (refused : ε) (budget : Option ℕ) (x : Counted ε α) :
    x.run refused budget = x.result ∨ x.run refused budget = .error refused := by
  cases budget with
  | none => exact Or.inl rfl
  | some n =>
    by_cases h : x.requests ≤ n
    · exact Or.inl (if_pos h)
    · exact Or.inr (if_neg h)

end Counted
