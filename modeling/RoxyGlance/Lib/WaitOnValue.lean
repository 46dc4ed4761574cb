import Mathlib.Tactic.Cases

/-!
# Waiting for a value to change

One thread waits until an atomic variable no longer has its old value; another one stores a value,
once, and then notifies.  The waiting thread compares and, if the value is still the old one, goes
to sleep by a call that compares once more, in one step with falling asleep.  It may also wake up
for no reason.

* `Sound`: what holds between the two threads;
* `Sound.move`, `Sound.wake`, `Sound.store`, `Sound.notify`: every step keeps it;
* `Sound.passes`: once notified of a new value, the waiting thread gets through.
-/

namespace WaitOnValue

/-- The waiting thread. -/
inductive Waiter
  /-- It is about to compare. -/
  | checking
  /-- It is about to go to sleep. -/
  | blocking
  | asleep
  | through
  deriving DecidableEq, Repr

/-- How far the other thread is. -/
inductive Signal
  | before
  | stored
  | notified
  deriving DecidableEq, Repr

namespace Waiter

/-- The next move, when the value is still the old one or not. -/
def move (same : Bool) : Waiter → Waiter
  | checking => if same then blocking else through
  | blocking => if same then asleep else checking
  | asleep => asleep
  | through => through

/-- A notification, or a wake-up for no reason. -/
def wake : Waiter → Waiter
  | asleep => checking
  | w => w

theorem wake_ne_asleep (w : Waiter) : w.wake ≠ asleep := by cases w <;> decide

theorem wake_eq_through {w : Waiter} : w.wake = through ↔ w = through := by cases w <;> decide

end Waiter

/-- A sleeper has a notification coming, unless the old value was stored; nobody gets through before
there is a new value. -/
structure Sound (signal : Signal) (same : Bool) (w : Waiter) : Prop where
  asleep : w = .asleep → signal = .notified → same = true
  through : w = .through → same = false
  before : signal = .before → same = true

namespace Sound

variable {signal : Signal} {same : Bool} {w : Waiter}

theorem start : Sound .before true .checking where
  asleep h := by cases h
  through h := by cases h
  before _ := rfl

theorem move (h : Sound signal same w) : Sound signal same (w.move same) where
  asleep hasleep hnotified := by
    cases w with
    | checking => cases same <;> cases hasleep
    | blocking =>
      cases same
      · cases hasleep
      · rfl
    | asleep => exact h.asleep rfl hnotified
    | through => cases hasleep
  through hthrough := by
    cases w with
    | checking =>
      cases same
      · rfl
      · cases hthrough
    | blocking => cases same <;> cases hthrough
    | asleep => cases hthrough
    | through => exact h.through rfl
  before := h.before

theorem wake (h : Sound signal same w) : Sound signal same w.wake where
  asleep hasleep := absurd hasleep w.wake_ne_asleep
  through hthrough := h.through (Waiter.wake_eq_through.1 hthrough)
  before := h.before

/-- Before the store nobody has got through, so that any value may be stored. -/
theorem store (h : Sound .before same w) (same' : Bool) : Sound .stored same' w where
  asleep _ hnotified := by cases hnotified
  through hthrough := by
    have hsame := h.through hthrough
    rw [h.before rfl] at hsame
    cases hsame
  before hbefore := by cases hbefore

theorem notify (h : Sound .stored same w) : Sound .notified same w.wake where
  asleep hasleep := absurd hasleep w.wake_ne_asleep
  through hthrough := h.through (Waiter.wake_eq_through.1 hthrough)
  before hbefore := by cases hbefore

/-- **No notification is lost**: after it, two moves are enough to get through. -/
theorem passes (h : Sound .notified false w) : (w.move false).move false = .through := by
  cases w with
  | asleep => cases h.asleep rfl rfl
  | checking | blocking | through => rfl

/-- With the old value stored again nobody gets through. -/
theorem stays (h : Sound signal true w) : w ≠ .through := fun hthrough => by
  cases h.through hthrough

end Sound

end WaitOnValue
