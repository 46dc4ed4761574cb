import Mathlib.Data.List.Forall2
import RoxyGlance.Utility.Backoff

/-!
# Exponential backoff with jitter

A backoff with jitter runs in step with the one without.  It stores the delay as it was before
`random` changed it, so what is drawn in one call has no part in the next.

* `runs_follow`: after the same calls both have the same `current_`, and each delay of the one is the
  delay of the other at that step, shortened by at most the ratio of it, or neither has an outcome;
* `jitteredRun_follows_iff`: the first is the case exactly if the conversions of the general
  `scale_and_clamp` are in range.
-/

namespace RoxyGlance.Utility.ExponentialBackoff

/-- What is drawn when the smallest value comes up. -/
def shortest : Draw where
  value := fun _ => 0
  mem := fun _ hsmax => ⟨le_rfl, hsmax⟩

variable (b : ExponentialBackoff) (ratio : Ratio)

/-- The delay `r` is what `random` makes of the delay `c`. -/
structure Shortens (c r : ℤ) : Prop where
  le_maxDelay : c ≤ b.maxDelay
  /-- The base and the rest are the exact differences, which are not negative, -/
  split : ratio.split b.type c = some (c - ratio.smax c, ratio.smax c) ∧
    0 ≤ c - ratio.smax c ∧ 0 ≤ ratio.smax c
  /-- and the sum that is returned is exact too. -/
  sum : ∃ draw : Draw, ratio.random b.type c draw = some r ∧
    r = c - ratio.smax c + draw.value (ratio.smax c) ∧ r ≤ b.type.max
  ge : c - ratio.smax c ≤ r
  le : r ≤ c

/-- The two backoffs after the same calls: the one without jitter is in the first state. -/
structure Follows (s s' : State) : Prop where
  valid : b.Valid s
  current : s'.current = s.current
  delays : List.Forall₂ (b.Shortens ratio) s.delays s'.delays

variable {b} {c : ℤ}

/-- **`random` shortens** every delay up to the maximum. -/
theorem random_shortens (hc : 0 ≤ c) (hle : c ≤ b.maxDelay) (draw : Draw) :
    ∃ r, ratio.random b.type c draw = some r ∧ b.Shortens ratio c r := by
  have hmax : c ≤ b.type.max := hle.trans b.maxDelay_le
  obtain ⟨hsmax, hsmaxLe⟩ := ratio.smax_mem hc
  obtain ⟨hdraw, hdrawLe⟩ := draw.mem _ hsmax
  have hrandom := ratio.random_eq hc hmax draw
  refine ⟨_, hrandom, ?_⟩
  exact {
    le_maxDelay := hle
    split := ⟨ratio.split_eq hc hmax, sub_nonneg.2 hsmaxLe, hsmax⟩
    sum := ⟨draw, hrandom, rfl, by omega⟩
    ge := by omega
    le := by omega }

/-- `next` with jitter: what is stored is the delay before it was shortened. -/
theorem next_some {c : ℤ} (hc : 0 ≤ c) (hle : c ≤ b.maxDelay) (hfits : b.Fits c) (draw : Draw) :
    ∃ r, b.next (some (ratio, draw)) c = some (r, b.grown c) ∧ b.Shortens ratio (b.grown c) r := by
  obtain ⟨hge, hgrownLe⟩ := b.grown_mem hc hle
  obtain ⟨r, hrandom, hshortens⟩ := random_shortens ratio (hc.trans hge) hgrownLe draw
  refine ⟨r, ?_, hshortens⟩
  have hclamp : min (b.grown c) b.maxDelay = b.grown c := min_eq_left hgrownLe
  have hreturned : min r b.maxDelay = r := min_eq_left (hshortens.le.trans hgrownLe)
  simp only [next, (b.scaleAndClamp_cases hc hle).1 hfits, Option.bind_eq_bind, Option.bind_some,
    hclamp, hrandom, hreturned]

/-- **One call**: the backoffs still follow each other, or neither has an outcome. -/
theorem step_follows (s s' : State) (call : Call) (h : b.Follows ratio s s') :
    Option.Rel (b.Follows ratio) (b.step none s call) (b.step (some ratio) s' call) := by
  cases call with
  | reset => exact .some ⟨valid_init, rfl, .nil⟩
  | next draw =>
    obtain ⟨hstep, hrefused⟩ := step_next h.valid draw
    by_cases hfits : b.Fits s.current
    · obtain ⟨r, hnext, hshortens⟩ := next_some ratio h.valid.nonneg h.valid.le hfits draw
      have hstep' : b.step (some ratio) s' (.next draw) =
          some ⟨b.grown s.current, r :: s'.delays⟩ := by
        simp only [step, Option.map_some, h.current, hnext, Option.bind_eq_bind, Option.bind_some]
      rw [hstep hfits, hstep']
      exact .some ⟨h.valid.push, rfl, .cons hshortens h.delays⟩
    · have hnone := (b.next_none_cases h.valid.nonneg h.valid.le).2 hfits
      have hstep' : b.step (some ratio) s' (.next draw) = none := by
        simp only [step, Option.map_some, h.current, hnone, Option.bind_eq_bind, Option.bind_none]
      rw [hrefused hfits, hstep']
      exact .none

/-- After any calls the two backoffs follow each other, or neither has an outcome. -/
theorem runs_follow (b : ExponentialBackoff) (ratio : Ratio) (calls : List Call) :
    Option.Rel (b.Follows ratio) (b.run none calls) (b.run (some ratio) calls) :=
  Run.foldlM_rel (step_follows ratio) ⟨valid_init, rfl, .nil⟩ calls

/-- **Jitter only shortens delays and never feeds back**, whatever is drawn: after any calls both
backoffs store the same delay, and their delays since the last reset correspond, exactly if each call
of `next` started from a delay whose product could be converted back. -/
theorem jitteredRun_follows_iff (b : ExponentialBackoff) (ratio : Ratio) (calls : List Call) :
    (∃ s s', b.run none calls = some s ∧ b.run (some ratio) calls = some s' ∧
      b.Follows ratio s s') ↔ b.Converted calls := by
  rw [← exists_run_iff]
  constructor
  · rintro ⟨s, -, hrun, -, -⟩
    exact ⟨s, hrun⟩
  · rintro ⟨s, hrun⟩
    have hrel := runs_follow b ratio calls
    rw [hrun] at hrel
    cases hrun' : b.run (some ratio) calls with
    | none =>
      rw [hrun'] at hrel
      cases hrel
    | some s' =>
      rw [hrun'] at hrel
      cases hrel with
      | some hfollows => exact ⟨s, s', hrun, rfl, hfollows⟩

/-- A backoff whose product the constraints find in range, in double precision; in single precision it
is rounded up past the largest value. -/
def overflowing : ExponentialBackoff where
  type := ⟨false, 32⟩
  minDelay := 2863311530
  maxDelay := 2863311530
  factor := .f1_5
  minDelay_nonneg := by decide
  minDelay_le := by decide
  maxDelay_le := by decide
  scalable := by decide

/-- Its first call has no outcome. -/
theorem overflowing_undefined :
    ¬ ∃ s s', overflowing.run none [.next shortest] = some s ∧
      overflowing.run (some .half) [.next shortest] = some s' ∧ overflowing.Follows .half s s' := by
  have hrun : overflowing.run none [.next shortest] = none := rfl
  rintro ⟨s, -, hs, -, -⟩
  rw [hrun] at hs
  cases hs

end RoxyGlance.Utility.ExponentialBackoff
