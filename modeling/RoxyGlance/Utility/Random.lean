import RoxyGlance.Lib.Mixer

/-!
# The xorshift generators

A generator keeps one word, mixes it with three shifted copies of itself, and returns it.  The word
zero would stay zero for ever, so it is not accepted as a seed.

* `Xorshift.neverStuck`: no run gets to zero, different states give different numbers, and every run
  comes back to its first state;
* `Xorshift.output_eq_iff`: two generators agree at some call only if they started in the same state.
-/

namespace RoxyGlance.Utility

/-- The shifts of a generator and the seed that stands for zero. -/
structure Xorshift (w : ℕ) where
  shift1 : ℕ
  shift2 : ℕ
  shift3 : ℕ
  defaultSeed : BitVec w

namespace Xorshift

variable {w : ℕ} (g : Xorshift w)

/-- The constructor: the first `state_`. -/
def create (seed : BitVec w) : BitVec w := if seed = 0 then g.defaultSeed else seed

/-- What `operator()` does to `state_`. -/
def mix (state : BitVec w) : BitVec w :=
  let x := state
  let x := x ^^^ x <<< g.shift1
  let x := x ^^^ x >>> g.shift2
  let x := x ^^^ x <<< g.shift3
  x

/-- `operator()`: the number that is returned, and `state_` after it. -/
def next (state : BitVec w) : BitVec w × BitVec w :=
  let x := g.mix state
  (x, x)

/-- `xorshift32` -/
def xorshift32 : Xorshift 32 := ⟨13, 17, 5, 2463534242⟩

/-- `xorshift64` -/
def xorshift64 : Xorshift 64 := ⟨13, 7, 17, 88172645463325252⟩

/-- `state_` after a number of calls. -/
def stateAfter (seed : BitVec w) : ℕ → BitVec w
  | 0 => g.create seed
  | n + 1 => (g.next (stateAfter seed n)).2

/-- The number that the call after so many others returns. -/
def output (seed : BitVec w) (n : ℕ) : BitVec w := (g.next (g.stateAfter seed n)).1

/-- Shifts that mix, and a seed that is not zero in place of zero. -/
structure WellFormed : Prop where
  shift1 : 0 < g.shift1
  shift2 : 0 < g.shift2
  shift3 : 0 < g.shift3
  defaultSeed : g.defaultSeed ≠ 0

theorem wellFormed_xorshift32 : xorshift32.WellFormed :=
  ⟨by decide, by decide, by decide, by decide⟩

theorem wellFormed_xorshift64 : xorshift64.WellFormed :=
  ⟨by decide, by decide, by decide, by decide⟩

/-- The three stages of a step. -/
def stages : List (Mixer.Stage w) :=
  [.xorShiftLeft g.shift1, .xorShiftRight g.shift2, .xorShiftLeft g.shift3]

theorem mix_eq (state : BitVec w) : g.mix state = Mixer.mix g.stages state := rfl

theorem stateAfter_eq (seed : BitVec w) (n : ℕ) : g.stateAfter seed n = g.mix^[n] (g.create seed) := by
  induction n with
  | zero => rfl
  | succ n ih =>
    rw [Function.iterate_succ_apply', ← ih]
    rfl

variable {g}

theorem create_ne_zero (hg : g.WellFormed) (seed : BitVec w) : g.create seed ≠ 0 := by
  unfold create
  split_ifs with hseed
  · exact hg.defaultSeed
  · exact hseed

/-- No stage loses a bit. -/
theorem lossless_stages (hg : g.WellFormed) : ∀ stage ∈ g.stages, stage.Lossless := by
  simp only [stages, List.forall_mem_cons]
  exact ⟨hg.shift1, hg.shift2, hg.shift3, List.forall_mem_nil _⟩

theorem mix_injective (hg : g.WellFormed) : Function.Injective g.mix := by
  intro x y h
  rw [mix_eq, mix_eq] at h
  exact Mixer.mix_injective (lossless_stages hg) h

/-- Only zero becomes zero. -/
theorem mix_eq_zero_iff (hg : g.WellFormed) (x : BitVec w) : g.mix x = 0 ↔ x = 0 := by
  have hzero : g.mix 0 = 0 := by rw [mix_eq, Mixer.mix_zero]
  constructor
  · intro h
    exact mix_injective hg (h.trans hzero.symm)
  · rintro rfl
    exact hzero

/-- **No run gets to zero.** -/
theorem stateAfter_ne_zero (hg : g.WellFormed) (seed : BitVec w) (n : ℕ) :
    g.stateAfter seed n ≠ 0 := by
  induction n with
  | zero => exact create_ne_zero hg seed
  | succ n ih => exact fun h => ih ((mix_eq_zero_iff hg _).1 h)

/-- The step is a bijection on the states that can be met. -/
theorem bijOn_mix (hg : g.WellFormed) : Set.BijOn g.mix {x | x ≠ 0} {x | x ≠ 0} := by
  refine ⟨fun x hx h => hx ((mix_eq_zero_iff hg x).1 h), (mix_injective hg).injOn, fun y hy => ?_⟩
  obtain ⟨x, rfl⟩ := (XorShift.bijective_of_injective (mix_injective hg)).2 y
  exact ⟨x, fun hx => hy ((mix_eq_zero_iff hg x).2 hx), rfl⟩

/-- **Every run comes back to its first state**, and repeats from there. -/
theorem exists_period (hg : g.WellFormed) (seed : BitVec w) :
    ∃ p, 0 < p ∧ ∀ n, g.stateAfter seed (n + p) = g.stateAfter seed n := by
  obtain ⟨p, hp, hperiod⟩ := XorShift.exists_period (mix_injective hg) (g.create seed)
  refine ⟨p, hp, fun n => ?_⟩
  rw [stateAfter_eq, stateAfter_eq, Function.iterate_add_apply, hperiod]

/-- **Two runs agree at some call** only if they agree from the start. -/
theorem output_eq_iff (hg : g.WellFormed) {seed seed' : BitVec w} (n : ℕ) :
    g.output seed n = g.output seed' n ↔ g.create seed = g.create seed' := by
  have hstate : ∀ s, g.output s n = g.mix^[n + 1] (g.create s) := by
    intro s
    rw [Function.iterate_succ_apply', ← stateAfter_eq]
    rfl
  rw [hstate, hstate]
  exact ((mix_injective hg).iterate (n + 1)).eq_iff

/-- Different seeds start in the same state only when one of them stands for the other. -/
theorem create_eq_iff {seed seed' : BitVec w} (h : seed ≠ seed') :
    g.create seed = g.create seed' ↔
      (seed = 0 ∧ seed' = g.defaultSeed) ∨ (seed' = 0 ∧ seed = g.defaultSeed) := by
  unfold create
  by_cases hseed : seed = 0
  · have hseed' : seed' ≠ 0 := fun hzero => h (hseed.trans hzero.symm)
    rw [if_pos hseed, if_neg hseed']
    simp only [hseed, hseed', true_and, false_and, or_false]
    exact eq_comm
  · by_cases hseed' : seed' = 0
    · rw [if_neg hseed, if_pos hseed']
      simp only [hseed, hseed', true_and, false_and, false_or]
    · rw [if_neg hseed, if_neg hseed']
      simp only [h, hseed, hseed', false_and, or_self]

variable (g) in
/-- What is expected of a generator. -/
structure NeverStuck : Prop where
  ne_zero : ∀ seed n, g.stateAfter seed n ≠ 0
  bijective : Function.Bijective g.mix
  bijOn : Set.BijOn g.mix {x | x ≠ 0} {x | x ≠ 0}
  sameOutput : ∀ seed seed' n n', g.output seed n = g.output seed' n' →
    g.stateAfter seed n = g.stateAfter seed' n'
  periodic : ∀ seed, ∃ p, 0 < p ∧ ∀ n, g.stateAfter seed (n + p) = g.stateAfter seed n ∧
    g.output seed (n + p) = g.output seed n

theorem neverStuck_of_wellFormed (hg : g.WellFormed) : g.NeverStuck where
  ne_zero := stateAfter_ne_zero hg
  bijective := XorShift.bijective_of_injective (mix_injective hg)
  bijOn := bijOn_mix hg
  sameOutput _ _ _ _ h := mix_injective hg h
  periodic seed := by
    obtain ⟨p, hp, hperiod⟩ := exists_period hg seed
    refine ⟨p, hp, fun n => ⟨hperiod n, ?_⟩⟩
    rw [output, output, hperiod]

/-- **The generators never get stuck.** -/
theorem neverStuck : xorshift32.NeverStuck ∧ xorshift64.NeverStuck :=
  ⟨neverStuck_of_wellFormed wellFormed_xorshift32, neverStuck_of_wellFormed wellFormed_xorshift64⟩

end Xorshift

end RoxyGlance.Utility
