import RoxyGlance.Utility.Random

/-!
# Seeds

A seed is mixed from a timestamp counter and a thread id.  Every stage of the two mixers can be
undone, so a seed says which counter it was made from, given the thread, and which thread, given the
counter.

* `makeSeed_injective`: the seeds of two threads at one tick differ, and those of one thread at two
  ticks;
* `preferredOutput_eq_iff`: and so do the random numbers of two threads, unless the seed of one is
  zero.
-/

namespace RoxyGlance.Utility

/-- `make_seed32` -/
def makeSeed32 (tsc64 : BitVec 64) (threadId : BitVec 32) : BitVec 32 :=
  let tsc32 := tsc64.setWidth 32
  let seed := tsc32 ^^^ threadId * 0x9e3779b9
  let seed := seed ^^^ seed >>> 16
  let seed := seed * 0x85ebca6b
  let seed := seed ^^^ seed >>> 13
  let seed := seed * 0xc2b2ae35
  let seed := seed ^^^ seed >>> 16
  seed

/-- `make_seed64`; the thread id is widened before it is multiplied. -/
def makeSeed64 (tsc64 : BitVec 64) (threadId : BitVec 32) : BitVec 64 :=
  let seed := tsc64 ^^^ threadId.setWidth 64 * 0x9e3779b97f4a7c15
  let seed := seed ^^^ seed >>> 30
  let seed := seed * 0xbf58476d1ce4e5b9
  let seed := seed ^^^ seed >>> 27
  let seed := seed * 0x94d049bb133111eb
  let seed := seed ^^^ seed >>> 31
  seed

/-! ### The finalizers -/

/-- The stages of the 32-bit finalizer. -/
def finalizer32 : List (Mixer.Stage 32) :=
  [.xorShiftRight 16, .mul 0x85ebca6b, .xorShiftRight 13, .mul 0xc2b2ae35, .xorShiftRight 16]

/-- The stages of the 64-bit finalizer. -/
def finalizer64 : List (Mixer.Stage 64) :=
  [.xorShiftRight 30, .mul 0xbf58476d1ce4e5b9, .xorShiftRight 27, .mul 0x94d049bb133111eb,
    .xorShiftRight 31]

theorem makeSeed32_eq (tsc64 : BitVec 64) (threadId : BitVec 32) : makeSeed32 tsc64 threadId =
    Mixer.combine 0x9e3779b9 finalizer32 (tsc64.setWidth 32) threadId := rfl

theorem makeSeed64_eq (tsc64 : BitVec 64) (threadId : BitVec 32) : makeSeed64 tsc64 threadId =
    Mixer.combine 0x9e3779b97f4a7c15 finalizer64 tsc64 (threadId.setWidth 64) := rfl

theorem lossless_finalizer32 : ∀ stage ∈ finalizer32, stage.Lossless := by decide

theorem lossless_finalizer64 : ∀ stage ∈ finalizer64, stage.Lossless := by decide

/-- The low half of the counter is all that is mixed in. -/
theorem setWidth_eq_iff (x y : BitVec 64) :
    x.setWidth 32 = y.setWidth 32 ↔ x.toNat ≡ y.toNat [MOD 2 ^ 32] := by
  rw [BitVec.toNat_eq, BitVec.toNat_setWidth, BitVec.toNat_setWidth]
  rfl

/-- Widening loses nothing. -/
theorem widen_injective : Function.Injective (BitVec.setWidth 64 : BitVec 32 → BitVec 64) := by
  intro x y h
  have htoNat := congrArg BitVec.toNat h
  rw [BitVec.toNat_setWidth_of_le (by decide), BitVec.toNat_setWidth_of_le (by decide)] at htoNat
  exact BitVec.eq_of_toNat_eq htoNat

/-- The seeds of different threads at one tick differ, -/
theorem makeSeed32_injective (tsc64 : BitVec 64) : Function.Injective (makeSeed32 tsc64) := by
  intro threadId threadId' h
  rw [makeSeed32_eq, makeSeed32_eq] at h
  exact Mixer.combine_right_injective lossless_finalizer32 (by decide) _ h

/-- also where the id is widened. -/
theorem makeSeed64_injective (tsc64 : BitVec 64) : Function.Injective (makeSeed64 tsc64) := by
  intro threadId threadId' h
  rw [makeSeed64_eq, makeSeed64_eq] at h
  exact widen_injective (Mixer.combine_right_injective lossless_finalizer64 (by decide) _ h)

/-- **Seed mixing loses nothing**: for a fixed thread the seeds are as many as the counters, or as
their low halves, and for a fixed counter as many as the thread ids. -/
theorem makeSeed_injective :
    (∀ threadId tsc64 tsc64', makeSeed32 tsc64 threadId = makeSeed32 tsc64' threadId ↔
        tsc64.toNat ≡ tsc64'.toNat [MOD 2 ^ 32]) ∧
      (∀ threadId, Function.Injective fun tsc64 => makeSeed64 tsc64 threadId) ∧
      (∀ tsc64, Function.Injective (makeSeed32 tsc64)) ∧
      ∀ tsc64, Function.Injective (makeSeed64 tsc64) := by
  refine ⟨fun threadId tsc64 tsc64' => ?_, fun threadId tsc64 tsc64' h => ?_,
    makeSeed32_injective, makeSeed64_injective⟩
  · rw [makeSeed32_eq, makeSeed32_eq, ← setWidth_eq_iff]
    exact (Mixer.combine_left_injective lossless_finalizer32 threadId).eq_iff
  · simp only [makeSeed64_eq] at h
    exact Mixer.combine_left_injective lossless_finalizer64 _ h

/-! ### The generator of an architecture -/

/-- The bits of `size_t`. -/
def sizeBits : Bool → ℕ
  | true => 32
  | false => 64

/-- `make_preferred_seed`, with and without `ROXYG_ARCH_32BIT`. -/
def makePreferredSeed (tsc64 : BitVec 64) (threadId : BitVec 32) :
    (arch32Bit : Bool) → BitVec (sizeBits arch32Bit)
  | true => makeSeed32 tsc64 threadId
  | false => makeSeed64 tsc64 threadId

/-- The generator behind `preferred_xorshift_jitter_generator`. -/
def preferredXorshift : (arch32Bit : Bool) → Xorshift (sizeBits arch32Bit)
  | true => Xorshift.xorshift32
  | false => Xorshift.xorshift64

theorem wellFormed_preferredXorshift (arch32Bit : Bool) :
    (preferredXorshift arch32Bit).WellFormed := by
  cases arch32Bit with
  | true => exact Xorshift.wellFormed_xorshift32
  | false => exact Xorshift.wellFormed_xorshift64

theorem makePreferredSeed_injective (tsc64 : BitVec 64) (arch32Bit : Bool) :
    Function.Injective fun threadId => makePreferredSeed tsc64 threadId arch32Bit := by
  cases arch32Bit with
  | true => exact makeSeed32_injective tsc64
  | false => exact makeSeed64_injective tsc64

/-- **Two threads that seed at one tick** draw different numbers at every call, unless the seed of one
is zero and that of the other is the one that stands for zero. -/
theorem preferredOutput_eq_iff (arch32Bit : Bool) (tsc64 : BitVec 64) {threadId threadId' : BitVec 32}
    (h : threadId ≠ threadId') (n : ℕ) :
    let g := preferredXorshift arch32Bit
    let seed := makePreferredSeed tsc64 threadId arch32Bit
    let seed' := makePreferredSeed tsc64 threadId' arch32Bit
    g.output seed n = g.output seed' n ↔
      (seed = 0 ∧ seed' = g.defaultSeed) ∨ (seed' = 0 ∧ seed = g.defaultSeed) := by
  intro g seed seed'
  have hseed : seed ≠ seed' := fun heq => h (makePreferredSeed_injective tsc64 arch32Bit heq)
  rw [Xorshift.output_eq_iff (wellFormed_preferredXorshift arch32Bit)]
  exact Xorshift.create_eq_iff hseed

end RoxyGlance.Utility
