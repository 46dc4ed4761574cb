import RoxyGlance.Lib.Binary32
import RoxyGlance.Lib.Sse

/-!
# SSE instructions on single precision numbers

The four lanes of a register as numbers, by the names of the intrinsics.  Comparisons leave a mask
in each lane, and masks choose between two registers.  The rounding direction of the control
register is an argument where it is not to nearest.

* `select_mask`: a choice by a mask is a choice.
-/

namespace Sse

open Binary32 Rounding

/-! ### Computing -/

/-- `_mm_add_ps` -/
def addPs (a b : Reg) : Reg := fun i => add (a i) (b i)

/-- `_mm_sub_ps` -/
def subPs (a b : Reg) : Reg := fun i => sub (a i) (b i)

/-- `_mm_mul_ps` -/
def mulPs (a b : Reg) : Reg := fun i => mul (a i) (b i)

/-- `_mm_and_ps` -/
def andPs (a b : Reg) : Reg := fun i => a i &&& b i

/-- `_mm_or_ps` -/
def orPs (a b : Reg) : Reg := fun i => a i ||| b i

/-- `_mm_andnot_ps`: the first operand is negated. -/
def andnotPs (a b : Reg) : Reg := fun i => ~~~(a i) &&& b i

/-- `_mm_cmplt_ps` -/
def cmpltPs (a b : Reg) : Reg := fun i => if lt (a i) (b i) then BitVec.allOnes 32 else 0

/-- `_mm_cmpgt_ps` -/
def cmpgtPs (a b : Reg) : Reg := cmpltPs b a

/-! ### Rounding and converting -/

/-- `_mm_round_ps` -/
def roundPs (dir : Direction) (a : Reg) : Reg := fun i => roundToIntegral dir (a i)

/-- `_mm_ceil_ps` -/
def ceilPs : Reg → Reg := roundPs .up

/-- `_mm_floor_ps` -/
def floorPs : Reg → Reg := roundPs .down

/-- `_mm_cvtps_epi32`, in the direction of the control register. -/
def cvtpsEpi32 (dir : Direction) (a : Reg) : Reg := fun i => toInt32 dir (a i)

/-- `_mm_cvttps_epi32` -/
def cvttpsEpi32 (a : Reg) : Reg := fun i => toInt32 .zero (a i)

/-! ### Moving -/

/-- `_mm_movelh_ps` -/
def movelhPs (a b : Reg) : Reg := ![a 0, a 1, b 0, b 1]

/-- `_mm_movehl_ps`: the high lanes of the second operand come first. -/
def movehlPs (a b : Reg) : Reg := ![b 2, b 3, a 2, a 3]

/-! ### Masks -/

/-- Keep what the mask covers. -/
theorem mask_and (c : Bool) (a : Lane) :
    (if c then BitVec.allOnes 32 else 0) &&& a = if c then a else 0 := by
  cases c
  · exact BitVec.zero_and
  · exact BitVec.allOnes_and

/-- **A choice by a mask.** -/
theorem select_mask (c : Bool) (a b : Lane) :
    (if c then BitVec.allOnes 32 else 0) &&& a ||| ~~~(if c then BitVec.allOnes 32 else 0) &&& b
      = if c then a else b := by
  cases c
  · show (0#32 &&& a) ||| (~~~0#32 &&& b) = b
    rw [BitVec.zero_and, BitVec.zero_or, BitVec.not_zero, BitVec.allOnes_and]
  · show (BitVec.allOnes 32 &&& a) ||| (~~~BitVec.allOnes 32 &&& b) = a
    rw [BitVec.allOnes_and, BitVec.not_allOnes, BitVec.zero_and, BitVec.or_zero]

end Sse
