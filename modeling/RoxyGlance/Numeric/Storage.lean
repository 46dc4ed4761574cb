import RoxyGlance.Lib.Sse
import RoxyGlance.Numeric

/-!
# Vectors of integers in SSE registers

`vec<int, N, 16>` and `vec<long, N, 16>` keep their `N` lanes at the low end of a register of four.
Each operation exists twice, with intrinsics for the run time and lane by lane for the compile time,
and some of the former depend on the instruction set.

* `laneMoves_agree_iff`: moving lanes in and out gives the same visible lanes in all of them, unless
  `setZW` with SSE4.1 meets a vector whose other lanes do not repeat the visible ones.
-/

namespace RoxyGlance

/-- `setXY`, lane by lane. -/
def Vec4.setXY {α : Type} (v : Vec4 α) (rhs : Vec2 α) : Vec4 α := ⟨rhs.x, rhs.y, v.z, v.w⟩

/-- `setZW`, lane by lane. -/
def Vec4.setZW {α : Type} (v : Vec4 α) (rhs : Vec2 α) : Vec4 α := ⟨v.x, v.y, rhs.x, rhs.y⟩

namespace Numeric

open Sse

/-- `__simd_feature_tags` -/
structure Features where
  ssse3 : Bool
  sse4_1 : Bool
  avx2 : Bool

/-- A loop over the first lanes, each of which is replaced. -/
def forLanes (f : Fin 4 → Lane → Lane) : ℕ → Reg → Reg
  | 0, v => v
  | n + 1, v =>
    let v := forLanes f n v
    if h : n < 4 then Function.update v ⟨n, h⟩ (f ⟨n, h⟩ (v ⟨n, h⟩)) else v

theorem forLanes_apply (f : Fin 4 → Lane → Lane) (n : ℕ) (v : Reg) (i : Fin 4) :
    forLanes f n v i = if (i : ℕ) < n then f i (v i) else v i := by
  induction n with
  | zero => rfl
  | succ n ih =>
    simp only [forLanes]
    split_ifs with hn hi hi
    · by_cases heq : i = ⟨n, hn⟩
      · subst heq
        rw [Function.update_self, ih, if_neg (lt_irrefl n)]
      · have hlt : (i : ℕ) < n := by
          have hne : (i : ℕ) ≠ n := fun h => heq (Fin.ext h)
          omega
        rw [Function.update_of_ne heq, ih, if_pos hlt]
    · have hne : i ≠ ⟨n, hn⟩ := by
        rintro rfl
        exact hi (Nat.lt_succ_self n)
      have hge : ¬ (i : ℕ) < n := by omega
      rw [Function.update_of_ne hne, ih, if_neg hge]
    · have hlt : (i : ℕ) < n := by omega
      rw [ih, if_pos hlt]
    · have hge : ¬ (i : ℕ) < n := by omega
      rw [ih, if_neg hge]

/-! ### At run time -/

namespace Storage

variable (features : Features)

/-- `xy` -/
def xy (v : Reg) : Reg := unpackloEpi64 v v

/-- `zw` -/
def zw (v : Reg) : Reg := unpackhiEpi64 v v

/-- `setX`, `setY`, `setZ` and `setW` -/
def setLane (i : Fin 4) (v : Reg) (rhs : Lane) : Reg := Function.update v i rhs

/-- `setXY` -/
def setXY (v rhs : Reg) : Reg :=
  if features.sse4_1 then blendEpi16 v rhs 0x0F
  else unpackloEpi64 rhs (unpackhiEpi64 v v)

/-- `setZW` -/
def setZW (v rhs : Reg) : Reg :=
  if features.sse4_1 then blendEpi16 v rhs 0xF0 else unpackloEpi64 v rhs

/-- `splat`, by the number of lanes. -/
def splat (n : ℕ) (x : Lane) : Reg :=
  if n = 1 then cvtsi32Si128 x
  else if n = 2 then
    if features.sse4_1 then blendEpi16 setzeroSi128 (set1Epi32 x) 0x0F
    else shuffleEpi32 (cvtsi32Si128 x) (mmShuffle 1 1 0 0)
  else if n = 3 then
    if features.sse4_1 then blendEpi16 setzeroSi128 (set1Epi32 x) 0x3F
    else
      let single := cvtsi32Si128 x
      unpackloEpi32 (shuffleEpi32 single (mmShuffle 1 1 0 0)) single
  else set1Epi32 x

/-- `make` of four lanes. -/
def make4 (x y z w : Lane) : Reg := setEpi32 w z y x

/-- `make` of three lanes. -/
def make3 (x y z : Lane) : Reg := make4 x y z 0

/-- `make` of two lanes. -/
def make2 (x y : Lane) : Reg := make4 x y 0 0

/-- `make` of one lane. -/
def make1 (x : Lane) : Reg := cvtsi32Si128 x

/-- `concat` -/
def concat (xy zw : Reg) : Reg := unpackloEpi64 xy zw

/-- `operator==` -/
def eq (lhs rhs : Reg) : Bool :=
  if features.sse4_1 then
    let diff := xorSi128 lhs rhs
    decide (testzSi128 diff diff ≠ 0)
  else decide (movemaskEpi8 (cmpeqEpi32 lhs rhs) = 0xFFFF)

/-- `operator!=` -/
def ne (lhs rhs : Reg) : Bool :=
  if features.sse4_1 then
    let diff := xorSi128 lhs rhs
    decide (testzSi128 diff diff = 0)
  else decide (movemaskEpi8 (cmpeqEpi32 lhs rhs) ≠ 0xFFFF)

/-- `operator-` -/
def neg (v : Reg) : Reg :=
  if features.ssse3 then signEpi32 v (set1Epi32 (-1)) else subEpi32 setzeroSi128 v

/-- `operator~` -/
def not (v : Reg) : Reg := xorSi128 v (cmpeqEpi32 v v)

/-- `operator>>=`.  Without AVX2 the instruction for a number masks the count, about which the
language says nothing unless it is from 0 to 31. -/
def shiftRight (n : ℕ) (lhs rhs : Reg) : Reg :=
  if features.avx2 then sravEpi32 lhs rhs
  else forLanes (fun i x => x.sshiftRight ((rhs i).toNat % 32)) n lhs

/-- `operator<<=` -/
def shiftLeft (n : ℕ) (lhs rhs : Reg) : Reg :=
  if features.avx2 then sllvEpi32 lhs rhs
  else forLanes (fun i x => x <<< ((rhs i).toNat % 32)) n lhs

end Storage

/-! ### At compile time -/

namespace Consteval

/-- `xy` -/
def xy (v : Reg) : Reg := ![v 0, v 1, 0, 0]

/-- `zw` -/
def zw (v : Reg) : Reg := ![v 2, v 3, 0, 0]

/-- `setXY` -/
def setXY (v rhs : Reg) : Reg := Storage.setLane 1 (Storage.setLane 0 v (rhs 0)) (rhs 1)

/-- `setZW` -/
def setZW (v rhs : Reg) : Reg := Storage.setLane 3 (Storage.setLane 2 v (rhs 0)) (rhs 1)

/-- `make` of four lanes. -/
def make4 (x y z w : Lane) : Reg := ![x, y, z, w]

/-- `make` of three lanes. -/
def make3 (x y z : Lane) : Reg := make4 x y z 0

/-- `make` of two lanes. -/
def make2 (x y : Lane) : Reg := make4 x y 0 0

/-- `make` of one lane. -/
def make1 (x : Lane) : Reg := ![x, 0, 0, 0]

/-- `concat` -/
def concat (xy zw : Reg) : Reg := make4 (xy 0) (xy 1) (zw 0) (zw 1)

/-- A unary operator and `splat`: all lanes are set, those that are not visible to zero. -/
def visibleOrZero (n : ℕ) (f : Fin 4 → Lane) : Reg := fun i => if (i : ℕ) < n then f i else 0

/-- `splat` -/
def splat (n : ℕ) (s : Lane) : Reg := visibleOrZero n fun _ => s

/-- `operator-` -/
def neg (n : ℕ) (v : Reg) : Reg := visibleOrZero n fun i => -(v i)

/-- `operator~` -/
def not (n : ℕ) (v : Reg) : Reg := visibleOrZero n fun i => ~~~(v i)

/-- `operator==` -/
def eq (n : ℕ) (lhs rhs : Reg) : Bool := decide (∀ i : Fin 4, (i : ℕ) < n → lhs i = rhs i)

/-- `operator!=` -/
def ne (n : ℕ) (lhs rhs : Reg) : Bool := decide (∃ i : Fin 4, (i : ℕ) < n ∧ lhs i ≠ rhs i)

/-- A compound assignment, given the operator for the lanes. -/
def assign (op : Lane → Lane → Lane) (n : ℕ) (lhs rhs : Reg) : Reg :=
  forLanes (fun i x => op x (rhs i)) n lhs

end Consteval

/-! ### Moving lanes -/

/-- The lanes of a vector of two. -/
def visible2 (v : Reg) : Vec2 Lane := ⟨v 0, v 1⟩

/-- The lanes of a vector of four. -/
def visible4 (v : Reg) : Vec4 Lane := ⟨v 0, v 1, v 2, v 3⟩

theorem Storage.setXY_eq (features : Features) (v rhs : Reg) :
    Storage.setXY features v rhs = ![rhs 0, rhs 1, v 2, v 3] := by
  unfold Storage.setXY
  split_ifs
  · rw [blendEpi16_eq v rhs (by decide)]
    funext i
    fin_cases i <;> rfl
  · rfl

/-- The blend takes the upper half of its operand, which is not the visible one. -/
theorem Storage.setZW_eq (features : Features) (v rhs : Reg) :
    Storage.setZW features v rhs =
      if features.sse4_1 then ![v 0, v 1, rhs 2, rhs 3] else ![v 0, v 1, rhs 0, rhs 1] := by
  unfold Storage.setZW
  split_ifs
  · rw [blendEpi16_eq v rhs (by decide)]
    funext i
    fin_cases i <;> rfl
  · rfl

/-- With an instruction set, the visible lanes are those of the definition lane by lane, at run time
and at compile time. -/
structure LaneMovesAgree (features : Features) (v r s : Reg) : Prop where
  setXY : visible4 (Storage.setXY features v r) = (visible4 v).setXY (visible2 r) ∧
    visible4 (Consteval.setXY v r) = (visible4 v).setXY (visible2 r)
  setZW : visible4 (Storage.setZW features v r) = (visible4 v).setZW (visible2 r) ∧
    visible4 (Consteval.setZW v r) = (visible4 v).setZW (visible2 r)
  xy : visible2 (Storage.xy v) = (visible4 v).xy ∧ visible2 (Consteval.xy v) = (visible4 v).xy
  zw : visible2 (Storage.zw v) = (visible4 v).zw ∧ visible2 (Consteval.zw v) = (visible4 v).zw
  concat : visible4 (Storage.concat r s) = Vec4.concat (visible2 r) (visible2 s) ∧
    visible4 (Consteval.concat r s) = Vec4.concat (visible2 r) (visible2 s)

/-- The lanes that are not visible repeat the visible ones. -/
def Repeats (r : Reg) : Prop := r 2 = r 0 ∧ r 3 = r 1

/-- So they do after the lanes have been taken out of a vector of four. -/
theorem repeats_xy (v : Reg) : Repeats (Storage.xy v) ∧ Repeats (Storage.zw v) :=
  ⟨⟨rfl, rfl⟩, rfl, rfl⟩

/-- **Moving lanes is the same everywhere**, except that with SSE4.1 `setZW` takes the lanes that are
not visible. -/
theorem laneMoves_agree_iff (features : Features) (v r s : Reg) :
    LaneMovesAgree features v r s ↔ (features.sse4_1 = true → Repeats r) := by
  have hzw : visible4 (Storage.setZW features v r) = (visible4 v).setZW (visible2 r) ↔
      (features.sse4_1 = true → Repeats r) := by
    rw [Storage.setZW_eq]
    cases features.sse4_1 with
    | false => exact iff_of_true rfl fun h => by cases h
    | true => simp [visible4, visible2, Vec4.setZW, Repeats]
  constructor
  · exact fun h => hzw.1 h.setZW.1
  · intro h
    refine ⟨⟨?_, rfl⟩, ⟨hzw.2 h, rfl⟩, ⟨rfl, rfl⟩, ⟨rfl, rfl⟩, rfl, rfl⟩
    rw [Storage.setXY_eq]
    rfl

/-- With SSE4.1, a vector from `make` is not what `setZW` puts into the upper lanes. -/
theorem setZW_make2_disagrees :
    let v := Storage.make4 1 2 3 4
    let r := Storage.make2 5 6
    visible4 (Storage.setZW ⟨true, true, false⟩ v r) ≠ (visible4 v).setZW (visible2 r) ∧
      ¬ LaneMovesAgree ⟨true, true, false⟩ v r r := by
  intro v r
  have hdiffer : visible4 (Storage.setZW ⟨true, true, false⟩ v r)
      ≠ (visible4 v).setZW (visible2 r) := by decide
  exact ⟨hdiffer, fun h => hdiffer h.setZW.1⟩

end Numeric

end RoxyGlance
