import RoxyGlance.Numeric.Storage

/-!
# Expressions of vectors at run time and at compile time

The two implementations of the operations, compared along every expression.  They agree on the
visible lanes (`runTime_eq_compileTime`).  What they leave in the other lanes is different, and the
comparisons at run time look at all four (`vectors_agree_iff`).
-/

namespace RoxyGlance.Numeric

open Sse

/-- The operators that work on a vector and a vector or a number. -/
inductive BinaryOp
  | add
  | sub
  | mul
  | and
  | or
  | xor
  deriving DecidableEq, Repr

namespace BinaryOp

/-- The operator on numbers, which wrap around. -/
def eval : BinaryOp → Lane → Lane → Lane
  | add, a, b => a + b
  | sub, a, b => a - b
  | mul, a, b => a * b
  | and, a, b => a &&& b
  | or, a, b => a ||| b
  | xor, a, b => a ^^^ b

/-- The compound assignment at run time. -/
def runTime : BinaryOp → Reg → Reg → Reg
  | add => addEpi32
  | sub => subEpi32
  | mul => mulloEpi32
  | and => andSi128
  | or => orSi128
  | xor => xorSi128

theorem runTime_apply (op : BinaryOp) (a b : Reg) (i : Fin 4) :
    op.runTime a b i = op.eval (a i) (b i) := by
  cases op <;> rfl

/-- Zero and zero make zero. -/
theorem eval_zero (op : BinaryOp) : op.eval 0 0 = 0 := by cases op <;> decide

end BinaryOp

/-- `<<` and `>>` -/
inductive ShiftOp
  | left
  | right
  deriving DecidableEq, Repr

namespace ShiftOp

/-- The operator on numbers, for a count from 0 to 31. -/
def eval : ShiftOp → Lane → Lane → Lane
  | left, a, count => a <<< count.toNat
  | right, a, count => a.sshiftRight count.toNat

/-- The compound assignment at run time. -/
def runTime (features : Features) (n : ℕ) : ShiftOp → Reg → Reg → Reg
  | left => Storage.shiftLeft features n
  | right => Storage.shiftRight features n

theorem eval_zero (op : ShiftOp) (count : Lane) : op.eval 0 count = 0 := by
  cases op with
  | left => exact BitVec.zero_shiftLeft _
  | right => exact BitVec.zero_sshiftRight

/-- A visible lane is shifted by its count; another one is shifted too, or left alone. -/
theorem runTime_apply (features : Features) (n : ℕ) (op : ShiftOp) (a count : Reg) (i : Fin 4)
    (h : (i : ℕ) < n → (count i).toNat < 32) :
    op.runTime features n a count i =
      if (i : ℕ) < n ∨ features.avx2 = true then op.eval (a i) (count i) else a i := by
  cases havx2 : features.avx2 with
  | true => cases op <;> simp [runTime, eval, Storage.shiftLeft, Storage.shiftRight, havx2,
      sllvEpi32, sravEpi32]
  | false =>
    by_cases hi : (i : ℕ) < n
    · have hmod := Nat.mod_eq_of_lt (h hi)
      cases op <;> simp [runTime, eval, Storage.shiftLeft, Storage.shiftRight, havx2,
        forLanes_apply, hi, hmod]
    · cases op <;> simp [runTime, Storage.shiftLeft, Storage.shiftRight, havx2, forLanes_apply, hi]

end ShiftOp

/-- An expression for a vector of so many lanes. -/
inductive Expr : ℕ → Type
  | make1 (x : Lane) : Expr 1
  | make2 (x y : Lane) : Expr 2
  | make3 (x y z : Lane) : Expr 3
  | make4 (x y z w : Lane) : Expr 4
  | splat (n : ℕ) (hn : 1 ≤ n ∧ n ≤ 4) (s : Lane) : Expr n
  | xy {n : ℕ} (hn : 2 ≤ n) (v : Expr n) : Expr 2
  | zw (v : Expr 4) : Expr 2
  /-- The vector after `setX`, `setY`, `setZ` or `setW`. -/
  | setLane {n : ℕ} (i : Fin 4) (hi : (i : ℕ) < n) (v : Expr n) (rhs : Lane) : Expr n
  | neg {n : ℕ} (v : Expr n) : Expr n
  | not {n : ℕ} (v : Expr n) : Expr n
  | binary {n : ℕ} (op : BinaryOp) (lhs rhs : Expr n) : Expr n
  /-- A number on the right, or on the left of an operator that commutes. -/
  | binaryScalar {n : ℕ} (op : BinaryOp) (v : Expr n) (s : Lane) : Expr n
  | shift {n : ℕ} (op : ShiftOp) (v count : Expr n) : Expr n
  | shiftScalar {n : ℕ} (op : ShiftOp) (v : Expr n) (count : Lane) : Expr n

namespace Expr

variable (features : Features)

/-- The register at run time. -/
def runTime : {n : ℕ} → Expr n → Reg
  | _, make1 x => Storage.make1 x
  | _, make2 x y => Storage.make2 x y
  | _, make3 x y z => Storage.make3 x y z
  | _, make4 x y z w => Storage.make4 x y z w
  | n, splat _ _ s => Storage.splat features n s
  | _, xy _ v => Storage.xy v.runTime
  | _, zw v => Storage.zw v.runTime
  | _, setLane i _ v rhs => Storage.setLane i v.runTime rhs
  | _, neg v => Storage.neg features v.runTime
  | _, not v => Storage.not v.runTime
  | _, binary op lhs rhs => op.runTime lhs.runTime rhs.runTime
  | n, binaryScalar op v s => op.runTime v.runTime (Storage.splat features n s)
  | n, shift op v count => op.runTime features n v.runTime count.runTime
  | n, shiftScalar op v count => op.runTime features n v.runTime (Storage.splat features n count)

/-- The register at compile time. -/
def compileTime : {n : ℕ} → Expr n → Reg
  | _, make1 x => Consteval.make1 x
  | _, make2 x y => Consteval.make2 x y
  | _, make3 x y z => Consteval.make3 x y z
  | _, make4 x y z w => Consteval.make4 x y z w
  | n, splat _ _ s => Consteval.splat n s
  | _, xy _ v => Consteval.xy v.compileTime
  | _, zw v => Consteval.zw v.compileTime
  | _, setLane i _ v rhs => Storage.setLane i v.compileTime rhs
  | n, neg v => Consteval.neg n v.compileTime
  | n, not v => Consteval.not n v.compileTime
  | n, binary op lhs rhs => Consteval.assign op.eval n lhs.compileTime rhs.compileTime
  | n, binaryScalar op v s => Consteval.assign op.eval n v.compileTime (Consteval.splat n s)
  | n, shift op v count => Consteval.assign op.eval n v.compileTime count.compileTime
  | n, shiftScalar op v count =>
    Consteval.assign op.eval n v.compileTime (Consteval.splat n count)

/-- All counts of shifts are from 0 to 31. -/
def Counted : {n : ℕ} → Expr n → Prop
  | _, make1 _ | _, make2 _ _ | _, make3 _ _ _ | _, make4 _ _ _ _ | _, splat _ _ _ => True
  | _, xy _ v | _, zw v | _, setLane _ _ v _ | _, neg v | _, not v => v.Counted
  | _, binary _ lhs rhs => lhs.Counted ∧ rhs.Counted
  | _, binaryScalar _ v _ => v.Counted
  | n, shift _ v count =>
    v.Counted ∧ count.Counted ∧ ∀ i : Fin 4, (i : ℕ) < n → (count.compileTime i).toNat < 32
  | _, shiftScalar _ v count => v.Counted ∧ count.toNat < 32

end Expr

/-! ### The operations -/

section Operations

variable (features : Features)

/-- Both implementations of `splat` make the same register. -/
theorem splat_eq {n : ℕ} (hn : 1 ≤ n ∧ n ≤ 4) (s : Lane) :
    Storage.splat features n s = Consteval.splat n s := by
  have hcases : n = 1 ∨ n = 2 ∨ n = 3 ∨ n = 4 := by omega
  funext i
  rcases hcases with rfl | rfl | rfl | rfl
  · fin_cases i <;> rfl
  · have hsplat : Storage.splat features 2 s =
        if features.sse4_1 then blendEpi16 setzeroSi128 (set1Epi32 s) 0x0F
        else shuffleEpi32 (cvtsi32Si128 s) (mmShuffle 1 1 0 0) := rfl
    rw [hsplat]
    split_ifs
    · rw [blendEpi16_eq _ _ (by decide)]
      fin_cases i <;> rfl
    · fin_cases i <;> rfl
  · have hsplat : Storage.splat features 3 s =
        if features.sse4_1 then blendEpi16 setzeroSi128 (set1Epi32 s) 0x3F
        else unpackloEpi32 (shuffleEpi32 (cvtsi32Si128 s) (mmShuffle 1 1 0 0)) (cvtsi32Si128 s) :=
      rfl
    rw [hsplat]
    split_ifs
    · rw [blendEpi16_eq _ _ (by decide)]
      fin_cases i <;> rfl
    · fin_cases i <;> rfl
  · fin_cases i <;> rfl

theorem Storage.neg_apply (v : Reg) (i : Fin 4) : Storage.neg features v i = -(v i) := by
  unfold Storage.neg
  split_ifs
  · rw [signEpi32_neg_one]
  · rw [subEpi32_setzero]

theorem Storage.not_apply (v : Reg) (i : Fin 4) : Storage.not v i = ~~~(v i) := by
  rw [Storage.not, cmpeqEpi32_self, xorSi128, BitVec.xor_allOnes]

theorem Consteval.assign_apply (op : Lane → Lane → Lane) {n : ℕ} (lhs rhs : Reg) {i : Fin 4}
    (hi : (i : ℕ) < n) : Consteval.assign op n lhs rhs i = op (lhs i) (rhs i) := by
  rw [Consteval.assign, forLanes_apply, if_pos hi]

theorem Consteval.visibleOrZero_apply {n : ℕ} (f : Fin 4 → Lane) {i : Fin 4} (hi : (i : ℕ) < n) :
    Consteval.visibleOrZero n f i = f i := if_pos hi

/-- At run time, all lanes count. -/
theorem Storage.eq_iff (lhs rhs : Reg) : Storage.eq features lhs rhs = true ↔ lhs = rhs := by
  unfold Storage.eq
  split_ifs
  · rw [decide_eq_true_iff, testzSi128_xor_iff]
  · rw [decide_eq_true_iff, movemaskEpi8_cmpeq_iff]

theorem Storage.ne_eq_not_eq (lhs rhs : Reg) :
    Storage.ne features lhs rhs = !Storage.eq features lhs rhs := by
  unfold Storage.ne Storage.eq
  split_ifs
  · simp
  · simp

theorem Consteval.eq_iff {n : ℕ} {lhs rhs : Reg} :
    Consteval.eq n lhs rhs = true ↔ ∀ i : Fin 4, (i : ℕ) < n → lhs i = rhs i := decide_eq_true_iff

theorem Consteval.ne_eq_not_eq (n : ℕ) (lhs rhs : Reg) :
    Consteval.ne n lhs rhs = !Consteval.eq n lhs rhs := by
  unfold Consteval.ne Consteval.eq
  rw [← decide_not]
  simp only [not_forall, exists_prop]

end Operations

/-! ### The visible lanes -/

namespace Expr

variable (features : Features)

/-- A vector has one to four lanes. -/
theorem lanes {n : ℕ} (e : Expr n) : 1 ≤ n ∧ n ≤ 4 := by
  induction e with
  | make1 x => decide
  | make2 x y => decide
  | make3 x y z => decide
  | make4 x y z w => decide
  | splat n hn s => exact hn
  | xy hn v ih => decide
  | zw v ih => decide
  | setLane lane hlane v rhs ih => exact ih
  | neg v ih => exact ih
  | not v ih => exact ih
  | binary op lhs rhs ihl ihr => exact ihl
  | binaryScalar op v s ih => exact ih
  | shift op v count ihv ihcount => exact ihv
  | shiftScalar op v count ih => exact ih

/-- **The visible lanes are the same** at run time and at compile time. -/
theorem runTime_eq_compileTime {n : ℕ} (e : Expr n) (he : e.Counted) :
    ∀ i : Fin 4, (i : ℕ) < n → e.runTime features i = e.compileTime i := by
  induction e with
  | make1 x => exact fun i _ => rfl
  | make2 x y => exact fun i _ => rfl
  | make3 x y z => exact fun i _ => rfl
  | make4 x y z w => exact fun i _ => rfl
  | splat n hn s => exact fun i _ => congrFun (splat_eq features hn s) i
  | xy hn v ih =>
    intro i hi
    have hcases : i = 0 ∨ i = 1 := by omega
    rcases hcases with rfl | rfl
    · exact ih he 0 (by omega)
    · exact ih he 1 (by omega)
  | zw v ih =>
    intro i hi
    have hcases : i = 0 ∨ i = 1 := by omega
    rcases hcases with rfl | rfl
    · exact ih he 2 (by omega)
    · exact ih he 3 (by omega)
  | setLane lane hlane v rhs ih =>
    intro i hi
    simp only [runTime, compileTime, Storage.setLane, Function.update_apply, ih he i hi]
  | neg v ih =>
    intro i hi
    simp only [runTime, compileTime, Storage.neg_apply, Consteval.neg,
      Consteval.visibleOrZero_apply _ hi, ih he i hi]
  | not v ih =>
    intro i hi
    simp only [runTime, compileTime, Storage.not_apply, Consteval.not,
      Consteval.visibleOrZero_apply _ hi, ih he i hi]
  | binary op lhs rhs ihl ihr =>
    intro i hi
    simp only [runTime, compileTime, BinaryOp.runTime_apply, Consteval.assign_apply _ _ _ hi,
      ihl he.1 i hi, ihr he.2 i hi]
  | binaryScalar op v s ih =>
    intro i hi
    simp only [runTime, compileTime, BinaryOp.runTime_apply, Consteval.assign_apply _ _ _ hi,
      ih he i hi, splat_eq features v.lanes s]
  | shift op v count ihv ihcount =>
    intro i hi
    obtain ⟨hv, hcount, hrange⟩ := he
    -- the counts are in range at compile time, and the visible lanes agree
    have hrun := ShiftOp.runTime_apply features _ op (v.runTime features) (count.runTime features) i
      fun hi => ihcount hcount i hi ▸ hrange i hi
    simp only [runTime, compileTime, hrun, hi, true_or, if_true,
      Consteval.assign_apply _ _ _ hi, ihv hv i hi, ihcount hcount i hi]
  | @shiftScalar n op v count ih =>
    intro i hi
    obtain ⟨hv, hrange⟩ := he
    have hcount : (Consteval.splat n count i).toNat < 32 := by
      rw [Consteval.splat, Consteval.visibleOrZero_apply _ hi]
      exact hrange
    have hrun := ShiftOp.runTime_apply features n op (v.runTime features)
      (Consteval.splat n count) i fun _ => hcount
    simp only [runTime, compileTime, splat_eq features v.lanes count, hrun, hi, true_or, if_true,
      Consteval.assign_apply _ _ _ hi, ih hv i hi]

/-! ### The other lanes -/

/-- An expression without `xy`, `zw` and `~`. -/
def Plain : {n : ℕ} → Expr n → Prop
  | _, make1 _ | _, make2 _ _ | _, make3 _ _ _ | _, make4 _ _ _ _ | _, splat _ _ _ => True
  | _, xy _ _ | _, zw _ | _, not _ => False
  | _, setLane _ _ v _ | _, neg v => v.Plain
  | _, binary _ lhs rhs => lhs.Plain ∧ rhs.Plain
  | _, binaryScalar _ v _ => v.Plain
  | _, shift _ v count => v.Plain ∧ count.Plain
  | _, shiftScalar _ v _ => v.Plain

/-- Of a plain expression, the lanes that are not visible are zero. -/
theorem runTime_eq_zero {n : ℕ} (e : Expr n) (he : e.Counted) (hplain : e.Plain) :
    ∀ i : Fin 4, n ≤ (i : ℕ) → e.runTime features i = 0 := by
  have hsplat : ∀ {n : ℕ} (v : Expr n) (s : Lane) (i : Fin 4), n ≤ (i : ℕ) →
      Storage.splat features n s i = 0 := by
    intro n v s i hi
    rw [splat_eq features v.lanes, Consteval.splat]
    exact if_neg (not_lt.2 hi)
  induction e with
  | make1 x =>
    intro i hi
    have hcases : i = 1 ∨ i = 2 ∨ i = 3 := by omega
    rcases hcases with rfl | rfl | rfl <;> rfl
  | make2 x y =>
    intro i hi
    have hcases : i = 2 ∨ i = 3 := by omega
    rcases hcases with rfl | rfl <;> rfl
  | make3 x y z =>
    intro i hi
    have hlast : i = 3 := by omega
    rw [hlast]
    rfl
  | make4 x y z w => exact fun i hi => absurd i.isLt (not_lt.2 hi)
  | splat n hn s => exact hsplat (splat n hn s) s
  | xy hn v ih => exact hplain.elim
  | zw v ih => exact hplain.elim
  | setLane lane hlane v rhs ih =>
    intro i hi
    have hne : i ≠ lane := by
      rintro rfl
      exact absurd hlane (not_lt.2 hi)
    exact (Function.update_of_ne hne _ _).trans (ih he hplain i hi)
  | neg v ih =>
    intro i hi
    rw [runTime, Storage.neg_apply, ih he hplain i hi]
    rfl
  | not v ih => exact hplain.elim
  | binary op lhs rhs ihl ihr =>
    intro i hi
    rw [runTime, BinaryOp.runTime_apply, ihl he.1 hplain.1 i hi, ihr he.2 hplain.2 i hi,
      BinaryOp.eval_zero]
  | binaryScalar op v s ih =>
    intro i hi
    rw [runTime, BinaryOp.runTime_apply, ih he hplain i hi, hsplat v s i hi, BinaryOp.eval_zero]
  | shift op v count ihv ihcount =>
    intro i hi
    rw [runTime, ShiftOp.runTime_apply _ _ _ _ _ _ fun h => absurd h (not_lt.2 hi),
      ihv he.1 hplain.1 i hi, ShiftOp.eval_zero, ite_self]
  | shiftScalar op v count ih =>
    intro i hi
    rw [runTime, ShiftOp.runTime_apply _ _ _ _ _ _ fun h => absurd h (not_lt.2 hi),
      ih he.1 hplain i hi, ShiftOp.eval_zero, ite_self]

end Expr

/-! ### Comparisons -/

/-- The lanes that are not visible are the same as well, if the visible ones are. -/
def PaddingAgrees (n : ℕ) (a b : Reg) : Prop :=
  (∀ i : Fin 4, (i : ℕ) < n → a i = b i) → ∀ i : Fin 4, n ≤ (i : ℕ) → a i = b i

/-- The comparisons of plain expressions are right. -/
theorem paddingAgrees_of_plain (features : Features) {n : ℕ} {a b : Expr n} (ha : a.Counted)
    (hb : b.Counted) (hplain : a.Plain ∧ b.Plain) :
    PaddingAgrees n (a.runTime features) (b.runTime features) := by
  intro _ i hi
  rw [a.runTime_eq_zero features ha hplain.1 i hi, b.runTime_eq_zero features hb hplain.2 i hi]

/-- Registers are equal when the visible lanes are, exactly if the other lanes agree then. -/
theorem eq_iff_visible {n : ℕ} {a b : Reg} :
    (a = b ↔ ∀ i : Fin 4, (i : ℕ) < n → a i = b i) ↔ PaddingAgrees n a b := by
  constructor
  · intro h hvisible i _
    rw [h.2 hvisible]
  · intro h
    constructor
    · rintro rfl i _
      rfl
    · intro hvisible
      funext i
      rcases lt_or_ge (i : ℕ) n with hi | hi
      · exact hvisible i hi
      · exact h hvisible i hi

/-- **Run time and compile time agree** on the visible lanes of all expressions, and on `==` and
`!=` exactly when no other lane makes a difference. -/
theorem vectors_agree_iff (features : Features) {n : ℕ} (a b : Expr n) (ha : a.Counted)
    (hb : b.Counted) :
    (∀ i : Fin 4, (i : ℕ) < n → a.runTime features i = a.compileTime i) ∧
    ((Storage.eq features (a.runTime features) (b.runTime features)
          = Consteval.eq n a.compileTime b.compileTime ∧
        Storage.ne features (a.runTime features) (b.runTime features)
          = Consteval.ne n a.compileTime b.compileTime) ↔
      PaddingAgrees n (a.runTime features) (b.runTime features)) := by
  have hvisible := a.runTime_eq_compileTime features ha
  refine ⟨hvisible, ?_⟩
  rw [Storage.ne_eq_not_eq, Consteval.ne_eq_not_eq, ← eq_iff_visible]
  have hcompile : Consteval.eq n a.compileTime b.compileTime = true ↔
      ∀ i : Fin 4, (i : ℕ) < n → a.runTime features i = b.runTime features i := by
    rw [Consteval.eq_iff]
    refine forall₂_congr fun i hi => ?_
    rw [hvisible i hi, b.runTime_eq_compileTime features hb i hi]
  rw [← Storage.eq_iff features, ← hcompile, ← Bool.eq_iff_iff]
  exact ⟨fun h => h.1, fun h => ⟨h, congrArg Bool.not h⟩⟩

/-- The theorem at two plain expressions. -/
theorem vectors_agree_shifted :
    let a : Expr 2 := .shiftScalar .left (.make2 1 2) 3
    let b : Expr 2 := .binary .mul (.make2 1 2) (.splat 2 (by decide) 8)
    Storage.eq ⟨true, true, true⟩ (a.runTime ⟨true, true, true⟩) (b.runTime ⟨true, true, true⟩)
      = Consteval.eq 2 a.compileTime b.compileTime := by
  intro a b
  have ha : a.Counted := ⟨trivial, by decide⟩
  have hb : b.Counted := ⟨trivial, trivial⟩
  have hplain : a.Plain ∧ b.Plain := ⟨trivial, trivial, trivial⟩
  exact ((vectors_agree_iff ⟨true, true, true⟩ a b ha hb).2.2
    (paddingAgrees_of_plain _ ha hb hplain)).1

/-- The lanes taken out of a vector of four are not equal to the same lanes made anew. -/
theorem xy_ne_make2 :
    let a : Expr 2 := .xy (by decide) (.make4 1 2 3 4)
    let b : Expr 2 := .make2 1 2
    Consteval.eq 2 a.compileTime b.compileTime = true ∧
      Storage.eq ⟨true, true, true⟩ (a.runTime ⟨true, true, true⟩) (b.runTime ⟨true, true, true⟩)
        = false ∧
      Storage.ne ⟨true, true, true⟩ (a.runTime ⟨true, true, true⟩) (b.runTime ⟨true, true, true⟩)
        = true := by
  decide

end RoxyGlance.Numeric
