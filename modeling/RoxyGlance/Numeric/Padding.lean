import RoxyGlance.Numeric.Expression

/-!
# The lanes behind a fresh vector

A vector of fewer than four lanes leaves the rest of its register to padding, which comparisons of
whole registers read.  `splat` and `make` are to fill it with zeros, for integers and for floats and
with every instruction set.  The float version of `splat` for SSE2 starts from a register that
already holds the number in all lanes, so that no shuffle can bring a zero in.

* `FloatStorage.splat_sse2`: what it makes;
* `zeroPadded_iff`: the padding is zero in all other cases, and here for the number zero alone.
-/

namespace RoxyGlance.Numeric

open Sse

/-! ### Floats at run time -/

namespace FloatStorage

variable (features : Features)

/-- `splat`, by the number of lanes. -/
def splat (n : ℕ) (x : Lane) : Reg :=
  if n = 1 then setSs x
  else if n = 2 then
    if features.sse4_1 then blendPs setzeroPs (setPs1 x) 0b0011
    else
      let single := setPs1 x
      shufflePs single single (mmShuffle 1 1 0 0)
  else if n = 3 then
    if features.sse4_1 then blendPs setzeroPs (setPs1 x) 0b0111
    else
      let single := setPs1 x
      shufflePs single single (mmShuffle 1 0 0 0)
  else setPs1 x

/-- `make` of four lanes. -/
def make4 (x y z w : Lane) : Reg := setPs w z y x

/-- `make` of three lanes. -/
def make3 (x y z : Lane) : Reg := make4 x y z 0

/-- `make` of two lanes. -/
def make2 (x y : Lane) : Reg := make4 x y 0 0

/-- `make` of one lane. -/
def make1 (x : Lane) : Reg := setSs x

/-- No lane of the shuffled register differs from the number. -/
theorem shufflePs_setPs1 (x : Lane) (mask : ℕ) : shufflePs (setPs1 x) (setPs1 x) mask = setPs1 x := by
  funext i
  simp only [shufflePs, ite_self, setPs1]

/-- **Without SSE4.1** a vector of two or three lanes is filled like one of four. -/
theorem splat_sse2 (h : features.sse4_1 = false) {n : ℕ} (hn : n = 2 ∨ n = 3) (x : Lane) :
    splat features n x = setPs1 x := by
  rcases hn with rfl | rfl
  · simp [splat, h, shufflePs_setPs1]
  · simp [splat, h, shufflePs_setPs1]

/-- A vector of one lane, and with SSE4.1 every vector. -/
theorem splat_eq_consteval {n : ℕ} (hn : 1 ≤ n ∧ n ≤ 3) (h : n = 1 ∨ features.sse4_1 = true)
    (x : Lane) : splat features n x = Consteval.splat n x := by
  have hcases : n = 1 ∨ n = 2 ∨ n = 3 := by omega
  funext i
  rcases hcases with rfl | rfl | rfl
  · fin_cases i <;> rfl
  · have hsse : features.sse4_1 = true := h.resolve_left (by decide)
    have hsplat : splat features 2 x = blendPs setzeroPs (setPs1 x) 0b0011 := by
      simp [splat, hsse]
    rw [hsplat]
    fin_cases i <;> rfl
  · have hsse : features.sse4_1 = true := h.resolve_left (by decide)
    have hsplat : splat features 3 x = blendPs setzeroPs (setPs1 x) 0b0111 := by
      simp [splat, hsse]
    rw [hsplat]
    fin_cases i <;> rfl

end FloatStorage

/-! ### Both types of elements -/

/-- The element types that are stored in four lanes of 32 bits. -/
inductive Element
  | integral
  | floatingPoint
  deriving DecidableEq, Repr

namespace Element

/-- `vec::splat` at run time, on the bits of the number. -/
def splat (features : Features) (n : ℕ) (x : Lane) : Element → Reg
  | integral => Storage.splat features n x
  | floatingPoint => FloatStorage.splat features n x

/-- `vec::make(x, …, x)` at run time. -/
def makeAll (n : ℕ) (x : Lane) : Element → Reg
  | integral =>
    if n = 1 then Storage.make1 x
    else if n = 2 then Storage.make2 x x
    else if n = 3 then Storage.make3 x x x
    else Storage.make4 x x x x
  | floatingPoint =>
    if n = 1 then FloatStorage.make1 x
    else if n = 2 then FloatStorage.make2 x x
    else if n = 3 then FloatStorage.make3 x x x
    else FloatStorage.make4 x x x x

/-- `make` leaves zeros behind the lanes. -/
theorem makeAll_eq (element : Element) {n : ℕ} (hn : 1 ≤ n ∧ n ≤ 3) (x : Lane) :
    element.makeAll n x = Consteval.splat n x := by
  have hcases : n = 1 ∨ n = 2 ∨ n = 3 := by omega
  funext i
  cases element <;> rcases hcases with rfl | rfl | rfl <;> fin_cases i <;> rfl

end Element

/-- The register `splat` fills at run time is the one it fills at compile time: the number in the
lanes of the vector and zero in the others, hence the one from `make`. -/
structure ZeroPadded (element : Element) (features : Features) (n : ℕ) (x : Lane) : Prop where
  lanes : ∀ i : Fin 4, element.splat features n x i = if (i : ℕ) < n then x else 0
  consteval : element.splat features n x = Consteval.splat n x
  make : element.splat features n x = element.makeAll n x

theorem zeroPadded_of_eq {element : Element} {features : Features} {n : ℕ} (hn : 1 ≤ n ∧ n ≤ 3)
    {x : Lane} (h : element.splat features n x = Consteval.splat n x) :
    ZeroPadded element features n x where
  lanes i := by rw [h]; rfl
  consteval := h
  make := by rw [h, Element.makeAll_eq element hn]

/-- **Where the padding is zero**: for integers, for vectors of one lane, with SSE4.1, and for the
number whose bits are zero. -/
theorem zeroPadded_iff (element : Element) (features : Features) {n : ℕ} (hn : 1 ≤ n ∧ n ≤ 3)
    (x : Lane) : ZeroPadded element features n x ↔
      element = .integral ∨ n = 1 ∨ features.sse4_1 = true ∨ x = 0 := by
  cases element with
  | integral =>
    refine iff_of_true (zeroPadded_of_eq hn ?_) (Or.inl rfl)
    exact splat_eq features ⟨hn.1, hn.2.trans (by decide)⟩ x
  | floatingPoint =>
    by_cases hgood : n = 1 ∨ features.sse4_1 = true
    · refine iff_of_true (zeroPadded_of_eq hn ?_) ?_
      · exact FloatStorage.splat_eq_consteval features hn hgood x
      · exact Or.inr (hgood.imp_right Or.inl)
    · obtain ⟨hone, hsse⟩ := not_or.1 hgood
      have hsplat : Element.splat features n x .floatingPoint = setPs1 x :=
        FloatStorage.splat_sse2 features (Bool.eq_false_iff.2 hsse) (by omega) x
      constructor
      · intro h
        -- the last lane is always padding
        have hlast := h.lanes 3
        have hpadding : ¬ ((3 : Fin 4) : ℕ) < n := by
          show ¬ 3 < n
          omega
        rw [hsplat, if_neg hpadding] at hlast
        exact Or.inr (Or.inr (Or.inr hlast))
      · rintro (h | h | h | rfl)
        · cases h
        · exact absurd h hone
        · exact absurd h hsse
        · refine zeroPadded_of_eq hn ?_
          rw [hsplat]
          funext i
          exact (ite_self (0 : Lane)).symm

/-- The vector of two lanes that are `1.f` has `1.f` behind them as well. -/
theorem splat_one_notZeroPadded :
    FloatStorage.splat ⟨false, false, false⟩ 2 0x3F800000 2 = 0x3F800000 ∧
      ¬ ZeroPadded .floatingPoint ⟨false, false, false⟩ 2 0x3F800000 := by
  have hlane : FloatStorage.splat ⟨false, false, false⟩ 2 0x3F800000 2 = 0x3F800000 := by decide
  refine ⟨hlane, fun h => ?_⟩
  have hzero : FloatStorage.splat ⟨false, false, false⟩ 2 0x3F800000 2 = 0 := h.lanes 2
  rw [hlane] at hzero
  exact absurd hzero (by decide)

/-- With SSE4.1 it has zeros there. -/
theorem splat_one_zeroPadded :
    ZeroPadded .floatingPoint ⟨true, true, true⟩ 2 0x3F800000 ↔
      Element.floatingPoint = .integral ∨ 2 = 1 ∨ true = true ∨ (0x3F800000 : Lane) = 0 :=
  zeroPadded_iff .floatingPoint ⟨true, true, true⟩ ⟨by decide, by decide⟩ 0x3F800000

end RoxyGlance.Numeric
