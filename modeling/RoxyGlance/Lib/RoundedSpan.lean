import RoxyGlance.Lib.FractionalSpan

/-!
# Spans placed with rounded products

The products that place a span by fractions are numbers of limited precision.  All that is known of
the rounding is that it does not pass a whole number of the range; that is enough for the span to
stay inside.  Its size may be one unit too small, its position one unit beyond the exact one for that
size, and so two units beyond the one for the exact size.

* `RoundedSpan.of_rounded`: what holds of the span.
-/

variable {K : Type} [Field K] [LinearOrder K]

/-- `r` stands for `q`: no whole number from zero to `bound` is between them. -/
structure RoundedTo (bound : ℤ) (q r : K) : Prop where
  le_of_le : ∀ k : ℤ, 0 ≤ k → k ≤ bound → q ≤ k → r ≤ k
  ge_of_ge : ∀ k : ℤ, 0 ≤ k → k ≤ bound → (k : K) ≤ q → (k : K) ≤ r

namespace RoundedTo

variable {bound : ℤ} {q r : K}

/-- A whole number is not changed. -/
theorem eq_of_intCast {k : ℤ} (h : RoundedTo bound (k : K) r) (hk : 0 ≤ k) (hbound : k ≤ bound) :
    r = k :=
  le_antisymm (h.le_of_le k hk hbound le_rfl) (h.ge_of_ge k hk hbound le_rfl)

variable [FloorRing K]

theorem ceil_le (h : RoundedTo bound q r) (hq : 0 ≤ q) (hbound : q ≤ bound) : ⌈r⌉ ≤ ⌈q⌉ :=
  Int.ceil_le.2 (h.le_of_le _ (Int.ceil_nonneg hq) (Int.ceil_le.2 hbound) (Int.le_ceil q))

variable [IsStrictOrderedRing K]

theorem le_ceil (h : RoundedTo bound q r) (hq : 0 ≤ q) (hbound : q ≤ bound) :
    ⌈q⌉ ≤ ⌈r⌉ + 1 := by
  have hfloor : ⌊q⌋ ≤ bound := Int.cast_le.1 ((Int.floor_le q).trans hbound)
  have hle : ((⌊q⌋ : ℤ) : K) ≤ r := h.ge_of_ge _ (Int.floor_nonneg.2 hq) hfloor (Int.floor_le q)
  have hceil : ⌊q⌋ ≤ ⌈r⌉ := Int.cast_le.1 (hle.trans (Int.le_ceil r))
  have hnext := Int.ceil_le_floor_add_one q
  omega

theorem le_floor (h : RoundedTo bound q r) (hq : 0 ≤ q) (hbound : q ≤ bound) : ⌊q⌋ ≤ ⌊r⌋ :=
  Int.le_floor.2 (h.ge_of_ge _ (Int.floor_nonneg.2 hq)
    (Int.cast_le.1 ((Int.floor_le q).trans hbound)) (Int.floor_le q))

theorem floor_le (h : RoundedTo bound q r) (hq : 0 ≤ q) (hbound : q ≤ bound) :
    ⌊r⌋ ≤ ⌊q⌋ + 1 := by
  have hle : r ≤ ((⌈q⌉ : ℤ) : K) :=
    h.le_of_le _ (Int.ceil_nonneg hq) (Int.ceil_le.2 hbound) (Int.le_ceil q)
  have hfloor : ⌊r⌋ ≤ ⌈q⌉ := Int.cast_le.1 ((Int.floor_le r).trans hle)
  have hnext := Int.ceil_le_floor_add_one q
  omega

end RoundedTo

variable [FloorRing K]

/-- A size that is rounded up is a whole number of the range. -/
theorem RoundedTo.size_bounds [IsStrictOrderedRing K] {w r : K} {length bound : ℤ}
    (h : RoundedTo bound (w * length) r) (hw : 0 ≤ w ∧ w ≤ 1) (hlength : 0 ≤ length)
    (hbound : length ≤ bound) : 0 ≤ ⌈r⌉ ∧ ⌈r⌉ ≤ length := by
  have hlengthK : (0 : K) ≤ length := Int.cast_nonneg hlength
  have hnonneg : (0 : K) ≤ r := by
    have hge := h.ge_of_ge 0 le_rfl (hlength.trans hbound) (by
      rw [Int.cast_zero]
      exact mul_nonneg hw.1 hlengthK)
    rwa [Int.cast_zero] at hge
  have hle : r ≤ length := h.le_of_le _ hlength hbound (mul_le_of_le_one_left hlengthK hw.2)
  exact ⟨Int.ceil_nonneg hnonneg, Int.ceil_le.2 hle⟩

/-- A span of `size` units that starts at `offset`, for the fractions `x` and `w` of a range of
`length` units. -/
structure RoundedSpan (x w : K) (length size offset : ℤ) : Prop where
  size_nonneg : 0 ≤ size
  size_le : size ≤ ⌈w * length⌉
  le_size : ⌈w * length⌉ ≤ size + 1
  offset_nonneg : 0 ≤ offset
  offset_ge : ⌊x * ((length - size : ℤ) : K)⌋ ≤ offset
  offset_le : offset ≤ ⌊x * ((length - size : ℤ) : K)⌋ + 1
  exact_le : ⌊x * ((length - ⌈w * length⌉ : ℤ) : K)⌋ ≤ offset
  le_exact : offset ≤ ⌊x * ((length - ⌈w * length⌉ : ℤ) : K)⌋ + 2
  inside : offset + size ≤ length
  at_start : x = 0 → offset = 0
  at_end : x = 1 → offset + size = length

variable [IsStrictOrderedRing K]

/-- A size that is one unit too small moves the position by one unit at most. -/
theorem floor_rest_bounds {x : K} (hx : 0 ≤ x ∧ x ≤ 1) (length : ℤ) {size exact : ℤ}
    (hle : size ≤ exact) (hge : exact ≤ size + 1) :
    ⌊x * ((length - exact : ℤ) : K)⌋ ≤ ⌊x * ((length - size : ℤ) : K)⌋ ∧
      ⌊x * ((length - size : ℤ) : K)⌋ ≤ ⌊x * ((length - exact : ℤ) : K)⌋ + 1 := by
  have hrest : ((length - exact : ℤ) : K) ≤ ((length - size : ℤ) : K) := Int.cast_le.2 (by omega)
  have hnext : ((length - size : ℤ) : K) ≤ ((length - exact : ℤ) : K) + 1 := by
    exact_mod_cast (show length - size ≤ length - exact + 1 by omega)
  refine ⟨Int.floor_le_floor (mul_le_mul_of_nonneg_left hrest hx.1), ?_⟩
  calc ⌊x * ((length - size : ℤ) : K)⌋
      ≤ ⌊x * (((length - exact : ℤ) : K) + 1)⌋ :=
        Int.floor_le_floor (mul_le_mul_of_nonneg_left hnext hx.1)
    _ ≤ ⌊x * ((length - exact : ℤ) : K) + 1⌋ := by
        apply Int.floor_le_floor
        rw [mul_add, mul_one]
        exact add_le_add_right hx.2 _
    _ = ⌊x * ((length - exact : ℤ) : K)⌋ + 1 := Int.floor_add_one _

/-- **The span stays inside the range**, near where it would be exactly. -/
theorem RoundedSpan.of_rounded {x w size' offset' : K} {length bound : ℤ} (hx : 0 ≤ x ∧ x ≤ 1)
    (hw : 0 ≤ w ∧ w ≤ 1) (hlength : 0 ≤ length) (hbound : length ≤ bound)
    (hsize : RoundedTo bound (w * length) size')
    (hoffset : RoundedTo bound (x * ((length - ⌈size'⌉ : ℤ) : K)) offset') :
    RoundedSpan x w length ⌈size'⌉ ⌊offset'⌋ := by
  have hlengthK : (0 : K) ≤ length := Int.cast_nonneg hlength
  have hproduct : (0 : K) ≤ w * length := mul_nonneg hw.1 hlengthK
  have hproductbound : w * length ≤ (bound : K) :=
    (mul_le_of_le_one_left hlengthK hw.2).trans (Int.cast_le.2 hbound)
  obtain ⟨hsizenonneg, hsizele⟩ := hsize.size_bounds hw hlength hbound
  -- what is left over is a whole number of the range, and so is the bound of the offset
  have hrest : 0 ≤ length - ⌈size'⌉ := by omega
  have hrestbound : length - ⌈size'⌉ ≤ bound := by omega
  have hrestK : (0 : K) ≤ ((length - ⌈size'⌉ : ℤ) : K) := Int.cast_nonneg hrest
  have hshift : (0 : K) ≤ x * ((length - ⌈size'⌉ : ℤ) : K) := mul_nonneg hx.1 hrestK
  have hshiftle : x * ((length - ⌈size'⌉ : ℤ) : K) ≤ ((length - ⌈size'⌉ : ℤ) : K) :=
    mul_le_of_le_one_left hrestK hx.2
  have hshiftbound := hshiftle.trans (Int.cast_le.2 hrestbound)
  have hoffsetle : offset' ≤ ((length - ⌈size'⌉ : ℤ) : K) :=
    hoffset.le_of_le _ hrest hrestbound hshiftle
  have hfloorle : ⌊offset'⌋ ≤ length - ⌈size'⌉ :=
    Int.cast_le.1 ((Int.floor_le offset').trans hoffsetle)
  have hle := hoffset.le_floor hshift hshiftbound
  have hge := hoffset.floor_le hshift hshiftbound
  have hceil := hsize.ceil_le hproduct hproductbound
  have hceilge := hsize.le_ceil hproduct hproductbound
  obtain ⟨hexact, hexactge⟩ := floor_rest_bounds hx length hceil hceilge
  refine ⟨hsizenonneg, hceil, hceilge, (Int.floor_nonneg.2 hshift).trans hle, hle, hge,
    hexact.trans hle, by omega, by omega, ?_, ?_⟩
  · rintro rfl
    rw [zero_mul, ← Int.cast_zero] at hoffset
    rw [hoffset.eq_of_intCast le_rfl (hlength.trans hbound), Int.floor_intCast]
  · rintro rfl
    rw [one_mul] at hoffset
    rw [hoffset.eq_of_intCast hrest hrestbound, Int.floor_intCast]
    omega
