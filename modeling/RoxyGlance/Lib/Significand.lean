import RoxyGlance.Lib.Directed

/-!
# The numbers of a given precision

The whole numbers that `p` significant bits hold, in increasing order, and the rounding of fractions
to them.  The format of a floating point number is this order: its bits, read as a number, count the
numbers below it.

* `value_ordinal`, `ordinal_value`: counting and looking up are inverse;
* `value_lt_iff`: the order is that of the numbers;
* `roundDiv_le`, `le_roundDiv`: a rounded fraction does not pass a number that needs no rounding.
-/

namespace Rounding

/-! ### Numbers that need no rounding -/

/-- `n` fits `p` significant bits. -/
def Representable (p n : ℕ) : Prop := 2 ^ (n.size - p) ∣ n

instance (p n : ℕ) : Decidable (Representable p n) :=
  inferInstanceAs (Decidable (2 ^ (n.size - p) ∣ n))

variable {p : ℕ}

theorem representable_of_lt {n : ℕ} (h : n < 2 ^ p) : Representable p n := by
  have hsize : n.size ≤ p := Nat.size_le.2 h
  rw [Representable, Nat.sub_eq_zero_of_le hsize, pow_zero]
  exact one_dvd n

theorem representable_zero (p : ℕ) : Representable p 0 := representable_of_lt (Nat.two_pow_pos p)

/-- A multiple of a unit that is at most `2 ^ p` units. -/
theorem representable_mul (hp : 0 < p) {m e : ℕ} (hm : m ≤ 2 ^ p) : Representable p (m * 2 ^ e) := by
  have hle : m * 2 ^ e ≤ 2 ^ (p + e) := by
    rw [pow_add]
    exact Nat.mul_le_mul_right _ hm
  rcases Nat.lt_or_eq_of_le hle with hlt | heq
  · have hsize : (m * 2 ^ e).size ≤ p + e := Nat.size_le.2 hlt
    have hshift : (m * 2 ^ e).size - p ≤ e := by omega
    exact (pow_dvd_pow 2 hshift).trans (Dvd.intro_left m rfl)
  · rw [heq, Representable, Nat.size_pow]
    exact pow_dvd_pow 2 (by omega)

theorem Representable.dvd {n e : ℕ} (h : Representable p n) (hn : 2 ^ (p + e) ≤ n) :
    2 ^ (e + 1) ∣ n := by
  have hsize : p + e < n.size := Nat.lt_size.2 hn
  exact (pow_dvd_pow 2 (by omega)).trans h

/-- Rounding leaves such a number alone. -/
theorem Representable.round_eq {n : ℕ} (h : Representable p n) : round p n = n := by
  rw [round]
  exact toMultiple_of_dvd (Nat.two_pow_pos _) h


/-! ### Rounding a fraction -/

/-- `n / d` in `p` significant bits. -/
def roundDiv (p n d : ℕ) : ℕ := toMultiple (2 ^ ((n / d).size - p) * d) n / d

@[simp] theorem roundDiv_one (p n : ℕ) : roundDiv p n 1 = round p n := by
  rw [roundDiv, Nat.div_one, Nat.div_one, mul_one, round]

section RoundDiv

variable {n d v : ℕ}

/-- **A rounded fraction does not pass a number above it** that needs no rounding. -/
theorem roundDiv_le (hd : 0 < d) (hv : Representable p v) (h : n ≤ v * d) :
    roundDiv p n d ≤ v := by
  have hunit : 0 < 2 ^ ((n / d).size - p) * d := Nat.mul_pos (Nat.two_pow_pos _) hd
  have hle : n / d ≤ v := Nat.div_le_of_le_mul (by rwa [Nat.mul_comm] at h)
  suffices hmul : toMultiple (2 ^ ((n / d).size - p) * d) n ≤ v * d from
    (Nat.div_le_div_right hmul).trans (Nat.mul_div_cancel v hd).le
  rcases Nat.eq_or_lt_of_le (Nat.size_le_size hle) with hsize | hsize
  · -- the bound is a multiple of the same unit
    have hdvd : 2 ^ ((n / d).size - p) * d ∣ v * d := by
      rw [hsize]
      exact Nat.mul_dvd_mul_right hv d
    exact (toMultiple_mono hunit h).trans (toMultiple_of_dvd hunit hdvd).le
  · -- a power of two lies between
    have hpow : 2 ^ (n / d).size ≤ v := Nat.lt_size.1 hsize
    have hn : n ≤ 2 ^ (n / d).size * d :=
      ((Nat.div_lt_iff_lt_mul hd).1 (Nat.lt_size_self (n / d))).le
    have hdvd : 2 ^ ((n / d).size - p) * d ∣ 2 ^ (n / d).size * d :=
      Nat.mul_dvd_mul_right (pow_dvd_pow 2 (Nat.sub_le _ _)) d
    calc toMultiple (2 ^ ((n / d).size - p) * d) n
        ≤ toMultiple (2 ^ ((n / d).size - p) * d) (2 ^ (n / d).size * d) := toMultiple_mono hunit hn
      _ = 2 ^ (n / d).size * d := toMultiple_of_dvd hunit hdvd
      _ ≤ v * d := Nat.mul_le_mul_right d hpow

/-- **A rounded fraction does not pass a number below it** that needs no rounding. -/
theorem le_roundDiv (hd : 0 < d) (hv : Representable p v) (h : v * d ≤ n) :
    v ≤ roundDiv p n d := by
  have hunit : 0 < 2 ^ ((n / d).size - p) * d := Nat.mul_pos (Nat.two_pow_pos _) hd
  have hle : v ≤ n / d := (Nat.le_div_iff_mul_le hd).2 h
  rw [roundDiv, Nat.le_div_iff_mul_le hd]
  rcases Nat.eq_or_lt_of_le (Nat.size_le_size hle) with hsize | hsize
  · have hdvd : 2 ^ ((n / d).size - p) * d ∣ v * d := by
      rw [← hsize]
      exact Nat.mul_dvd_mul_right hv d
    exact (toMultiple_of_dvd hunit hdvd).ge.trans (toMultiple_mono hunit h)
  · -- the power of two below the fraction is beyond the bound
    have hpos : 0 < (n / d).size := by omega
    have hv' : v ≤ 2 ^ ((n / d).size - 1) := (Nat.size_le.1 (by omega)).le
    have hpow : 2 ^ ((n / d).size - 1) ≤ n / d := Nat.lt_size.1 (by omega)
    have hn : 2 ^ ((n / d).size - 1) * d ≤ n := (Nat.le_div_iff_mul_le hd).1 hpow
    rcases Nat.eq_zero_or_pos p with rfl | hp
    · have hvz : v = 0 := by
        rw [Representable, Nat.sub_zero] at hv
        exact Nat.eq_zero_of_dvd_of_lt hv (Nat.lt_size_self v)
      rw [hvz, Nat.zero_mul]
      exact Nat.zero_le _
    · have hdvd : 2 ^ ((n / d).size - p) * d ∣ 2 ^ ((n / d).size - 1) * d :=
        Nat.mul_dvd_mul_right (pow_dvd_pow 2 (by omega)) d
      calc v * d ≤ 2 ^ ((n / d).size - 1) * d := Nat.mul_le_mul_right d hv'
        _ = toMultiple (2 ^ ((n / d).size - p) * d) (2 ^ ((n / d).size - 1) * d) :=
          (toMultiple_of_dvd hunit hdvd).symm
        _ ≤ toMultiple (2 ^ ((n / d).size - p) * d) n := toMultiple_mono hunit hn

/-- A fraction that is such a number is not changed. -/
theorem roundDiv_mul (hd : 0 < d) (hv : Representable p v) : roundDiv p (v * d) d = v :=
  le_antisymm (roundDiv_le hd hv le_rfl) (le_roundDiv hd hv le_rfl)

/-- The result of a rounding needs no further one. -/
theorem representable_roundDiv (hp : 0 < p) (hd : 0 < d) : Representable p (roundDiv p n d) := by
  obtain ⟨k, hk⟩ := dvd_toMultiple (2 ^ ((n / d).size - p) * d) n
  have hval : roundDiv p n d = k * 2 ^ ((n / d).size - p) := by
    rw [roundDiv, hk, Nat.mul_right_comm, Nat.mul_div_cancel _ hd, Nat.mul_comm]
  by_cases hsmall : (n / d).size ≤ p
  · -- no unit is larger than one, and what is rounded up stays below the next power
    have hpow : n < 2 ^ p * d :=
      (Nat.div_lt_iff_lt_mul hd).1 ((Nat.size_le.1 hsmall))
    have hround := toMultiple_mono (Nat.mul_pos (Nat.two_pow_pos ((n / d).size - p)) hd) hpow.le
    have hdvd : 2 ^ ((n / d).size - p) * d ∣ 2 ^ p * d := by
      rw [Nat.sub_eq_zero_of_le hsmall, pow_zero, one_mul]
      exact Dvd.intro_left _ rfl
    rw [toMultiple_of_dvd (Nat.mul_pos (Nat.two_pow_pos _) hd) hdvd] at hround
    have hle : roundDiv p n d ≤ 2 ^ p :=
      (Nat.div_le_div_right hround).trans (Nat.mul_div_cancel _ hd).le
    have hmul := representable_mul hp (e := 0) hle
    rwa [pow_zero, mul_one] at hmul
  · have hn : n ≤ 2 ^ (n / d).size * d :=
      ((Nat.div_lt_iff_lt_mul hd).1 (Nat.lt_size_self (n / d))).le
    have hunit : 0 < 2 ^ ((n / d).size - p) * d := Nat.mul_pos (Nat.two_pow_pos _) hd
    have hdvd : 2 ^ ((n / d).size - p) * d ∣ 2 ^ (n / d).size * d :=
      Nat.mul_dvd_mul_right (pow_dvd_pow 2 (Nat.sub_le _ _)) d
    have hround := toMultiple_mono hunit hn
    rw [toMultiple_of_dvd hunit hdvd] at hround
    have hle : roundDiv p n d ≤ 2 ^ (n / d).size :=
      (Nat.div_le_div_right hround).trans (Nat.mul_div_cancel _ hd).le
    rw [hval] at hle ⊢
    apply representable_mul hp
    have hsplit : 2 ^ (n / d).size = 2 ^ p * 2 ^ ((n / d).size - p) :=
      (pow_mul_pow_sub 2 (by omega)).symm
    rw [hsplit] at hle
    exact Nat.le_of_mul_le_mul_right hle (Nat.two_pow_pos _)

end RoundDiv

/-! ### Counting the numbers -/

/-- How many numbers of `p` significant bits are below `n`, which is one of them. -/
def ordinal (p n : ℕ) : ℕ := (n.size - p) * 2 ^ (p - 1) + n / 2 ^ (n.size - p)

/-- The number of `p` significant bits with `k` others below it. -/
def value (p k : ℕ) : ℕ :=
  (k - (k / 2 ^ (p - 1) - 1) * 2 ^ (p - 1)) * 2 ^ (k / 2 ^ (p - 1) - 1)

/-- The leading bits of a number beyond the first `2 ^ p`. -/
theorem leading_bounds {n e : ℕ} (hp : 0 < p) (hsize : n.size = p + e) :
    2 ^ (p - 1) ≤ n / 2 ^ e ∧ n / 2 ^ e < 2 * 2 ^ (p - 1) ∨ n = 0 := by
  rcases Nat.eq_zero_or_pos n with hn | hn
  · exact Or.inr hn
  · left
    have hlow : 2 ^ (p + e - 1) ≤ n := Nat.lt_size.1 (by omega)
    have hhigh : n < 2 ^ (p + e) := Nat.size_le.1 hsize.le
    have hsplit : 2 ^ (p + e - 1) = 2 ^ (p - 1) * 2 ^ e := by
      rw [← pow_add]
      congr 1
      omega
    constructor
    · rw [Nat.le_div_iff_mul_le (Nat.two_pow_pos e), ← hsplit]
      exact hlow
    · rw [Nat.div_lt_iff_lt_mul (Nat.two_pow_pos e), mul_pow_sub_one (by omega), ← pow_add]
      exact hhigh

/-- **Looking up what was counted.** -/
theorem value_ordinal (hp : 0 < p) {n : ℕ} (h : Representable p n) : value p (ordinal p n) = n := by
  by_cases hsmall : n.size ≤ p
  · have hord : ordinal p n = n := by
      rw [ordinal, Nat.sub_eq_zero_of_le hsmall, zero_mul, zero_add, pow_zero, Nat.div_one]
    have hlt : n / 2 ^ (p - 1) < 2 := by
      rw [Nat.div_lt_iff_lt_mul (Nat.two_pow_pos _), mul_pow_sub_one (by omega)]
      exact Nat.size_le.1 hsmall
    rw [hord, value, show n / 2 ^ (p - 1) - 1 = 0 by omega, zero_mul, Nat.sub_zero, pow_zero,
      mul_one]
  · obtain ⟨e, he⟩ := Nat.exists_eq_add_of_lt (not_le.1 hsmall)
    have hsize : n.size = p + (e + 1) := by omega
    have hshift : n.size - p = e + 1 := by omega
    have hn : n ≠ 0 := by
      rintro rfl
      simp at hsmall
    obtain ⟨hlow, hhigh⟩ := (leading_bounds hp hsize).resolve_right hn
    have hquot : ((e + 1) * 2 ^ (p - 1) + n / 2 ^ (e + 1)) / 2 ^ (p - 1) = e + 1 + 1 := by
      rw [Nat.add_comm, Nat.add_mul_div_right _ _ (Nat.two_pow_pos _)]
      have hone : n / 2 ^ (e + 1) / 2 ^ (p - 1) = 1 :=
        Nat.div_eq_of_lt_le (by omega) (by omega)
      omega
    rw [ordinal, hshift, value, hquot, Nat.add_sub_cancel, Nat.add_sub_cancel_left]
    rw [Representable, hshift] at h
    exact Nat.div_mul_cancel h

/-- The parts of a number that was looked up. -/
theorem value_eq (p k : ℕ) : ∃ m e, value p k = m * 2 ^ e ∧ k = e * 2 ^ (p - 1) + m ∧
    m < 2 * 2 ^ (p - 1) ∧ (e = 0 ∨ 2 ^ (p - 1) ≤ m) := by
  have hpos := Nat.two_pow_pos (p - 1)
  have hdiv := Nat.div_add_mod' k (2 ^ (p - 1))
  have hmod := Nat.mod_lt k hpos
  refine ⟨_, _, rfl, ?_, ?_, ?_⟩
  · have hle : (k / 2 ^ (p - 1) - 1) * 2 ^ (p - 1) ≤ k :=
      (Nat.mul_le_mul_right _ (Nat.sub_le _ _)).trans (Nat.div_mul_le_self k _)
    omega
  · rcases Nat.eq_zero_or_pos (k / 2 ^ (p - 1)) with hz | hz
    · rw [hz] at hdiv ⊢
      omega
    · rw [Nat.sub_one_mul]
      have hle : 2 ^ (p - 1) ≤ k / 2 ^ (p - 1) * 2 ^ (p - 1) := Nat.le_mul_of_pos_left _ hz
      omega
  · rcases Nat.lt_or_ge (k / 2 ^ (p - 1)) 2 with hz | hz
    · exact Or.inl (by omega)
    · right
      rw [Nat.sub_one_mul]
      have hle : 2 ^ (p - 1) ≤ k / 2 ^ (p - 1) * 2 ^ (p - 1) := Nat.le_mul_of_pos_left _ (by omega)
      omega

theorem representable_value (hp : 0 < p) (k : ℕ) : Representable p (value p k) := by
  obtain ⟨m, e, hval, -, hm, -⟩ := value_eq p k
  rw [hval]
  rw [mul_pow_sub_one (by omega)] at hm
  exact representable_mul hp hm.le

/-- **Counting what was looked up.** -/
theorem ordinal_value (hp : 0 < p) (k : ℕ) : ordinal p (value p k) = k := by
  obtain ⟨m, e, hval, hk, hm, hnorm⟩ := value_eq p k
  rw [mul_pow_sub_one (by omega)] at hm
  rw [hval]
  have hupper : m * 2 ^ e < 2 ^ (p + e) := by
    rw [pow_add]
    exact Nat.mul_lt_mul_of_pos_right hm (Nat.two_pow_pos e)
  rcases Nat.eq_zero_or_pos e with rfl | hpos
  · rw [pow_zero, mul_one, ordinal, Nat.sub_eq_zero_of_le (Nat.size_le.2 hm), pow_zero,
      Nat.div_one]
    exact hk.symm
  · have hlow : 2 ^ (p + e - 1) ≤ m * 2 ^ e := by
      rw [show p + e - 1 = p - 1 + e by omega, pow_add]
      exact Nat.mul_le_mul_right _ (hnorm.resolve_left (by omega))
    have hsize : (m * 2 ^ e).size - p = e := by
      have hle : (m * 2 ^ e).size ≤ p + e := Nat.size_le.2 hupper
      have hlt : p + e - 1 < (m * 2 ^ e).size := Nat.lt_size.2 hlow
      omega
    rw [ordinal, hsize, Nat.mul_div_cancel _ (Nat.two_pow_pos e)]
    exact hk.symm

theorem value_lt_succ (p k : ℕ) : value p k < value p (k + 1) := by
  obtain ⟨m, e, hval, hk, hm, hnorm⟩ := value_eq p k
  obtain ⟨m', e', hval', hk', hm', hnorm'⟩ := value_eq p (k + 1)
  rw [hval, hval']
  have hpos := Nat.two_pow_pos (p - 1)
  -- the unit is the same, or it doubles
  have hunit : e' = e ∨ e' = e + 1 := by
    rcases Nat.lt_trichotomy e' e with hlt | heq | hlt
    · obtain ⟨c, rfl⟩ := Nat.exists_eq_add_of_lt hlt
      have hexpand : (e' + c + 1) * 2 ^ (p - 1) = e' * 2 ^ (p - 1) + c * 2 ^ (p - 1) + 2 ^ (p - 1) := by
        ring
      have hnormal := hnorm.resolve_left (by omega)
      omega
    · exact Or.inl heq
    · obtain ⟨c, rfl⟩ := Nat.exists_eq_add_of_lt hlt
      have hexpand : (e + c + 1) * 2 ^ (p - 1) = e * 2 ^ (p - 1) + c * 2 ^ (p - 1) + 2 ^ (p - 1) := by
        ring
      have hnormal := hnorm'.resolve_left (by omega)
      rcases Nat.eq_zero_or_pos c with rfl | hc
      · exact Or.inr rfl
      · have hle : 2 ^ (p - 1) ≤ c * 2 ^ (p - 1) := Nat.le_mul_of_pos_left _ hc
        omega
  rcases hunit with rfl | rfl
  · exact Nat.mul_lt_mul_of_pos_right (by omega) (Nat.two_pow_pos e')
  · have hexpand : (e + 1) * 2 ^ (p - 1) = e * 2 ^ (p - 1) + 2 ^ (p - 1) := by ring
    have hnormal := hnorm'.resolve_left (by omega)
    rw [pow_succ', ← mul_assoc]
    exact Nat.mul_lt_mul_of_pos_right (by omega) (Nat.two_pow_pos e)

/-- **The order of the numbers** is that of their counts. -/
theorem value_lt_iff (p : ℕ) {j k : ℕ} : value p j < value p k ↔ j < k :=
  (strictMono_nat_of_lt_succ (value_lt_succ p)).lt_iff_lt

theorem value_le_iff (p : ℕ) {j k : ℕ} : value p j ≤ value p k ↔ j ≤ k :=
  (strictMono_nat_of_lt_succ (value_lt_succ p)).le_iff_le

theorem value_zero (p : ℕ) : value p 0 = 0 := by simp [value]

end Rounding
