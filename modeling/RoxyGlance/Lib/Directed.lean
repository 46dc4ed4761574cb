import RoxyGlance.Lib.Rounding

/-!
# Rounding in a direction

Multiples of a unit next to a signed magnitude: the nearest one, the one below or above, and the one
towards zero.  The last three are at most one unit away from the nearest one, on the side that a
comparison tells.

* `toward_cases`: all of them are the next multiple on one side or the other;
* `correct_up`, `correct_down`, `correct_zero`: how to get them from the nearest one.
-/

namespace Rounding

/-! ### Multiples below and above -/

theorem toMultiple_of_dvd {u n : ℕ} (hu : 0 < u) (h : u ∣ n) : toMultiple u n = n := by
  obtain ⟨k, rfl⟩ := h
  rw [Nat.mul_comm, toMultiple_mul hu]

theorem dvd_toMultiple (u n : ℕ) : u ∣ toMultiple u n := Dvd.intro_left _ rfl

/-- The nearest multiple is the one below, or the one above a number that is none itself. -/
theorem toMultiple_cases (u n : ℕ) :
    toMultiple u n = n / u * u ∨ (n % u ≠ 0 ∧ toMultiple u n = n / u * u + u) := by
  unfold toMultiple
  simp only
  split_ifs with hlow htie
  · exact Or.inl rfl
  · rcases Nat.mod_two_eq_zero_or_one (n / u) with heven | hodd
    · rw [heven]
      exact Or.inl rfl
    · rcases Nat.eq_zero_or_pos u with rfl | hu
      · exact Or.inl rfl
      · refine Or.inr ⟨by omega, ?_⟩
        rw [hodd, Nat.add_mul, one_mul]
  · refine Or.inr ⟨by omega, ?_⟩
    rw [Nat.add_mul, one_mul]

/-- At most half a unit is added. -/
theorem toMultiple_le (u n : ℕ) : 2 * toMultiple u n ≤ 2 * n + u := by
  have hdiv := Nat.div_add_mod' n u
  unfold toMultiple
  simp only
  split_ifs with hlow htie
  · omega
  · have htwo := Nat.mod_lt (n / u) two_pos
    have hle : (n / u + n / u % 2) * u ≤ n / u * u + u := by
      rw [← Nat.succ_mul]
      exact Nat.mul_le_mul_right u (by omega)
    omega
  · have hmod : u ≤ 2 * (n % u) := by omega
    rw [Nat.add_mul, one_mul]
    omega

/-- An even number of units may be taken out. -/
theorem toMultiple_add {u : ℕ} (hu : 0 < u) (k n : ℕ) :
    toMultiple u (2 * k * u + n) = 2 * k * u + toMultiple u n := by
  have hdiv : (2 * k * u + n) / u = 2 * k + n / u := by
    rw [Nat.add_comm, Nat.add_mul_div_right _ _ hu, Nat.add_comm]
  have hmod : (2 * k * u + n) % u = n % u := Nat.mul_add_mod' _ _ _
  have hpar : (2 * k + n / u) % 2 = n / u % 2 := Nat.mul_add_mod _ _ _
  unfold toMultiple
  simp only [hdiv, hmod, hpar]
  split_ifs <;> ring

/-! ### Signs -/

/-- A magnitude with a sign. -/
def signed (s : Bool) (n : ℕ) : ℤ := cond s (-(n : ℤ)) n

@[simp] theorem natAbs_signed (s : Bool) (n : ℕ) : (signed s n).natAbs = n := by
  cases s
  · exact Int.natAbs_natCast n
  · exact (Int.natAbs_neg _).trans (Int.natAbs_natCast n)

theorem signed_not (s : Bool) (n : ℕ) : signed (!s) n = -signed s n := by
  cases s
  · exact rfl
  · exact (neg_neg _).symm

theorem signed_add (s : Bool) (m n : ℕ) : signed s (m + n) = signed s m + signed s n := by
  cases s <;> simp only [signed, cond_true, cond_false] <;> omega

theorem signed_mul (s : Bool) (m n : ℕ) : signed s (m * n) = m * signed s n := by
  cases s
  · exact Nat.cast_mul m n
  · rw [signed, signed, cond_true, cond_true, Nat.cast_mul, mul_neg]

theorem signed_decide (z : ℤ) : signed (decide (z < 0)) z.natAbs = z := by
  by_cases hz : z < 0
  · rw [decide_eq_true hz, signed, cond_true]
    omega
  · rw [decide_eq_false hz, signed, cond_false]
    omega

theorem signed_lt_zero {s : Bool} {n : ℕ} (hn : n ≠ 0) : decide (signed s n < 0) = s := by
  cases s
  · exact decide_eq_false (by simp only [signed, cond_false]; omega)
  · exact decide_eq_true (by simp only [signed, cond_true]; omega)

/-! ### Directions -/

/-- The directions a number is rounded in. -/
inductive Direction
  | nearest
  | down
  | up
  | zero
  deriving DecidableEq, Repr

/-- The multiple a magnitude with a sign is rounded to. -/
def toward (u : ℕ) (dir : Direction) (s : Bool) (n : ℕ) : ℕ :=
  let below := n / u * u
  let above := if n % u = 0 then below else below + u
  match dir with
  | .nearest => toMultiple u n
  | .zero => below
  | .down => if s then above else below
  | .up => if s then below else above

/-- The multiple is the one below or the one above. -/
theorem toward_cases (u : ℕ) (dir : Direction) (s : Bool) (n : ℕ) :
    toward u dir s n = n / u * u ∨ (n % u ≠ 0 ∧ toward u dir s n = n / u * u + u) := by
  have habove : (if n % u = 0 then n / u * u else n / u * u + u) = n / u * u ∨
      (n % u ≠ 0 ∧ (if n % u = 0 then n / u * u else n / u * u + u) = n / u * u + u) := by
    split_ifs with h
    · exact Or.inl rfl
    · exact Or.inr ⟨h, rfl⟩
  cases dir with
  | nearest => exact toMultiple_cases u n
  | zero => exact Or.inl rfl
  | down =>
    cases s with
    | false => exact Or.inl rfl
    | true => exact habove
  | up =>
    cases s with
    | false => exact habove
    | true => exact Or.inl rfl

theorem dvd_toward (u : ℕ) (dir : Direction) (s : Bool) (n : ℕ) : u ∣ toward u dir s n := by
  rcases toward_cases u dir s n with h | ⟨-, h⟩ <;> rw [h]
  · exact Nat.dvd_mul_left u _
  · exact Nat.dvd_add (Nat.dvd_mul_left u _) dvd_rfl

theorem toward_of_dvd {u n : ℕ} (h : u ∣ n) (dir : Direction) (s : Bool) :
    toward u dir s n = n := by
  rcases toward_cases u dir s n with heq | ⟨hne, -⟩
  · rw [heq, Nat.div_mul_cancel h]
  · exact absurd (Nat.mod_eq_zero_of_dvd h) hne

section Correction

variable {u : ℕ} (s : Bool) (n : ℕ)

/-- Downwards is to the multiple below, whatever the sign. -/
theorem toward_down (hu : 0 < u) : signed s (toward u .down s n) ≤ signed s n ∧
    signed s n < signed s (toward u .down s n) + u := by
  have hdiv := Nat.div_add_mod' n u
  have hmod := Nat.mod_lt n hu
  cases s with
  | false =>
    simp only [signed, toward, cond_false, Bool.false_eq_true, if_false]
    omega
  | true =>
    simp only [signed, toward, cond_true, if_true]
    split_ifs <;> omega

/-- Upwards is to the multiple above. -/
theorem toward_up (hu : 0 < u) : signed s n ≤ signed s (toward u .up s n) ∧
    signed s (toward u .up s n) < signed s n + u := by
  have hdiv := Nat.div_add_mod' n u
  have hmod := Nat.mod_lt n hu
  cases s with
  | false =>
    simp only [signed, toward, cond_false, Bool.false_eq_true, if_false]
    split_ifs <;> omega
  | true =>
    simp only [signed, toward, cond_true, if_true]
    omega

/-- Upwards, from the nearest multiple. -/
theorem correct_up (hu : 0 < u) : signed s (toMultiple u n) +
    (if signed s (toMultiple u n) < signed s n then (u : ℤ) else 0) =
      signed s (toward u .up s n) := by
  have hdiv := Nat.div_add_mod' n u
  have hmod := Nat.mod_lt n hu
  cases s <;>
    simp only [signed, toward, cond_true, cond_false, Bool.false_eq_true, if_true, if_false,
      Nat.cast_ite] <;>
    rcases toMultiple_cases u n with h | ⟨hne, h⟩ <;> rw [h] <;> split_ifs <;> omega

/-- Downwards, from the nearest multiple. -/
theorem correct_down (hu : 0 < u) : signed s (toMultiple u n) -
    (if signed s n < signed s (toMultiple u n) then (u : ℤ) else 0) =
      signed s (toward u .down s n) := by
  have hdiv := Nat.div_add_mod' n u
  have hmod := Nat.mod_lt n hu
  cases s <;>
    simp only [signed, toward, cond_true, cond_false, Bool.false_eq_true, if_true, if_false,
      Nat.cast_ite] <;>
    rcases toMultiple_cases u n with h | ⟨hne, h⟩ <;> rw [h] <;> split_ifs <;> omega

/-- Towards zero, from the nearest multiple. -/
theorem correct_zero (hu : 0 < u) : signed s (toMultiple u n) -
    (if n < toMultiple u n then signed s u else 0) = signed s (toward u .zero s n) := by
  have hdiv := Nat.div_add_mod' n u
  have hmod := Nat.mod_lt n hu
  cases s <;>
    simp only [signed, toward, cond_true, cond_false] <;>
    rcases toMultiple_cases u n with h | ⟨hne, h⟩ <;> rw [h] <;> split_ifs <;> omega

end Correction

end Rounding
