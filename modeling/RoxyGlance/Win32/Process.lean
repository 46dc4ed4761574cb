import Mathlib.Data.Nat.Size
import RoxyGlance.Fault

/-!
# The image path of a process

The system copies the path of a process into a buffer and fails when it does not fit, so
`GetProcessImageNameFromHANDLE` tries larger and larger buffers.  The next size is the current one
shifted and aligned down to one of the sizes `128 * 4 ^ j`, of which 32768 is the last.

* `alignDown4x128_isGreatest`: what is aligned to;
* `lt_alignDown4x128_shift`, `alignDown4x128_shift_le`: every size is larger than the one before, and
  none beyond 32768 comes before it;
* `getProcessImageNameFromHANDLE_finds`: so every path that can exist is found.
-/

namespace RoxyGlance.Win32

/-! ### The sizes -/

/-- `align_down_4x128`; `std::bit_width` is `Nat.size`. -/
def alignDown4x128 (x : ℕ) : ℕ :=
  if x < 128 then 128
  else
    let width := x.size
    let targetShift := if width % 2 = 0 then width - 1 else width - 2
    1 <<< targetShift

/-- The exponent is odd, whatever the parity of the width, and at most one below the largest. -/
theorem exists_alignDown4x128_eq {x : ℕ} (h : 128 ≤ x) :
    ∃ j, alignDown4x128 x = 128 * 4 ^ j ∧ 128 * 4 ^ j ≤ x ∧ x < 128 * 4 ^ (j + 1) := by
  have hwidth : 8 ≤ x.size := Nat.lt_size.2 h
  have hlow : 2 ^ (x.size - 1) ≤ x := Nat.lt_size.1 (by omega)
  have hhigh : x < 2 ^ x.size := Nat.lt_size_self x
  have hpow : ∀ j, 128 * 4 ^ j = 2 ^ (7 + 2 * j) := by
    intro j
    rw [pow_add, pow_mul]
    norm_num
  unfold alignDown4x128
  rw [if_neg (by omega)]
  simp only [Nat.one_shiftLeft]
  by_cases heven : x.size % 2 = 0
  · obtain ⟨j, hj⟩ : ∃ j, x.size = 8 + 2 * j := ⟨(x.size - 8) / 2, by omega⟩
    refine ⟨j, ?_, ?_, ?_⟩
    · rw [if_pos heven, hpow, hj]
      congr 1
      omega
    · rw [hpow]
      rwa [hj, show 8 + 2 * j - 1 = 7 + 2 * j by omega] at hlow
    · rw [hpow]
      rw [hj] at hhigh
      exact hhigh.trans_le (Nat.pow_le_pow_right two_pos (by omega))
  · obtain ⟨j, hj⟩ : ∃ j, x.size = 9 + 2 * j := ⟨(x.size - 9) / 2, by omega⟩
    refine ⟨j, ?_, ?_, ?_⟩
    · rw [if_neg heven, hpow, hj]
      congr 1
      omega
    · rw [hpow]
      rw [hj, show 9 + 2 * j - 1 = 7 + 2 * j + 1 by omega] at hlow
      exact (Nat.pow_le_pow_right two_pos (Nat.le_succ _)).trans hlow
    · rw [hpow]
      rwa [hj, show 9 + 2 * j = 7 + 2 * (j + 1) by omega] at hhigh

/-- **What is aligned to**: the largest of the sizes `128 * 4 ^ j` that is not larger. -/
theorem alignDown4x128_isGreatest {x : ℕ} (h : 128 ≤ x) :
    IsGreatest {size | (∃ j, size = 128 * 4 ^ j) ∧ size ≤ x} (alignDown4x128 x) := by
  obtain ⟨j, heq, hle, hlt⟩ := exists_alignDown4x128_eq h
  refine ⟨⟨⟨j, heq⟩, heq ▸ hle⟩, ?_⟩
  rintro size ⟨⟨i, rfl⟩, hsize⟩
  rw [heq]
  have hij : 128 * 4 ^ i < 128 * 4 ^ (j + 1) := lt_of_le_of_lt hsize hlt
  have hpow : i < j + 1 := (Nat.pow_lt_pow_iff_right (by decide)).1 (Nat.lt_of_mul_lt_mul_left hij)
  exact Nat.mul_le_mul_left 128 (Nat.pow_le_pow_right (by decide) (Nat.le_of_lt_succ hpow))

/-- Every size is larger than the one before. -/
theorem lt_alignDown4x128_shift (size : ℕ) : size < alignDown4x128 (size <<< 2) := by
  rw [Nat.shiftLeft_eq]
  by_cases h : 128 ≤ size * 2 ^ 2
  · obtain ⟨j, heq, -, hlt⟩ := exists_alignDown4x128_eq h
    rw [heq]
    rw [pow_succ 4 j] at hlt
    omega
  · rw [alignDown4x128, if_pos (by omega)]
    omega

/-- No size comes before 32768 and its successor after it. -/
theorem alignDown4x128_shift_le {size : ℕ} (h : size < 32768) :
    alignDown4x128 (size <<< 2) ≤ 32768 := by
  rw [Nat.shiftLeft_eq]
  by_cases hsize : 128 ≤ size * 2 ^ 2
  · obtain ⟨j, heq, hle, -⟩ := exists_alignDown4x128_eq hsize
    have hj : 4 ^ j < 4 ^ 5 := by omega
    have hj4 : j ≤ 4 := Nat.le_of_lt_succ ((Nat.pow_lt_pow_iff_right (by decide)).1 hj)
    have hpow : 4 ^ j ≤ 4 ^ 4 := Nat.pow_le_pow_right (by decide) hj4
    omega
  · rw [alignDown4x128, if_pos (by omega)]
    decide

/-! ### The loop -/

/-- `ERROR_SUCCESS` -/
def errorSuccess : BitVec 32 := 0#32

/-- `ERROR_INSUFFICIENT_BUFFER` -/
def errorInsufficientBuffer : BitVec 32 := 122#32

theorem ofWin32_errorSuccess : HResult.ofWin32 errorSuccess = HResult.ok := by decide

/-- What the attempts meet, by their number: whether there is memory for the buffer, and the answer
of `QueryFullProcessImageNameW` for the size that is passed, a path or an error code. -/
structure Attempts where
  allocates : ℕ → Bool
  query : ℕ → ℕ → Except (BitVec 32) Wide

/-- `GetProcessImageNameFromHANDLEWithBufferSize`: the error code, and what is in the string. -/
def getProcessImageNameFromHANDLEWithBufferSize (attempts : Attempts) (attempt bufferSize : ℕ) :
    Except Fault (BitVec 32 × Wide) :=
  if attempts.allocates attempt then
    match attempts.query attempt bufferSize with
    | .error lasterr => .ok (lasterr, [])
    | .ok path => .ok (errorSuccess, path)
  else .error .badAlloc

/-- How the function ends; `tried` is not in the program and records the sizes of the loop. -/
structure Retrieval where
  hresult : HResult
  filepath : Wide
  tried : List ℕ

/-- The loop, from one size on.  The handler behind it is the only place an exception goes to. -/
def tryBufferSizes (attempts : Attempts) (attempt bufferSize : ℕ) (lasterr : BitVec 32)
    (filepath : Wide) : Retrieval :=
  if bufferSize ≤ 32768 then
    match getProcessImageNameFromHANDLEWithBufferSize attempts attempt (bufferSize - 1) with
    | .error _ => ⟨HResult.outOfMemory, filepath, [bufferSize]⟩
    | .ok (lasterr, filepath) =>
      if lasterr ≠ errorInsufficientBuffer then ⟨HResult.ofWin32 lasterr, filepath, [bufferSize]⟩
      else
        let rest := tryBufferSizes attempts (attempt + 1) (alignDown4x128 (bufferSize <<< 2))
          lasterr filepath
        { rest with tried := bufferSize :: rest.tried }
  else ⟨HResult.ofWin32 lasterr, filepath, []⟩
termination_by 32769 - bufferSize
decreasing_by
  have hlt := lt_alignDown4x128_shift bufferSize
  omega

/-- `GetProcessImageNameFromHANDLE`, for a string with a capacity. -/
def getProcessImageNameFromHANDLE (attempts : Attempts) (capacity : ℕ) (filepath : Wide) :
    Retrieval :=
  tryBufferSizes attempts 0 (max 128 (min capacity 32768)) errorSuccess filepath

/-! ### Where the loop ends -/

section Loop

variable (attempts : Attempts)

/-- An attempt after which the loop goes on. -/
def Insufficient (attempt size : ℕ) : Prop :=
  attempts.allocates attempt = true ∧
    attempts.query attempt (size - 1) = .error errorInsufficientBuffer

/-- An attempt that ends the loop, with what is returned after it. -/
inductive EndsWith (attempt size : ℕ) (r : Retrieval) : Prop
  | outOfMemory (memory : attempts.allocates attempt = false)
      (hresult : r.hresult = HResult.outOfMemory)
  | found (path : Wide) (query : attempts.query attempt (size - 1) = .ok path)
      (hresult : r.hresult = HResult.ok) (filepath : r.filepath = path)
  | failed (lasterr : BitVec 32) (query : attempts.query attempt (size - 1) = .error lasterr)
      (other : lasterr ≠ errorInsufficientBuffer) (hresult : r.hresult = HResult.ofWin32 lasterr)

/-- One attempt ends the loop, or the next one decides. -/
theorem tryBufferSizes_cases (attempt : ℕ) {size : ℕ} (hsize : size ≤ 32768) (lasterr : BitVec 32)
    (filepath : Wide) :
    let r := tryBufferSizes attempts attempt size lasterr filepath
    (r.tried = [size] ∧ EndsWith attempts attempt size r) ∨
      (Insufficient attempts attempt size ∧
        r = { tryBufferSizes attempts (attempt + 1) (alignDown4x128 (size <<< 2))
                errorInsufficientBuffer [] with
              tried := size :: (tryBufferSizes attempts (attempt + 1)
                (alignDown4x128 (size <<< 2)) errorInsufficientBuffer []).tried }) := by
  intro r
  have hr : r = tryBufferSizes attempts attempt size lasterr filepath := rfl
  rw [tryBufferSizes, if_pos hsize, getProcessImageNameFromHANDLEWithBufferSize] at hr
  cases hmemory : attempts.allocates attempt with
  | false =>
    simp only [hmemory, Bool.false_eq_true, if_false] at hr
    rw [hr]
    exact Or.inl ⟨rfl, .outOfMemory hmemory rfl⟩
  | true =>
    cases hquery : attempts.query attempt (size - 1) with
    | ok path =>
      have hother : errorSuccess ≠ errorInsufficientBuffer := by decide
      simp only [hmemory, hquery, if_true, hother, ne_eq, not_false_eq_true] at hr
      rw [hr]
      exact Or.inl ⟨rfl, .found path hquery ofWin32_errorSuccess rfl⟩
    | error e =>
      by_cases hother : e = errorInsufficientBuffer
      · subst hother
        simp only [hmemory, hquery, if_true, ne_eq, not_true_eq_false, if_false] at hr
        exact Or.inr ⟨⟨hmemory, hquery⟩, hr⟩
      · simp only [hmemory, hquery, if_true, hother, ne_eq, not_false_eq_true] at hr
        rw [hr]
        exact Or.inl ⟨rfl, .failed e hquery hother rfl⟩

theorem not_insufficient_of_endsWith {attempt size : ℕ} {r : Retrieval}
    (h : EndsWith attempts attempt size r) : ¬ Insufficient attempts attempt size := by
  rintro ⟨hmemory, hquery⟩
  cases h with
  | outOfMemory hnone => rw [hmemory] at hnone; cases hnone
  | found path hfound => rw [hquery] at hfound; cases hfound
  | failed lasterr hfailed hother =>
    rw [hquery] at hfailed
    cases hfailed
    exact hother rfl

/-- What the loop does from one size on. -/
structure Ends (attempt size : ℕ) (r : Retrieval) : Prop where
  sizes : ∀ tried ∈ r.tried, size ≤ tried ∧ tried ≤ 32768
  increasing : r.tried.Pairwise (· < ·)
  decided : ∀ i tried, r.tried[i]? = some tried → Insufficient attempts (attempt + i) tried ∨
    (i + 1 = r.tried.length ∧ EndsWith attempts (attempt + i) tried r)
  gaveUp : (∀ i tried, r.tried[i]? = some tried → Insufficient attempts (attempt + i) tried) →
    r.tried.getLast? = some 32768 ∧ r.hresult = HResult.ofWin32 errorInsufficientBuffer

/-- The last size is not followed by another attempt. -/
theorem tryBufferSizes_last (attempt : ℕ) (lasterr : BitVec 32) (filepath : Wide) :
    tryBufferSizes attempts attempt (alignDown4x128 (32768 <<< 2)) lasterr filepath =
      ⟨HResult.ofWin32 lasterr, filepath, []⟩ := by
  have hlt := lt_alignDown4x128_shift 32768
  rw [tryBufferSizes, if_neg (by omega)]

/-- An attempt in front of the others. -/
theorem Ends.cons {attempt size size' : ℕ} {r : Retrieval} (h : Ends attempts (attempt + 1) size' r)
    (hne : r.tried ≠ []) (hsize : size ≤ 32768) (hlt : size < size')
    (hfirst : Insufficient attempts attempt size) :
    Ends attempts attempt size { r with tried := size :: r.tried } where
  sizes tried htried := by
    rcases List.mem_cons.1 htried with rfl | hmem
    · exact ⟨le_rfl, hsize⟩
    · have hrest := h.sizes tried hmem
      exact ⟨by omega, hrest.2⟩
  increasing := by
    refine List.pairwise_cons.2 ⟨fun tried hmem => ?_, h.increasing⟩
    exact lt_of_lt_of_le hlt (h.sizes tried hmem).1
  decided i tried htried := by
    cases i with
    | zero =>
      cases htried
      exact Or.inl hfirst
    | succ i =>
      rw [List.getElem?_cons_succ] at htried
      rw [show attempt + (i + 1) = attempt + 1 + i by omega]
      refine (h.decided i tried htried).imp_right fun hlast => ⟨?_, ?_⟩
      · rw [List.length_cons, hlast.1]
      · cases hlast.2 with
        | outOfMemory memory hresult => exact .outOfMemory memory hresult
        | found path query hresult filepath => exact .found path query hresult filepath
        | failed lasterr query other hresult => exact .failed lasterr query other hresult
  gaveUp hall := by
    have hrest := h.gaveUp fun i tried htried => by
      have hi := hall (i + 1) tried (by rwa [List.getElem?_cons_succ])
      rwa [show attempt + (i + 1) = attempt + 1 + i by omega] at hi
    refine ⟨?_, hrest.2⟩
    rw [List.getLast?_cons_of_ne_nil hne]
    exact hrest.1

theorem eq_of_getElem?_singleton {i a b : ℕ} (h : [a][i]? = some b) : i = 0 ∧ a = b := by
  cases i with
  | zero => exact ⟨rfl, Option.some.inj h⟩
  | succ i => cases h

/-- **The loop from any size on**, by induction on what is left up to the last one. -/
theorem tryBufferSizes_ends (attempt : ℕ) {size : ℕ} (hsize : size ≤ 32768) (lasterr : BitVec 32)
    (filepath : Wide) :
    Ends attempts attempt size (tryBufferSizes attempts attempt size lasterr filepath) ∧
      (tryBufferSizes attempts attempt size lasterr filepath).tried ≠ [] := by
  induction hn : 32768 - size using Nat.strong_induction_on generalizing attempt size lasterr
    filepath with
  | _ n ih =>
    subst hn
    rcases tryBufferSizes_cases attempts attempt hsize lasterr filepath with
      ⟨htried, hends⟩ | ⟨hfirst, hr⟩
    · refine ⟨⟨?_, ?_, ?_, ?_⟩, by rw [htried]; exact List.cons_ne_nil _ _⟩
      · intro tried hmem
        rw [htried, List.mem_singleton] at hmem
        exact ⟨hmem.ge, hmem ▸ hsize⟩
      · rw [htried]
        exact List.pairwise_singleton _ _
      · intro i tried hi
        rw [htried] at hi ⊢
        obtain ⟨rfl, rfl⟩ := eq_of_getElem?_singleton hi
        exact Or.inr ⟨rfl, hends⟩
      · intro hall
        exact absurd (hall 0 size (by rw [htried]; rfl)) (not_insufficient_of_endsWith attempts hends)
    · rw [hr]
      refine ⟨?_, List.cons_ne_nil _ _⟩
      have hlt := lt_alignDown4x128_shift size
      -- below 32768 the next size is tried as well; at 32768 the loop gives up
      rcases Nat.lt_or_eq_of_le hsize with hless | rfl
      · have hnext := alignDown4x128_shift_le hless
        obtain ⟨hrest, hne⟩ := ih (32768 - alignDown4x128 (size <<< 2)) (by omega)
          (attempt + 1) hnext errorInsufficientBuffer [] rfl
        exact hrest.cons attempts hne hsize hlt hfirst
      · rw [tryBufferSizes_last]
        refine ⟨?_, List.pairwise_singleton _ _, ?_, fun _ => ⟨rfl, rfl⟩⟩
        · intro tried hmem
          rw [List.mem_singleton] at hmem
          exact ⟨hmem.ge, hmem.le⟩
        · intro i tried hi
          obtain ⟨rfl, rfl⟩ := eq_of_getElem?_singleton hi
          exact Or.inl hfirst

/-- The system answers for a path: it is copied when it and its NUL fit in the size passed. -/
def AnswersWith (path : Wide) : Prop :=
  ∀ attempt size, attempts.query attempt size =
    if path.length + 1 ≤ size then .ok path else .error errorInsufficientBuffer

/-- **The path is found**: whatever the capacity of the string, the sizes that are tried increase,
the loop gives up after the last one only, an error of another kind ends it and is returned, and
every path that fits in the last buffer is returned, unless there is no memory for a buffer. -/
theorem getProcessImageNameFromHANDLE_finds (capacity : ℕ) (filepath : Wide) :
    let r := getProcessImageNameFromHANDLE attempts capacity filepath
    r.tried.Pairwise (· < ·) ∧
      ((∀ i size, r.tried[i]? = some size → Insufficient attempts i size) →
        r.tried.getLast? = some 32768 ∧ r.hresult = HResult.ofWin32 errorInsufficientBuffer) ∧
      (∀ i size lasterr, r.tried[i]? = some size → attempts.allocates i = true →
        attempts.query i (size - 1) = .error lasterr → lasterr ≠ errorInsufficientBuffer →
          i + 1 = r.tried.length ∧ r.hresult = HResult.ofWin32 lasterr) ∧
      ∀ path : Wide, path.length ≤ 32766 → AnswersWith attempts path →
        (r.hresult = HResult.ok ∧ r.filepath = path) ∨
          (r.hresult = HResult.outOfMemory ∧
            ∃ i, i + 1 = r.tried.length ∧ attempts.allocates i = false) := by
  intro r
  have hstart : max 128 (min capacity 32768) ≤ 32768 := by omega
  have hends := (tryBufferSizes_ends attempts 0 hstart errorSuccess filepath).1
  have hdecided := hends.decided
  have hgaveUp := hends.gaveUp
  simp only [Nat.zero_add] at hdecided hgaveUp
  refine ⟨hends.increasing, hgaveUp, ?_, ?_⟩
  · intro i size lasterr hi hmemory hquery hother
    rcases hdecided i size hi with hinsufficient | ⟨hlast, hend⟩
    · exact absurd (Except.error.inj (hquery.symm.trans hinsufficient.2)) hother
    · refine ⟨hlast, ?_⟩
      cases hend with
      | outOfMemory hnone => rw [hmemory] at hnone; cases hnone
      | found path hfound => rw [hquery] at hfound; cases hfound
      | failed lasterr' hfailed _ hresult =>
        rw [hquery] at hfailed
        cases hfailed
        exact hresult
  · intro path hpath hanswers
    -- the last size is large enough, so some attempt ends the loop
    obtain ⟨i, size, hi, hstops⟩ : ∃ i size, r.tried[i]? = some size ∧
        ¬ Insufficient attempts i size := by
      by_contra hnone
      push Not at hnone
      obtain ⟨hlast, -⟩ := hgaveUp hnone
      rw [List.getLast?_eq_getElem?] at hlast
      have hquery := (hnone _ _ hlast).2
      rw [hanswers, if_pos (by omega)] at hquery
      cases hquery
    obtain ⟨hlast, hend⟩ := (hdecided i size hi).resolve_left hstops
    cases hend with
    | outOfMemory hnone hresult => exact Or.inr ⟨hresult, i, hlast, hnone⟩
    | found path' hfound hresult hfilepath =>
      rw [hanswers] at hfound
      split_ifs at hfound
      cases hfound
      exact Or.inl ⟨hresult, hfilepath⟩
    | failed lasterr hfailed hother =>
      rw [hanswers] at hfailed
      split_ifs at hfailed
      cases hfailed
      exact absurd rfl hother

end Loop

/-- A path of 300 units. -/
def longPath : Wide := List.replicate 300 97

/-- A system with memory where a process has that path. -/
def longPathAttempts : Attempts where
  allocates _ := true
  query _ size :=
    if longPath.length + 1 ≤ size then .ok longPath else .error errorInsufficientBuffer

/-- From a string without buffer the path is found in the second attempt. -/
theorem longPath_found :
    (getProcessImageNameFromHANDLE longPathAttempts 7 []).hresult = HResult.ok ∧
      (getProcessImageNameFromHANDLE longPathAttempts 7 []).filepath = longPath := by
  have hlength : longPath.length ≤ 32766 := by
    have hreplicate : longPath.length = 300 := List.length_replicate
    omega
  have hanswers : AnswersWith longPathAttempts longPath := by
    intro attempt size
    simp only [longPathAttempts]
  have hfinds :=
    (getProcessImageNameFromHANDLE_finds longPathAttempts 7 []).2.2.2 longPath hlength hanswers
  refine hfinds.resolve_right ?_
  rintro ⟨-, i, -, hnone⟩
  cases hnone

end RoxyGlance.Win32
