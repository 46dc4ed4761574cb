import Mathlib.Tactic

/-!
# Error codes and exceptions

The application mixes three ways of failing: `HRESULT` codes, C++ exceptions, and assertions that
the release build turns into assumptions.  `Fault` collects the last two, so that a function that
may throw is a computation in `Except Fault`.  For a function declared `noexcept` an error of this
type is a call of `std::terminate` (or undefined behaviour, for `Fault.undefined`), and
*returning normally* means being of the form `.ok _`.
-/

namespace RoxyGlance

/-- Bytes, usually of UTF-8 text. -/
abbrev Bytes := List UInt8

/-- A `std::wstring`: UTF-16 code units. -/
abbrev Wide := List UInt16

/-- The bytes of an ASCII literal. -/
def ascii (s : String) : Bytes := s.toList.map fun c => c.toNat.toUInt8

/-- The code units of an ASCII literal. -/
def wide (s : String) : Wide := s.toList.map fun c => c.toNat.toUInt16

/-! ### `HRESULT` -/

/-- A Win32 `HRESULT`. -/
abbrev HResult := BitVec 32

namespace HResult

/-- `S_OK` -/
def ok : HResult := 0#32

/-- `E_FAIL` -/
def fail : HResult := 0x80004005#32

/-- `E_UNEXPECTED` -/
def unexpected : HResult := 0x8000FFFF#32

/-- `E_OUTOFMEMORY` -/
def outOfMemory : HResult := 0x8007000E#32

/-- `E_INVALIDARG` -/
def invalidArg : HResult := 0x80070057#32

/-- `FAILED(hr)`: the code is negative. -/
def failed (hr : HResult) : Bool := hr.msb

/-- `hresult_from_win32` -/
def ofWin32 (err : BitVec 32) : HResult :=
  if err.sle 0#32 then err else (err &&& 0xFFFF#32) ||| 0x80070000#32

/-- `kErrorFileNotFound` -/
def kErrorFileNotFound : HResult := ofWin32 2#32

/-- `kErrorAccessDenied` -/
def kErrorAccessDenied : HResult := ofWin32 5#32

/-- `kErrorNotEnoughMemory` -/
def kErrorNotEnoughMemory : HResult := ofWin32 8#32

/-- `kErrorSharingViolation` -/
def kErrorSharingViolation : HResult := ofWin32 32#32

/-- `kErrorAlreadyExists` -/
def kErrorAlreadyExists : HResult := ofWin32 183#32

/-- `kErrorNoUnicodeTranslation` -/
def kErrorNoUnicodeTranslation : HResult := ofWin32 1113#32

/-- `kErrorInvalidOperation` -/
def kErrorInvalidOperation : HResult := ofWin32 4317#32

/-- Every error code but `ERROR_SUCCESS` becomes a failure. -/
theorem failed_ofWin32 {err : BitVec 32} (h : err ≠ 0#32) : (ofWin32 err).failed = true := by
  rw [ofWin32, failed]
  split
  · rename_i hle
    rw [BitVec.msb_eq_toInt]
    have hne : err.toInt ≠ 0 := fun h0 => h (BitVec.eq_of_toInt_eq (by simpa using h0))
    rw [BitVec.sle_eq_decide, decide_eq_true_eq] at hle
    have hzero : (0#32).toInt = 0 := rfl
    exact decide_eq_true (by omega)
  · rw [BitVec.msb_or, show (0x80070000#32).msb = true by decide, Bool.or_true]

end HResult

/-! ### Exceptions -/

/-- Why a settings entry was rejected. -/
inductive ParseErrorReason
  | missingRequiredKey
  | expectedString
  | expectedNumber
  | expectedMap
  | expectedSequence
  | invalidString
  | invalidNumber
  | numberOutOfRange
  deriving DecidableEq, Repr

/-- The key a settings error is about. -/
inductive KeyId
  | none
  | rule
  | name
  | when
  | where
  | then
  | processImageName
  | windowClass
  | windowTitle
  | actionType
  | positionX
  | positionY
  | width
  | height
  | monitorId
  | monitorName
  deriving DecidableEq, Repr

/-- `ParseError`; `content` is the number that was out of range, as text. -/
structure ParseError where
  reason : ParseErrorReason
  keyId : KeyId
  content : Bytes := []
  deriving DecidableEq, Repr

/-- What can end a computation other than a return. -/
inductive Fault
  /-- A `ParseError`, which is not a `std::exception`. -/
  | parseError (err : ParseError)
  /-- A `winrt::hresult_error`. -/
  | hresultError (hr : HResult)
  /-- `std::bad_alloc` -/
  | badAlloc
  /-- Any other `std::exception`, such as those rapidyaml and boost throw. -/
  | exception
  /-- No exception, but an assertion the release build assumes was false. -/
  | undefined
  deriving DecidableEq, Repr

/-- `winrt::throw_hresult`: `E_OUTOFMEMORY` becomes `std::bad_alloc`. -/
def throwHResult (hr : HResult) : Fault :=
  if hr = HResult.outOfMemory then .badAlloc else .hresultError hr

/-- `winrt::to_hresult` inside a `catch (...)`.  It is `noexcept` and knows only
`hresult_error` and `std::exception`, so anything else still ends the program. -/
def Fault.toHResult : Fault → Except Fault HResult
  | .hresultError hr => .ok hr
  | .badAlloc => .ok HResult.outOfMemory
  | .exception => .ok HResult.fail
  | .parseError err => .error (.parseError err)
  | .undefined => .error .undefined

/-- The computation returned instead of throwing. -/
def ReturnsNormally {α : Type*} (x : Except Fault α) : Prop := ∃ a, x = .ok a

@[simp] theorem returnsNormally_ok {α : Type*} (a : α) :
    ReturnsNormally (Except.ok a : Except Fault α) := ⟨a, rfl⟩

@[simp] theorem not_returnsNormally_error {α : Type*} (f : Fault) :
    ¬ ReturnsNormally (Except.error f : Except Fault α) := by rintro ⟨a, h⟩; cases h

/-- A sequence of two computations returns with `c` when both return. -/
theorem bind_eq_ok {α β : Type} {x : Except Fault α} {f : α → Except Fault β} {c : β} :
    x >>= f = .ok c ↔ ∃ a, x = .ok a ∧ f a = .ok c := by
  cases x with
  | error e => simp [bind, Except.bind]
  | ok a => simp [bind, Except.bind]

theorem returnsNormally_bind {α β : Type} {x : Except Fault α} {f : α → Except Fault β} :
    ReturnsNormally (x >>= f) ↔ ∃ a, x = .ok a ∧ ReturnsNormally (f a) := by
  simp only [ReturnsNormally, bind_eq_ok]
  exact ⟨fun ⟨c, a, hx, hf⟩ => ⟨a, hx, c, hf⟩, fun ⟨a, hx, c, hf⟩ => ⟨c, a, hx, hf⟩⟩

/-- When the second computation's success does not depend on the first one's result, the two are
independent conditions. -/
theorem returnsNormally_bind_iff {α β : Type} {x : Except Fault α} {f : α → Except Fault β}
    {q : Prop} (h : ∀ a, x = .ok a → (ReturnsNormally (f a) ↔ q)) :
    ReturnsNormally (x >>= f) ↔ ReturnsNormally x ∧ q := by
  rw [returnsNormally_bind]
  constructor
  · rintro ⟨a, hx, hf⟩
    exact ⟨⟨a, hx⟩, (h a hx).1 hf⟩
  · rintro ⟨⟨a, hx⟩, hq⟩
    exact ⟨a, hx, (h a hx).2 hq⟩

/-- A second computation that always returns does not matter. -/
theorem returnsNormally_bind_of {α β : Type} {x : Except Fault α} {f : α → Except Fault β}
    (h : ∀ a, ReturnsNormally (f a)) : ReturnsNormally (x >>= f) ↔ ReturnsNormally x := by
  rw [returnsNormally_bind_iff (q := True) fun a _ => iff_true_intro (h a), and_true]

/-- The computation throws nothing but faults in `P`. -/
def ThrowsOnly {α : Type*} (P : Fault → Prop) (x : Except Fault α) : Prop :=
  ∀ fault, x = .error fault → P fault

section ThrowsOnly

variable {α β : Type} {P Q : Fault → Prop}

@[simp] theorem throwsOnly_ok (a : α) : ThrowsOnly P (Except.ok a) := fun _ h => by cases h

@[simp] theorem throwsOnly_error {fault : Fault} :
    ThrowsOnly P (Except.error fault : Except Fault α) ↔ P fault :=
  ⟨fun h => h fault rfl, fun h f hf => by cases hf; exact h⟩

theorem ThrowsOnly.bind {x : Except Fault α} {f : α → Except Fault β} (hx : ThrowsOnly P x)
    (hf : ∀ a, x = .ok a → ThrowsOnly P (f a)) : ThrowsOnly P (x >>= f) := by
  intro fault h
  cases x with
  | error e =>
    cases h
    exact hx fault rfl
  | ok a => exact hf a rfl fault h

theorem ThrowsOnly.mono {x : Except Fault α} (hPQ : ∀ fault, P fault → Q fault)
    (hx : ThrowsOnly P x) : ThrowsOnly Q x := fun fault h => hPQ fault (hx fault h)

end ThrowsOnly

end RoxyGlance
