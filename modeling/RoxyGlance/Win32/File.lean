import RoxyGlance.Fault

/-!
# Replacing a file

`WriteFileAtomic` writes a temporary file next to the destination and renames it.  Its promise is
all or nothing: `S_OK` with the whole content in place, or a failure with the destination as it
was.  Two things about the write are not looked at, the narrowing of the size to 32 bits and the
number of bytes that `WriteFile` reports; `writeFileAtomic_allOrNothing_iff` says exactly when the
promise is kept.
-/

namespace RoxyGlance.Win32

/-- The destination and the temporary file; `none` is a file that does not exist. -/
structure Files where
  destination : Option Bytes
  temporary : Option Bytes
  deriving DecidableEq, Repr

/-- What the operator that appends `.tmp` to a path throws. -/
inductive PathFailure
  | badAlloc
  | other
  deriving DecidableEq, Repr

/-- The outcome of each call in one `WriteFileAtomic`: the last error of a call that failed, or
`none`. -/
structure WriteAnswers where
  tempPath : Option PathFailure := none
  create : Option (BitVec 32) := none
  write : Option (BitVec 32) := none
  /-- The bytes that `WriteFile` has written when it returns. -/
  bytesWritten : ℕ
  flush : Option (BitVec 32) := none
  close : Option (BitVec 32) := none
  move : Option (BitVec 32) := none
  /-- `DeleteFileW` succeeds. -/
  deleted : Bool := true

/-- `static_cast<DWORD>(content.size())` -/
def requestedBytes (content : Bytes) : ℕ := content.length % 2 ^ 32

/-- What `WriteFile` puts into a new file: a prefix of the bytes requested. -/
def writtenBytes (content : Bytes) (bytesWritten : ℕ) : Bytes :=
  (content.take (requestedBytes content)).take bytesWritten

/-- `DeleteFileW` on the temporary file. -/
def Files.deleteTemporary (deleted : Bool) (files : Files) : Files :=
  if deleted then { files with temporary := none } else files

/-- `WriteFileAtomic` in the release build. -/
def writeFileAtomic (content : Bytes) (a : WriteAnswers) (files : Files) : HResult × Files :=
  match a.tempPath with
  | some .badAlloc => (HResult.outOfMemory, files)
  | some .other => (HResult.fail, files)
  | none =>
    match a.create with
    | some err => (HResult.ofWin32 err, files)
    | none =>
      let files := { files with temporary := some (writtenBytes content a.bytesWritten) }
      -- the file is flushed only after a write that succeeded
      match a.write.or a.flush with
      | some err => (HResult.ofWin32 err, files.deleteTemporary a.deleted)
      | none =>
        match a.close with
        | some err => (HResult.ofWin32 err, files)
        | none =>
          match a.move with
          | some err => (HResult.ofWin32 err, files.deleteTemporary a.deleted)
          | none => (HResult.ok, { destination := files.temporary, temporary := none })

/-- The last error of the first call that failed. -/
def WriteAnswers.failure (a : WriteAnswers) : Option (BitVec 32) :=
  a.create.or (a.write.or (a.flush.or (a.close.or a.move)))

/-- All or nothing: the content is in place, or the destination is as it was. -/
def AllOrNothing (content : Bytes) (files : Files) (r : HResult × Files) : Prop :=
  (r.1 = HResult.ok → r.2.destination = some content) ∧
    (r.1.failed = true → r.2.destination = files.destination)

@[simp] theorem Files.deleteTemporary_destination (deleted : Bool) (files : Files) :
    (files.deleteTemporary deleted).destination = files.destination := by
  cases deleted <;> rfl

/-- When no call fails, what was written becomes the destination. -/
theorem writeFileAtomic_of_no_failure {a : WriteAnswers} (hpath : a.tempPath = none)
    (h : a.failure = none) (content : Bytes) (files : Files) :
    writeFileAtomic content a files =
      (HResult.ok, ⟨some (writtenBytes content a.bytesWritten), none⟩) := by
  simp only [WriteAnswers.failure, Option.or_eq_none_iff] at h
  obtain ⟨hcreate, hwrite, hflush, hclose, hmove⟩ := h
  simp only [writeFileAtomic, hpath, hcreate, hwrite, hflush, Option.or_none, hclose, hmove]

/-- When a call fails, its error is returned and the destination is as it was. -/
theorem writeFileAtomic_of_failure {a : WriteAnswers} {err : BitVec 32} (hpath : a.tempPath = none)
    (h : a.failure = some err) (content : Bytes) (files : Files) :
    (writeFileAtomic content a files).1 = HResult.ofWin32 err ∧
      (writeFileAtomic content a files).2.destination = files.destination := by
  simp only [writeFileAtomic, hpath]
  unfold WriteAnswers.failure at h
  cases hcreate : a.create with
  | some e =>
    obtain rfl : e = err := by simpa [hcreate] using h
    exact ⟨rfl, rfl⟩
  | none =>
    rw [hcreate, Option.none_or, ← Option.or_assoc] at h
    cases hwrite : a.write.or a.flush with
    | some e =>
      obtain rfl : e = err := by simpa [hwrite] using h
      exact ⟨rfl, Files.deleteTemporary_destination _ _⟩
    | none =>
      rw [hwrite, Option.none_or] at h
      cases hclose : a.close with
      | some e =>
        obtain rfl : e = err := by simpa [hclose] using h
        exact ⟨rfl, rfl⟩
      | none =>
        rw [hclose, Option.none_or] at h
        simp only [h]
        exact ⟨trivial, Files.deleteTemporary_destination _ _⟩

/-- The whole content is written when its size fits and all of it is reported. -/
theorem writtenBytes_eq_iff (content : Bytes) (n : ℕ) :
    writtenBytes content n = content ↔ content.length < 2 ^ 32 ∧ content.length ≤ n := by
  rw [writtenBytes, List.take_take, List.take_eq_self_iff, requestedBytes, le_min_iff, and_comm]
  refine and_congr_left fun _ => ?_
  constructor
  · intro hle
    have hlt : content.length % 2 ^ 32 < 2 ^ 32 := Nat.mod_lt _ (by omega)
    omega
  · intro hlt
    rw [Nat.mod_eq_of_lt hlt]

/-- **All or nothing**, for every content and every outcome of the calls, exactly if: where no call
fails, the size of the content fits into 32 bits and all its bytes were reported as written; where
one fails, it has set an error code, or the destination held the content before. -/
theorem writeFileAtomic_allOrNothing_iff (content : Bytes) (a : WriteAnswers) (files : Files) :
    AllOrNothing content files (writeFileAtomic content a files) ↔
      (a.tempPath = none →
        (a.failure = none → content.length < 2 ^ 32 ∧ content.length ≤ a.bytesWritten) ∧
        (a.failure = some 0#32 → files.destination = some content)) := by
  cases hpath : a.tempPath with
  | some failure =>
    refine iff_of_true ?_ fun h => by cases h
    have hmemory : HResult.outOfMemory.failed = true := by decide
    have hfail : HResult.fail.failed = true := by decide
    have hfailed : (writeFileAtomic content a files).1.failed = true ∧
        (writeFileAtomic content a files).2 = files := by
      unfold writeFileAtomic
      rw [hpath]
      cases failure with
      | badAlloc => exact ⟨hmemory, rfl⟩
      | other => exact ⟨hfail, rfl⟩
    refine ⟨fun hok => ?_, fun _ => by rw [hfailed.2]⟩
    rw [hok] at hfailed
    exact absurd hfailed.1 (by decide)
  | none =>
    rw [forall_prop_of_true rfl]
    cases hfailure : a.failure with
    | none =>
      rw [writeFileAtomic_of_no_failure hpath hfailure]
      simp only [AllOrNothing, Option.some.injEq, writtenBytes_eq_iff,
        show HResult.ok.failed = false by decide, Bool.false_eq_true, false_imp_iff, true_imp_iff,
        and_true, reduceCtorEq]
    | some err =>
      -- a failure counts as one only through its error code, so code zero looks like success
      obtain ⟨hhr, hdestination⟩ := writeFileAtomic_of_failure hpath hfailure content files
      simp only [AllOrNothing, hhr, hdestination, Option.some.injEq, reduceCtorEq, false_imp_iff,
        true_and, implies_true, and_true]
      refine imp_congr_left ?_
      constructor
      · intro hok
        by_contra hne
        have hfailed := HResult.failed_ofWin32 hne
        rw [hok] at hfailed
        exact absurd hfailed (by decide)
      · rintro rfl
        decide

/-- `WriteFile` reports one of two bytes, and the file ends up with one byte and `S_OK`. -/
theorem shortWrite_not_allOrNothing :
    ¬ AllOrNothing (ascii "ab") ⟨some (ascii "old"), none⟩
      (writeFileAtomic (ascii "ab") { bytesWritten := 1 } ⟨some (ascii "old"), none⟩) := by
  intro h
  exact absurd (h.1 (by decide)) (by decide)

end RoxyGlance.Win32
