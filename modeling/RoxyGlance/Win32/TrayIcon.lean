import Mathlib.Data.Finset.Basic
import RoxyGlance.Lib.Run
import RoxyGlance.Fault

/-!
# The icon in the notification area

A thread has at most one icon, which `that_` points to.  Adding it takes up to three calls to the
shell: `NIM_ADD`, `NIM_SETVERSION`, and `NIM_DELETE` when the second one fails.  The shell may drop
an icon at any time, and the icon is then added once more by a forced `attach`.

An object says by `hwnd_` whether its icon has been added.  A forced `attach` whose icon is added
and deleted again leaves `hwnd_` as it was (`bookkeeping_iff`).
-/

namespace RoxyGlance.Win32.TrayIcon

/-- A window handle; `nullptr` is 0. -/
abbrev Hwnd := ℕ

/-- The messages for `Shell_NotifyIconW`. -/
inductive Message
  /-- `NIM_ADD` -/
  | add
  /-- `NIM_SETVERSION` -/
  | setVersion
  /-- `NIM_DELETE` -/
  | delete
  deriving DecidableEq, Repr

/-- A call of `Shell_NotifyIconW`, for the icon `kTrayIconId` of a window. -/
structure Call (ι : Type) where
  object : ι
  message : Message
  hwnd : Hwnd
  rc : Bool
  deriving DecidableEq, Repr

/-- What the shell does at a call. -/
structure Answer where
  /-- The windows whose icons it has dropped since the call before. -/
  dropped : Finset Hwnd
  rc : Bool

/-- The objects of a thread, the calls they have made, the last one first, and the windows whose
icons are shown. -/
structure Thread (ι : Type) where
  /-- `hwnd_` -/
  hwnd : ι → Hwnd
  /-- `that_` -/
  that : Option ι
  calls : List (Call ι)
  shown : Finset Hwnd

namespace Thread

variable {ι : Type} [DecidableEq ι]

/-- The thread at first. -/
def init : Thread ι := { hwnd := fun _ => 0, that := none, calls := [], shown := ∅ }

/-- `Shell_NotifyIconW` -/
def notify (s : Thread ι) (self : ι) (message : Message) (hwnd : Hwnd) (answer : Answer) :
    Thread ι :=
  let shown := s.shown \ answer.dropped
  { s with
    calls := ⟨self, message, hwnd, answer.rc⟩ :: s.calls
    shown :=
      if !answer.rc then shown
      else match message with
        | .add => insert hwnd shown
        | .setVersion => shown
        | .delete => shown.erase hwnd }

/-- The object is attached to the window. -/
def hold (s : Thread ι) (self : ι) (hwnd : Hwnd) : Thread ι :=
  { s with hwnd := Function.update s.hwnd self hwnd, that := some self }

/-- The object is not attached any more. -/
def release (s : Thread ι) (self : ι) : Thread ι :=
  { s with hwnd := Function.update s.hwnd self 0, that := none }

/-- Of the successful calls of an object that add or delete an icon, the last one has added it. -/
def latestIsAdd (self : ι) : List (Call ι) → Bool
  | [] => false
  | c :: calls =>
    if c.object = self ∧ c.rc = true ∧ c.message ≠ .setVersion then decide (c.message = .add)
    else latestIsAdd self calls

/-- The object's own calls have left it with an icon. -/
def added (s : Thread ι) (self : ι) : Bool := latestIsAdd self s.calls

end Thread

variable {ι : Type} [DecidableEq ι]

/-- What the shell does at the calls of `attach`. -/
structure AttachAnswers where
  add : Answer
  setVersion : Answer
  delete : Answer

/-- The part of `attach` that calls the shell. -/
def addIcon (self : ι) (hwnd : Hwnd) (a : AttachAnswers) (s : Thread ι) : HResult × Thread ι :=
  let s := s.notify self .add hwnd a.add
  if !a.add.rc then (HResult.fail, s)
  else
    let s := s.notify self .setVersion hwnd a.setVersion
    if !a.setVersion.rc then
      let s := s.notify self .delete hwnd a.delete
      -- the icon is kept attached so that `detach` can retry
      if !a.delete.rc then (HResult.fail, s.hold self hwnd) else (HResult.fail, s)
    else (HResult.ok, s.hold self hwnd)

/-- `TrayIconBase::attach` -/
def attach (self : ι) (hwnd : Hwnd) (force : Bool) (a : AttachAnswers) (s : Thread ι) :
    HResult × Thread ι :=
  let attachedHwnd := s.hwnd self
  if attachedHwnd ≠ 0 ∧ attachedHwnd ≠ hwnd then (HResult.unexpected, s)
  else if force = false ∧ attachedHwnd ≠ 0 then (HResult.ok, s)
  else if s.that ≠ none ∧ s.that ≠ some self then (HResult.kErrorAlreadyExists, s)
  else addIcon self hwnd a s

/-- `TrayIcon::attach`, given `IconId` and `icon_handle_`. -/
def attachIcon (iconId iconHandle : ℕ) (self : ι) (hwnd : Hwnd) (force : Bool) (a : AttachAnswers)
    (s : Thread ι) : HResult × Thread ι :=
  if iconId ≠ 0 ∧ iconHandle = 0 then (HResult.unexpected, s) else attach self hwnd force a s

/-- `TrayIconBase::detach` -/
def detach (self : ι) (answer : Answer) (s : Thread ι) : HResult × Thread ι :=
  let attachedHwnd := s.hwnd self
  if attachedHwnd = 0 then (HResult.ok, s)
  else if s.that ≠ some self then (HResult.kErrorInvalidOperation, s)
  else
    let s := s.notify self .delete attachedHwnd answer
    if !answer.rc then (HResult.fail, s) else (HResult.ok, s.release self)

/-- What happens on the thread, or to its icons. -/
inductive Event (ι : Type)
  | attach (iconId iconHandle : ℕ) (self : ι) (hwnd : Hwnd) (force : Bool) (a : AttachAnswers)
  | detach (self : ι) (answer : Answer)
  /-- The shell drops icons. -/
  | drop (dropped : Finset Hwnd)

/-- One event. -/
def step (s : Thread ι) : Event ι → Thread ι
  | .attach iconId iconHandle self hwnd force a =>
    (attachIcon iconId iconHandle self hwnd force a s).2
  | .detach self answer => (detach self answer s).2
  | .drop dropped => { s with shown := s.shown \ dropped }

/-- The bookkeeping is right: the attached object is the one that has added an icon, it is the one
`that_` points to, and the icons that are shown are its own. -/
structure Sound (s : Thread ι) : Prop where
  added : ∀ i, s.hwnd i ≠ 0 ↔ s.added i = true
  that : ∀ i, s.hwnd i ≠ 0 ↔ s.that = some i
  shown : ∀ hwnd ∈ s.shown, ∃ i, s.that = some i ∧ s.hwnd i = hwnd

/-- At most one object is attached. -/
theorem Sound.unique {s : Thread ι} (hs : Sound s) {i j : ι} (hi : s.hwnd i ≠ 0)
    (hj : s.hwnd j ≠ 0) : i = j :=
  Option.some_inj.1 (((hs.that i).1 hi).symm.trans ((hs.that j).1 hj))

/-- Success is not reported for an icon that the object has deleted itself. -/
def Reliable (s : Thread ι) : Event ι → Prop
  | .attach iconId iconHandle self hwnd false a =>
    (attachIcon iconId iconHandle self hwnd false a s).1 = HResult.ok →
      (attachIcon iconId iconHandle self hwnd false a s).2.added self = true
  | _ => True

/-- The calls to the shell are reached. -/
def Reaches (iconId iconHandle : ℕ) (self : ι) (hwnd : Hwnd) (force : Bool) (s : Thread ι) : Prop :=
  ¬ (iconId ≠ 0 ∧ iconHandle = 0) ∧ (s.hwnd self = 0 ∨ (s.hwnd self = hwnd ∧ force = true)) ∧
    (s.that = none ∨ s.that = some self)

/-- An icon that is added is not deleted at once if the object is attached already, and not kept if
there is no window. -/
def KeepsBooks (s : Thread ι) : Event ι → Prop
  | .attach iconId iconHandle self hwnd force a =>
    Reaches iconId iconHandle self hwnd force s → a.add.rc = true →
      if a.setVersion.rc = false ∧ a.delete.rc = true then s.hwnd self = 0 else hwnd ≠ 0
  | _ => True

/-! ### What a call to the shell changes -/

section Notify

variable (s : Thread ι) (self : ι) (message : Message) (hwnd : Hwnd) (answer : Answer)

theorem added_notify (i : ι) : (s.notify self message hwnd answer).added i =
    if self = i ∧ answer.rc = true ∧ message ≠ .setVersion then decide (message = .add)
    else s.added i := rfl

/-- A call that fails, or is about the version, leaves the object with the icon it had. -/
theorem added_notify_of_idle {answer : Answer} {message : Message}
    (h : answer.rc = false ∨ message = .setVersion) (i : ι) :
    (s.notify self message hwnd answer).added i = s.added i := by
  rw [added_notify, if_neg]
  rintro ⟨-, hrc, hmessage⟩
  rcases h with h | h
  · rw [hrc] at h
    cases h
  · exact hmessage h

omit [DecidableEq ι]

@[simp] theorem hwnd_notify : (s.notify self message hwnd answer).hwnd = s.hwnd := rfl

@[simp] theorem that_notify : (s.notify self message hwnd answer).that = s.that := rfl

/-- No icon comes to light but the one that is added. -/
theorem shown_notify_subset : (s.notify self message hwnd answer).shown ⊆ insert hwnd s.shown := by
  have hsub : s.shown \ answer.dropped ⊆ s.shown := Finset.sdiff_subset
  unfold Thread.notify
  dsimp only
  split_ifs
  · exact hsub.trans (Finset.subset_insert _ _)
  · cases message with
    | add => exact Finset.insert_subset_insert _ hsub
    | setVersion => exact hsub.trans (Finset.subset_insert _ _)
    | delete => exact ((Finset.erase_subset _ _).trans hsub).trans (Finset.subset_insert _ _)

theorem shown_notify_subset_of_ne {answer : Answer} {message : Message}
    (h : answer.rc = false ∨ message ≠ .add) :
    (s.notify self message hwnd answer).shown ⊆ s.shown := by
  have hsub : s.shown \ answer.dropped ⊆ s.shown := Finset.sdiff_subset
  unfold Thread.notify
  dsimp only
  split_ifs with hrc
  · exact hsub
  · cases message with
    | add => simp_all
    | setVersion => exact hsub
    | delete => exact (Finset.erase_subset _ _).trans hsub

theorem not_mem_shown_of_delete {answer : Answer} (h : answer.rc = true) :
    hwnd ∉ (s.notify self .delete hwnd answer).shown := by
  unfold Thread.notify
  simp [h]

end Notify

/-! ### The invariant -/

section Sound

variable {s s' : Thread ι} {self : ι} {hwnd : Hwnd}

theorem hwnd_hold_self : (s.hold self hwnd).hwnd self = hwnd := by simp [Thread.hold]

theorem hwnd_hold_of_ne {i : ι} (h : i ≠ self) : (s.hold self hwnd).hwnd i = s.hwnd i := by
  simp [Thread.hold, h]

/-- Fewer icons may be shown. -/
theorem Sound.mono (hs : Sound s) (hhwnd : s'.hwnd = s.hwnd) (hthat : s'.that = s.that)
    (hadded : ∀ i, s'.added i = s.added i) (hshown : s'.shown ⊆ s.shown) : Sound s' where
  added i := by
    rw [hhwnd, hadded]
    exact hs.added i
  that i := by
    rw [hhwnd, hthat]
    exact hs.that i
  shown h hh := by
    rw [hhwnd, hthat]
    exact hs.shown h (hshown hh)

/-- When the shell is called, no other object is attached, and no icon of another window shown. -/
theorem Sound.alone (hs : Sound s) (hself : s.hwnd self = 0 ∨ s.hwnd self = hwnd)
    (hthat : s.that = none ∨ s.that = some self) :
    (∀ i, i ≠ self → s.hwnd i = 0) ∧ s.shown ⊆ {hwnd} := by
  have hothers : ∀ i, s.that = some i → i = self := by
    intro i hi
    rcases hthat with h | h
    · rw [hi] at h
      cases h
    · rw [hi] at h
      exact Option.some_inj.1 h
  refine ⟨fun i hi => ?_, fun h hh => ?_⟩
  · by_contra hhwnd
    exact hi (hothers i ((hs.that i).1 hhwnd))
  · obtain ⟨i, hi, hhwnd⟩ := hs.shown h hh
    cases hothers i hi
    rw [Finset.mem_singleton, ← hhwnd]
    exact hself.resolve_left ((hs.that self).2 hi)

/-- An icon that has been added is taken over rightly unless there is no window. -/
theorem sound_hold_iff (hothers : ∀ i, i ≠ self → s.hwnd i = 0 ∧ s.added i = false)
    (hadded : s.added self = true) (hshown : s.shown ⊆ {hwnd}) :
    Sound (s.hold self hwnd) ↔ hwnd ≠ 0 := by
  constructor
  · intro hs
    have hhwnd : (s.hold self hwnd).hwnd self = hwnd := hwnd_hold_self
    rw [← hhwnd]
    exact (hs.added self).2 hadded
  · intro hhwnd
    have hother : ∀ i, i ≠ self → (s.hold self hwnd).hwnd i = 0 := fun i hi =>
      (hwnd_hold_of_ne hi).trans (hothers i hi).1
    refine ⟨fun i => ?_, fun i => ?_, fun h hh => ⟨self, rfl, ?_⟩⟩
    · by_cases hi : i = self
      · subst hi
        rw [hwnd_hold_self]
        exact iff_of_true hhwnd hadded
      · have hnot : (s.hold self hwnd).added i = false := (hothers i hi).2
        rw [hother i hi, hnot]
        exact iff_of_false (fun h => h rfl) Bool.false_ne_true
    · by_cases hi : i = self
      · subst hi
        rw [hwnd_hold_self]
        exact iff_of_true hhwnd rfl
      · rw [hother i hi]
        exact iff_of_false (fun h => h rfl) fun h => hi (Option.some_inj.1 h).symm
    · rw [hwnd_hold_self]
      exact (Finset.mem_singleton.1 (hshown hh)).symm

/-- One thread comes from another by adding an icon. -/
structure IconAdded (s s' : Thread ι) (owner : ι) (hwnd : Hwnd) : Prop where
  added : ∀ i, s'.added i = if owner = i then true else s.added i
  shown : s'.shown ⊆ insert hwnd s.shown
  that : s'.that = s.that
  hwnd : s'.hwnd = s.hwnd

theorem iconAdded_notify (s : Thread ι) (self : ι) (hwnd : Hwnd) {answer : Answer}
    (h : answer.rc = true) : IconAdded s (s.notify self .add hwnd answer) self hwnd where
  hwnd := rfl
  that := rfl
  added i := by
    rw [added_notify]
    simp [h]
  shown := shown_notify_subset s self .add hwnd answer

/-- A later call leaves it added, unless it deletes it. -/
theorem IconAdded.notify (h : IconAdded s s' self hwnd) {message : Message} {answer : Answer}
    (hidle : answer.rc = false ∨ message = .setVersion) (hmessage : message ≠ .add) :
    IconAdded s (s'.notify self message hwnd answer) self hwnd where
  hwnd := h.hwnd
  that := h.that
  added i := by rw [added_notify_of_idle _ _ _ hidle, h.added]
  shown := (shown_notify_subset_of_ne _ _ _ (.inr hmessage)).trans h.shown

/-- Being attached to the window of the added icon is right if there is one. -/
theorem IconAdded.hold_iff (h : IconAdded s s' self hwnd) (hs : Sound s)
    (hself : s.hwnd self = 0 ∨ s.hwnd self = hwnd) (hthat : s.that = none ∨ s.that = some self) :
    Sound (s'.hold self hwnd) ↔ hwnd ≠ 0 := by
  obtain ⟨hdetached, hsub⟩ := hs.alone hself hthat
  refine sound_hold_iff (fun i hi => ⟨?_, ?_⟩) ?_
    (h.shown.trans (Finset.insert_subset (Finset.mem_singleton_self hwnd) hsub))
  · rw [h.hwnd]
    exact hdetached i hi
  · rw [h.added, if_neg hi.symm]
    exact Bool.eq_false_of_not_eq_true fun h => (hs.added i).2 h (hdetached i hi)
  · rw [h.added, if_pos rfl]

/-- Deleting it again is right unless the object was attached before. -/
theorem IconAdded.delete_iff (h : IconAdded s s' self hwnd) (hs : Sound s) {answer : Answer}
    (hrc : answer.rc = true) :
    Sound (s'.notify self .delete hwnd answer) ↔ s.hwnd self = 0 := by
  have hdeleted : (s'.notify self .delete hwnd answer).added self = false := by
    rw [added_notify, if_pos ⟨rfl, hrc, by simp⟩]
    rfl
  constructor
  · intro hs'
    by_contra hattached
    have hstill := (hs'.added self).1 (h.hwnd ▸ hattached)
    rw [hdeleted] at hstill
    cases hstill
  · intro hdetached
    refine hs.mono h.hwnd h.that (fun i => ?_) fun hwnd' hmem => ?_
    · by_cases hi : i = self
      · subst hi
        have hnot : ¬ s.added i = true := fun h => (hs.added i).2 h hdetached
        rw [hdeleted, Bool.eq_false_of_not_eq_true hnot]
      · rw [added_notify, if_neg fun h => hi h.1.symm, h.added, if_neg (Ne.symm hi)]
    · have hne : hwnd' ≠ hwnd := fun heq =>
        not_mem_shown_of_delete s' self hwnd hrc (heq ▸ hmem)
      have hbefore := shown_notify_subset_of_ne s' self hwnd (.inr (by simp)) hmem
      exact Finset.mem_of_mem_insert_of_ne (h.shown hbefore) hne

end Sound

/-! ### The calls -/

section Calls

variable {s : Thread ι} {self : ι} {hwnd : Hwnd} {a : AttachAnswers}

/-- Success means that the icon has been added, and not deleted. -/
theorem added_of_addIcon_ok (h : (addIcon self hwnd a s).1 = HResult.ok) :
    (addIcon self hwnd a s).2.added self = true := by
  unfold addIcon at h ⊢
  dsimp only at h ⊢
  have hfail : HResult.fail ≠ HResult.ok := by decide
  split_ifs at h ⊢ with hadd hversion hdelete
  · exact absurd h hfail
  · exact absurd h hfail
  · exact absurd h hfail
  · show ((s.notify self .add hwnd a.add).notify self .setVersion hwnd a.setVersion).added self = true
    rw [added_notify_of_idle _ _ _ (.inr rfl), added_notify, if_pos ⟨rfl, by simpa using hadd, by simp⟩]
    rfl

/-- **What adding an icon does to the bookkeeping.** -/
theorem sound_addIcon_iff (hs : Sound s) (hself : s.hwnd self = 0 ∨ s.hwnd self = hwnd)
    (hthat : s.that = none ∨ s.that = some self) :
    Sound (addIcon self hwnd a s).2 ↔ (a.add.rc = true →
      if a.setVersion.rc = false ∧ a.delete.rc = true then s.hwnd self = 0 else hwnd ≠ 0) := by
  cases hadd : a.add.rc with
  | false =>
    have hrun : (addIcon self hwnd a s).2 = s.notify self .add hwnd a.add := by simp [addIcon, hadd]
    rw [hrun]
    exact iff_of_true (hs.mono rfl rfl (added_notify_of_idle s self hwnd (.inl hadd))
      (shown_notify_subset_of_ne s self hwnd (.inl hadd))) fun h => by cases h
  | true =>
    rw [imp_iff_right rfl]
    have hadded : IconAdded s ((s.notify self .add hwnd a.add).notify self .setVersion hwnd
        a.setVersion) self hwnd :=
      (iconAdded_notify s self hwnd hadd).notify (.inr rfl) (by simp)
    cases hversion : a.setVersion.rc with
    | true =>
      rw [if_neg fun h => Bool.noConfusion h.1]
      simpa [addIcon, hadd, hversion] using hadded.hold_iff hs hself hthat
    | false =>
      cases hdelete : a.delete.rc with
      | false =>
        have hkept := hadded.notify (.inl hdelete) (show Message.delete ≠ .add by simp)
        rw [if_neg fun h => Bool.noConfusion h.2]
        simpa [addIcon, hadd, hversion, hdelete] using hkept.hold_iff hs hself hthat
      | true =>
        rw [if_pos ⟨rfl, rfl⟩]
        simpa [addIcon, hadd, hversion, hdelete] using hadded.delete_iff hs hdelete

theorem attachIcon_of_reaches {iconId iconHandle : ℕ} {force : Bool}
    (h : Reaches iconId iconHandle self hwnd force s) :
    attachIcon iconId iconHandle self hwnd force a s = addIcon self hwnd a s := by
  obtain ⟨hicon, hself, hthat⟩ := h
  rw [attachIcon, if_neg hicon, attach, if_neg, if_neg, if_neg]
  · exact fun h => hthat.elim h.1 h.2
  · rintro ⟨hforce, hattached⟩
    have hagain := (hself.resolve_left hattached).2
    rw [hforce] at hagain
    cases hagain
  · rintro ⟨hattached, hother⟩
    exact hother (hself.resolve_left hattached).1

/-- Without a call to the shell, success means that the object is attached. -/
theorem attachIcon_of_not_reaches {iconId iconHandle : ℕ} {force : Bool}
    (h : ¬ Reaches iconId iconHandle self hwnd force s) :
    (attachIcon iconId iconHandle self hwnd force a s).2 = s ∧
      ((attachIcon iconId iconHandle self hwnd force a s).1 = HResult.ok → s.hwnd self ≠ 0) := by
  have hunexpected : HResult.unexpected ≠ HResult.ok := by decide
  have hexists : HResult.kErrorAlreadyExists ≠ HResult.ok := by decide
  unfold attachIcon attach
  dsimp only
  split_ifs with hicon hmismatch hattached hother
  · exact ⟨rfl, fun h => absurd h hunexpected⟩
  · exact ⟨rfl, fun h => absurd h hunexpected⟩
  · exact ⟨rfl, fun _ => hattached.2⟩
  · exact ⟨rfl, fun h => absurd h hexists⟩
  · refine absurd ⟨hicon, ?_, ?_⟩ h
    · by_cases hzero : s.hwnd self = 0
      · exact .inl hzero
      · have hsame : s.hwnd self = hwnd := by
          by_contra hne
          exact hmismatch ⟨hzero, hne⟩
        refine .inr ⟨hsame, ?_⟩
        by_contra hforce
        exact hattached ⟨Bool.eq_false_of_not_eq_true hforce, hzero⟩
    · by_contra hthat
      rw [not_or] at hthat
      exact hother hthat

/-- Deleting the icon keeps the books, whatever the shell answers. -/
theorem sound_detach (hs : Sound s) (answer : Answer) : Sound (detach self answer s).2 := by
  unfold detach
  dsimp only
  split_ifs with hdetached hother hrc
  · exact hs
  · exact hs
  · have hfailed : answer.rc = false := by simpa using hrc
    exact hs.mono rfl rfl (added_notify_of_idle s self _ (.inl hfailed))
      (shown_notify_subset_of_ne s self _ (.inl hfailed))
  · have hrc : answer.rc = true := by simpa using hrc
    have hthat := (hs.that self).1 hdetached
    have hself : s.hwnd self = 0 ∨ s.hwnd self = s.hwnd self := .inr rfl
    obtain ⟨hdetachedOthers, hshown⟩ := hs.alone hself (.inr hthat)
    have hzero : ∀ i, ((s.notify self .delete (s.hwnd self) answer).release self).hwnd i = 0 := by
      intro i
      by_cases hi : i = self
      · simp [Thread.release, hi]
      · simp [Thread.release, hi, hdetachedOthers i hi]
    refine ⟨fun i => iff_of_false (fun h => h (hzero i)) ?_,
      fun i => iff_of_false (fun h => h (hzero i)) (by rintro ⟨⟩), fun h hh => ?_⟩
    · show ¬ (s.notify self .delete (s.hwnd self) answer).added i = true
      rw [added_notify]
      split_ifs with hi
      · exact Bool.false_ne_true
      · have hne : i ≠ self := fun h => hi ⟨h.symm, hrc, by simp⟩
        exact fun h => (hs.added i).2 h (hdetachedOthers i hne)
    · have hh : h ∈ (s.notify self .delete (s.hwnd self) answer).shown := hh
      have hmem := hshown (shown_notify_subset_of_ne s self _ (.inr (by simp)) hh)
      rw [Finset.mem_singleton] at hmem
      exact absurd (hmem ▸ hh) (not_mem_shown_of_delete s self _ hrc)

end Calls

/-! ### Runs -/

theorem sound_init : Sound (Thread.init : Thread ι) where
  added i := iff_of_false (fun h => h rfl) Bool.false_ne_true
  that i := iff_of_false (fun h => h rfl) fun h => by cases h
  shown h hh := absurd hh (Finset.notMem_empty h)

/-- **One event** keeps the books, and reports success rightly, exactly if the guard holds. -/
theorem sound_step_iff {s : Thread ι} (hs : Sound s) (e : Event ι) :
    (Sound (step s e) ∧ Reliable s e) ↔ KeepsBooks s e := by
  cases e with
  | attach iconId iconHandle self hwnd force a =>
    by_cases hreaches : Reaches iconId iconHandle self hwnd force s
    · have hrun := attachIcon_of_reaches (a := a) hreaches
      have hreliable : Reliable s (.attach iconId iconHandle self hwnd force a) := by
        cases force with
        | true => trivial
        | false =>
          show _ = HResult.ok → _
          rw [hrun]
          exact added_of_addIcon_ok
      rw [and_iff_left hreliable]
      show Sound (attachIcon iconId iconHandle self hwnd force a s).2 ↔ _
      rw [hrun, sound_addIcon_iff hs (hreaches.2.1.imp_right And.left) hreaches.2.2]
      exact (imp_iff_right hreaches).symm
    · obtain ⟨hsame, hok⟩ := attachIcon_of_not_reaches (a := a) hreaches
      refine iff_of_true ⟨?_, ?_⟩ fun h => absurd h hreaches
      · show Sound (attachIcon iconId iconHandle self hwnd force a s).2
        rw [hsame]
        exact hs
      · cases force with
        | true => trivial
        | false =>
          intro hsuccess
          rw [hsame]
          exact (hs.added self).1 (hok hsuccess)
  | detach self answer => exact iff_of_true ⟨sound_detach hs answer, trivial⟩ trivial
  | drop dropped =>
    exact iff_of_true ⟨hs.mono rfl rfl (fun _ => rfl) Finset.sdiff_subset, trivial⟩ trivial

/-- **The books are kept exactly when** no forced `attach` deletes the icon again that it has added,
and none without a window keeps one. -/
theorem bookkeeping_iff (es : List (Event ι)) :
    Run.AllSteps step (fun s e => Sound (step s e) ∧ Reliable s e) (Thread.init : Thread ι) es ↔
      Run.AllSteps step KeepsBooks (Thread.init : Thread ι) es :=
  Run.allSteps_iff_of_invariant (P := Sound) (fun _ e hs hguard => ((sound_step_iff hs e).2 hguard).1)
    (fun _ e hs => sound_step_iff hs e) sound_init es

/-- The shell does what it is asked to. -/
def obeys : Answer := ⟨∅, true⟩

/-- After a restart of the shell the icon is added once more, but the version cannot be set and it is
deleted again: `hwnd_` stays, and the next `attach` reports an icon that is not there. -/
theorem forcedAttach_losesIcon :
    let refusesVersion : AttachAnswers := ⟨obeys, ⟨∅, false⟩, obeys⟩
    ¬ Run.AllSteps step (fun s e => Sound (step s e) ∧ Reliable s e) (Thread.init : Thread ℕ)
      [.attach 0 0 7 42 false ⟨obeys, obeys, obeys⟩, .drop {42}, .attach 0 0 7 42 true refusesVersion,
        .attach 0 0 7 42 false refusesVersion] := by
  rintro refusesVersion ⟨-, -, ⟨hsound, -⟩, -⟩
  have hattached := (hsound.added 7).1 (by decide)
  cases hattached

end RoxyGlance.Win32.TrayIcon
