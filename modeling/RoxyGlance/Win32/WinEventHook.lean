import RoxyGlance.Lib.Run
import RoxyGlance.Win32.MessageLoopThread

/-!
# Several callers of one `WinEventHookController`

`start` holds the mutex while it launches the worker, lets go of it to wait for the worker's
report, and takes it again in `reapThreadAfterStartFailure` when the report is a failure.  Between
the two sections any other caller may run a section of its own: a `stop`, which is allowed as soon
as a thread has been launched, and after it another `start`.

* `System`: the controller, and the `start` calls under way;
* `Event`: which caller moves, and what the system answers;
* `Sound`: what the ledger must look like for the handles to be owned properly;
* `handles_owned_iff`: it does, exactly in the runs in which no `stop` reaches a thread between
  its launch and its reap after a failed start.
-/

namespace RoxyGlance.Win32.WinEventHook

/-- The controller with its callers.  The target of a stop message is a thread id. -/
structure System where
  world : World ThreadId := { controller := { stopFailurePolicy := .failFast } }
  /-- `fastfail` has not been called. -/
  alive : Bool := true
  /-- `start` calls that wait for the worker's report, by their handle. -/
  starting : List Handle := []
  /-- `start` calls that are about to reap a worker that failed. -/
  failed : List Handle := []
  /-- The handles on which a `stop` has got past its checks. -/
  stopped : List Handle := []

/-- A caller moves. -/
inductive Event
  /-- Someone calls `start`; the section up to the launch. -/
  | start (launch : Except LaunchError ThreadId)
  /-- The `start` call of this handle receives the worker's report.  After a success it makes
  a retry factory, for which there may be no memory. -/
  | report (hthread : Handle) (hr : HResult) (allocated : Bool)
  /-- The `start` call of this handle runs `reapThreadAfterStartFailure`. -/
  | reap (hthread : Handle) (a : StartFailureAnswers)
  /-- The thread `caller` calls `stop`. -/
  | stop (caller : ThreadId) (a : StopAnswers)

/-- A section has run. -/
def System.after (s : System) (r : Outcome × World ThreadId) : System :=
  { s with world := r.2, alive := decide (r.1 ≠ .fastfail) }

/-- `WinEventHookController::start`, first section: the call goes on with the new handle. -/
def onStart (launch : Except LaunchError ThreadId) (s : System) : System :=
  match start launch s.world with
  | (hr, info, w) =>
    if hr.failed then { s with world := w }
    else match info with
      | none => { s with world := w }
      | some info => { s with world := w, starting := info.hthread :: s.starting }

/-- `WinEventHookController::start` after `wait_and_load`; a retry factory for five attempts
replaces the one there is. -/
def onReport (hthread : Handle) (hr : HResult) (allocated : Bool) (s : System) : System :=
  if hr ≠ HResult.ok then
    { s with starting := s.starting.erase hthread, failed := hthread :: s.failed }
  else if !allocated then { s with alive := false }
  else
    { s with
      starting := s.starting.erase hthread
      world := s.world.setController { s.world.controller with maxAttempts := 5 } }

/-- `WinEventHookController::stop` -/
def stop (caller : ThreadId) (a : StopAnswers) (w : World ThreadId) : Outcome × World ThreadId :=
  if w.controller.state = .ready then (.returned HResult.kErrorInvalidOperation, w)
  else
    let hr := validateThreadAccess caller w.controller.data
    if hr.failed then (.returned hr, w)
    else match w.controller.data with
      | none => (.returned hr, w)
      | some info =>
        stopThread info.hthread info.threadId a w.stopping

/-- One event.  A caller that is not where the event needs it does not move. -/
def step (s : System) (e : Event) : System :=
  if !s.alive then s
  else match e with
    | .start launch => onStart launch s
    | .report hthread hr allocated =>
      if hthread ∈ s.starting then onReport hthread hr allocated s else s
    | .reap hthread a =>
      if hthread ∈ s.failed then
        { s with failed := s.failed.erase hthread }.after
          (reapThreadAfterStartFailure hthread a s.world)
      else s
    | .stop caller a =>
      { s with
        stopped := ((stopTarget caller s.world.controller).map ThreadInfo.hthread).toList ++
          s.stopped }.after (stop caller a s.world)

/-- What a use requires of the moment it happens: a wait is for a handle that is owned, and
`reapThreadAfterStartFailure` is entered while its thread runs and is the recorded one. -/
def Permitted (held : Handle → Prop) : Use ThreadId → Prop
  | .wait hthread => held hthread
  | .post _ => True
  | .reapAfterStartFailure hthread state data =>
    state = .running ∧ data.map ThreadInfo.hthread = some hthread

/-- Handles are waited on and closed only while owned, and closed at most once;
`reapThreadAfterStartFailure` is entered as its assertion says. -/
def Sound (s : System) : Prop :=
  Ledger.Legal Permitted s.world.log ∧ ∀ hthread, s.world.log.count (.release hthread) ≤ 1

/-- No `stop` has got past its checks on a handle by the time a failed `start` reaps it. -/
def Undisturbed (s : System) : Event → Prop
  | .reap hthread _ => s.alive = true → hthread ∈ s.failed → hthread ∉ s.stopped
  | _ => True

/-! ### The sections, seen from outside -/

theorem stop_of_stopTarget_none {caller : ThreadId} {w : World ThreadId}
    (h : stopTarget caller w.controller = none) (a : StopAnswers) : (stop caller a w).2 = w := by
  rw [stop]
  rcases stopTarget_eq_none h with hstate | hvalid
  · rw [if_pos hstate]
  · split
    · rfl
    · simp only [hvalid, if_true]

theorem stop_of_stopTarget {caller : ThreadId} {w : World ThreadId} {info : ThreadInfo}
    (h : stopTarget caller w.controller = some info) (a : StopAnswers) :
    stop caller a w = stopThread info.hthread info.threadId a w.stopping := by
  obtain ⟨hstate, hdata, hvalid⟩ := stopTarget_eq_some h
  rw [hdata] at hvalid
  simp only [stop, hstate, if_false, hdata, hvalid, Bool.false_eq_true]

/-- A `stop` past its checks leaves the controller stopping, or reaps the thread it got to. -/
theorem stop_cases {caller : ThreadId} {w : World ThreadId} {info : ThreadInfo}
    (h : stopTarget caller w.controller = some info) (a : StopAnswers) :
    ∃ us : List (Use ThreadId), (∀ u ∈ us, u = .wait info.hthread ∨ u = .post info.threadId) ∧
      ((stop caller a w).2 = w.stopping.note us ∨
        (stop caller a w).2 = (w.stopping.note us).reaped info.hthread) := by
  rw [stop_of_stopTarget h a]
  by_cases hreaps : a.Reaps w.controller.maxAttempts
  · obtain ⟨us, hus, -, hw⟩ :=
      stopThread_of_reaps (w := w.stopping) hreaps info.hthread info.threadId
    exact ⟨us, hus, .inr (by rw [hw])⟩
  · obtain ⟨us, hus, hw⟩ :=
      stopThread_of_not_reaps (w := w.stopping) hreaps info.hthread info.threadId
    exact ⟨us, hus, .inl hw⟩

/-! ### The invariant -/

/-- The `start` calls under way are for different launches; one that no `stop` has disturbed is
for the thread that runs, and a disturbed one is for another. -/
structure Inv (s : System) : Prop where
  controlled : Controlled Permitted s.world
  nodup : (s.starting ++ s.failed).Nodup
  launched : ∀ h, h ∈ s.starting ∨ h ∈ s.failed ∨ h ∈ s.stopped → h < s.world.launches
  current : ∀ h, h ∈ s.starting ∨ h ∈ s.failed → h ∉ s.stopped →
    s.world.controller.state = .running ∧
      s.world.controller.data.map ThreadInfo.hthread = some h
  disturbed : ∀ h ∈ s.stopped, s.world.controller.state = .running →
    s.world.controller.data.map ThreadInfo.hthread ≠ some h

theorem inv_init : Inv {} where
  controlled := ⟨trivial, by simp, by simp, by simp⟩
  nodup := by simp
  launched := by simp
  current := by simp
  disturbed := by simp

theorem Inv.sound {s : System} (h : Inv s) : Sound s :=
  ⟨h.controlled.legal, h.controlled.legal.count_release_le_one⟩

/-- While no thread runs, every `start` call under way has been disturbed. -/
theorem Inv.of_not_running {s : System} (hs : Inv s) (hrunning : s.world.controller.state ≠ .running)
    {h : Handle} (hmem : h ∈ s.starting ∨ h ∈ s.failed) : h ∈ s.stopped := by
  by_contra hstopped
  exact hrunning (hs.current h hmem hstopped).1

theorem inv_start {s : System} (hs : Inv s) (launch : Except LaunchError ThreadId) :
    Inv (onStart launch s) := by
  rcases start_cases launch s.world with ⟨hfail, hsame⟩ | ⟨threadId, hready, -, hlaunched⟩
  · have heq : onStart launch s = s := by
      simp only [onStart, hfail, hsame, if_true]
    rw [heq]
    exact hs
  · have heq : onStart launch s =
        { s with
          world := s.world.launched threadId, starting := s.world.launches :: s.starting } := by
      simp only [onStart, hlaunched, show HResult.ok.failed = false by decide, Bool.false_eq_true,
        if_false]
    rw [heq]
    have hnew : ∀ h, h ∈ s.starting ∨ h ∈ s.failed ∨ h ∈ s.stopped → h ≠ s.world.launches :=
      fun h hmem => Nat.ne_of_lt (hs.launched h hmem)
    constructor
    · exact hs.controlled.launched threadId
    · refine List.nodup_cons.2 ⟨fun hmem => ?_, hs.nodup⟩
      rcases List.mem_append.1 hmem with hmem | hmem
      · exact hnew _ (.inl hmem) rfl
      · exact hnew _ (.inr (.inl hmem)) rfl
    · intro h hmem
      show h < s.world.launches + 1
      rcases hmem with hmem | hmem
      · rcases List.mem_cons.1 hmem with rfl | hmem
        · exact Nat.lt_succ_self _
        · exact Nat.lt_succ_of_lt (hs.launched h (.inl hmem))
      · exact Nat.lt_succ_of_lt (hs.launched h (.inr hmem))
    · intro h hmem hstopped
      -- the controller was ready, so every other call under way has been disturbed
      rcases hmem with hmem | hmem
      · rcases List.mem_cons.1 hmem with rfl | hmem
        · exact ⟨rfl, rfl⟩
        · exact absurd (hs.of_not_running (by simp [hready]) (.inl hmem)) hstopped
      · exact absurd (hs.of_not_running (by simp [hready]) (.inr hmem)) hstopped
    · intro h hmem _ heq
      exact hnew h (.inr (.inr hmem)) (Option.some.inj heq).symm

theorem inv_report {s : System} (hs : Inv s) {hthread : Handle} (hmem : hthread ∈ s.starting)
    (hr : HResult) (allocated : Bool) : Inv (onReport hthread hr allocated s) := by
  have herase : ∀ h, h ∈ s.starting.erase hthread → h ∈ s.starting := fun h =>
    List.mem_of_mem_erase
  rw [onReport]
  split
  · -- the call moves from one list to the other
    constructor
    · exact hs.controlled
    · have hperm : (s.starting.erase hthread ++ hthread :: s.failed).Perm
          (s.starting ++ s.failed) :=
        List.perm_middle.trans ((List.perm_cons_erase hmem).symm.append_right s.failed)
      exact hperm.nodup_iff.2 hs.nodup
    · intro h hcases
      apply hs.launched
      rcases hcases with h1 | h2 | h3
      · exact .inl (herase h h1)
      · rcases List.mem_cons.1 h2 with rfl | h2
        · exact .inl hmem
        · exact .inr (.inl h2)
      · exact .inr (.inr h3)
    · intro h hcases
      apply hs.current
      rcases hcases with h1 | h2
      · exact .inl (herase h h1)
      · rcases List.mem_cons.1 h2 with rfl | h2
        · exact .inl hmem
        · exact .inr h2
    · exact hs.disturbed
  · split
    · exact ⟨hs.controlled, hs.nodup, hs.launched, hs.current, hs.disturbed⟩
    · constructor
      · exact hs.controlled.setMaxAttempts 5
      · exact hs.nodup.sublist (List.erase_sublist.append_right s.failed)
      · intro h hcases
        exact hs.launched h (hcases.imp_left (herase h))
      · intro h hcases
        exact hs.current h (hcases.imp_left (herase h))
      · exact hs.disturbed

/-- The section leaves the ledger sound, no thread running, and has launched none. -/
structure Idles (w w' : World ThreadId) : Prop where
  controlled : Controlled Permitted w'
  idle : w'.controller.state ≠ .running
  launches : w'.launches = w.launches

theorem idles_stop {caller : ThreadId} {w : World ThreadId} (h : Controlled Permitted w)
    {info : ThreadInfo} (htarget : stopTarget caller w.controller = some info) (a : StopAnswers) :
    Idles w (stop caller a w).2 := by
  obtain ⟨-, hdata, -⟩ := stopTarget_eq_some htarget
  obtain ⟨us, hus, hw⟩ := stop_cases htarget a
  have hstopping : Controlled Permitted w.stopping := h.stopping (by simp [hdata])
  have hnote : Controlled Permitted (w.stopping.note us) := by
    apply hstopping.note
    intro u hu
    rcases hus u hu with rfl | rfl
    · exact h.held info hdata
    · exact trivial
  rcases hw with hw | hw
  · rw [hw]
    exact ⟨hnote, fun hrunning => (by cases hrunning), rfl⟩
  · rw [hw]
    exact ⟨hnote.reaped hdata, fun hrunning => (by cases hrunning), rfl⟩

/-- What `reapThreadAfterStartFailure` leaves. -/
theorem reap_cases (hthread : Handle) (a : StartFailureAnswers) (w : World ThreadId) :
    (reapThreadAfterStartFailure hthread a w).2 = awaited hthread w ∨
      (reapThreadAfterStartFailure hthread a w).2 = (awaited hthread w).reaped hthread := by
  by_cases hreaps : a.Reaps
  · exact .inr (reapThreadAfterStartFailure_of_reaps hreaps hthread w)
  · exact .inl (reapThreadAfterStartFailure_of_not_reaps hreaps hthread w)

theorem idles_reap {w : World ThreadId} (h : Controlled Permitted w) {hthread : Handle}
    (hrunning : w.controller.state = .running)
    (hcurrent : w.controller.data.map ThreadInfo.hthread = some hthread) (a : StartFailureAnswers) :
    Idles w (reapThreadAfterStartFailure hthread a w).2 := by
  obtain ⟨info, hdata, rfl⟩ := Option.map_eq_some_iff.1 hcurrent
  have hstopping : Controlled Permitted w.stopping := h.stopping (by simp [hdata])
  have hawaited : Controlled Permitted (awaited info.hthread w) := by
    apply hstopping.note
    intro u hu
    rcases List.mem_cons.1 hu with rfl | hu
    · exact h.held info hdata
    · rw [List.mem_singleton.1 hu]
      exact ⟨hrunning, hcurrent⟩
  rcases reap_cases info.hthread a w with hw | hw
  · rw [hw]
    exact ⟨hawaited, fun hrunning => (by cases hrunning), rfl⟩
  · rw [hw]
    exact ⟨hawaited.reaped hdata, fun hrunning => (by cases hrunning), rfl⟩

/-- After such a section the invariant holds, if it has left every call under way disturbed. -/
theorem Inv.of_idles {s : System} {outcome : Outcome} {w : World ThreadId}
    (hw : Idles s.world w) (hnodup : (s.starting ++ s.failed).Nodup)
    (hlaunched : ∀ h, h ∈ s.starting ∨ h ∈ s.failed ∨ h ∈ s.stopped → h < s.world.launches)
    (hall : ∀ h, h ∈ s.starting ∨ h ∈ s.failed → h ∈ s.stopped) : Inv (s.after (outcome, w)) where
  controlled := hw.controlled
  nodup := hnodup
  launched := by
    intro h hmem
    show h < w.launches
    rw [hw.launches]
    exact hlaunched h hmem
  current := fun h hmem hstopped => absurd (hall h hmem) hstopped
  disturbed := fun _ _ hrunning => absurd hrunning hw.idle

theorem inv_stop {s : System} (hs : Inv s) (caller : ThreadId) (a : StopAnswers) :
    Inv ({ s with
      stopped := ((stopTarget caller s.world.controller).map ThreadInfo.hthread).toList ++
        s.stopped }.after (stop caller a s.world)) := by
  cases htarget : stopTarget caller s.world.controller with
  | none =>
    have hsame := stop_of_stopTarget_none htarget a
    constructor
    all_goals simp only [System.after, hsame, Option.map_none, Option.toList_none, List.nil_append]
    exacts [hs.controlled, hs.nodup, hs.launched, hs.current, hs.disturbed]
  | some info =>
    obtain ⟨-, hdata, -⟩ := stopTarget_eq_some htarget
    refine Inv.of_idles (idles_stop hs.controlled htarget a) hs.nodup ?_ ?_
    · intro h hmem
      rcases hmem with h1 | h2 | h3
      · exact hs.launched h (.inl h1)
      · exact hs.launched h (.inr (.inl h2))
      · rcases List.mem_cons.1 h3 with rfl | h3
        · exact hs.controlled.fresh _ (.inl (hs.controlled.held info hdata).1)
        · exact hs.launched h (.inr (.inr h3))
    · -- a call under way that was not disturbed before is the one for this thread
      intro h hmem
      by_cases hstopped : h ∈ s.stopped
      · exact List.mem_cons_of_mem _ hstopped
      · have hcurrent := (hs.current h hmem hstopped).2
        rw [hdata] at hcurrent
        exact List.mem_cons.2 (.inl (Option.some.inj hcurrent).symm)

theorem inv_reap {s : System} (hs : Inv s) {hthread : Handle} (hmem : hthread ∈ s.failed)
    (hstopped : hthread ∉ s.stopped) (a : StartFailureAnswers) :
    Inv ({ s with failed := s.failed.erase hthread }.after
      (reapThreadAfterStartFailure hthread a s.world)) := by
  obtain ⟨hrunning, hcurrent⟩ := hs.current hthread (.inr hmem) hstopped
  refine Inv.of_idles (idles_reap hs.controlled hrunning hcurrent a) ?_ ?_ ?_
  · exact hs.nodup.sublist (List.erase_sublist.append_left s.starting)
  · intro h hcases
    exact hs.launched h (hcases.imp_right (Or.imp_left List.mem_of_mem_erase))
  · -- any other call under way has been disturbed, for the thread recorded is not its own
    intro h hcases
    by_contra hundisturbed
    have hsame := (hs.current h (hcases.imp_right List.mem_of_mem_erase) hundisturbed).2
    obtain rfl : hthread = h := Option.some.inj (hcurrent.symm.trans hsame)
    obtain ⟨-, hfailed, hdisjoint⟩ := List.nodup_append.1 hs.nodup
    rcases hcases with h1 | h2
    · exact hdisjoint _ h1 _ hmem rfl
    · exact hfailed.not_mem_erase h2

/-- **Step lemma.** -/
theorem inv_step (s : System) (e : Event) (hs : Inv s) (he : Undisturbed s e) : Inv (step s e) := by
  unfold step
  by_cases halive : s.alive = true
  · simp only [halive, Bool.not_true, Bool.false_eq_true, if_false]
    cases e with
    | start launch => exact inv_start hs launch
    | report hthread hr allocated =>
      dsimp only
      split
      · rename_i hmem
        exact inv_report hs hmem hr allocated
      · exact hs
    | reap hthread a =>
      dsimp only
      split
      · rename_i hmem
        exact inv_reap hs hmem (he halive hmem) a
      · exact hs
    | stop caller a => exact inv_stop hs caller a
  · simp only [halive, Bool.not_false, if_true]
    exact hs

/-- The reap that finds another state or another thread than the assertion says. -/
theorem undisturbed_of_sound (s : System) (e : Event) (hs : Inv s) (hsound : Sound (step s e)) :
    Undisturbed s e := by
  cases e with
  | reap hthread a =>
    intro halive hmem hstopped
    have hlegal := hsound.1
    simp only [step, halive, Bool.not_true, Bool.false_eq_true, if_false, hmem, if_true] at hlegal
    change Ledger.Legal Permitted (reapThreadAfterStartFailure hthread a s.world).2.log at hlegal
    have hawaited : Ledger.Legal Permitted (awaited hthread s.world).log := by
      rcases reap_cases hthread a s.world with hw | hw
      · rwa [hw] at hlegal
      · rw [hw] at hlegal
        exact hlegal.2
    obtain ⟨hrunning, hcurrent⟩ := hawaited.2.1
    exact hs.disturbed hthread hstopped hrunning hcurrent
  | start launch => exact trivial
  | report hthread hr allocated => exact trivial
  | stop caller a => exact trivial

/-- **Ownership of thread handles.**  Whatever the callers do and whatever the system answers, the
ledger stays sound through a run exactly if each reap of a failed `start` comes before any `stop`
has got to its thread. -/
theorem handles_owned_iff (es : List Event) :
    Run.Always step Sound {} es ↔ Run.AllSteps step Undisturbed {} es :=
  Run.always_iff_of_invariant inv_step (fun _ => Inv.sound) undisturbed_of_sound inv_init es

/-- The worker's hook is refused, and it reports that and exits.  Another caller's `stop` comes
first: its message no longer finds the thread, the wait does, and the thread is reaped.  The
`start` call then waits on a closed handle. -/
theorem stop_before_reap_unsound :
    ¬ Run.Always step Sound {}
      [.start (.ok 7),
        .report 0 HResult.kErrorAccessDenied true,
        .stop 9
          { retryAllocated := true
            attempts := fun _ => ⟨some 1444#32, .object0⟩
            reap := ⟨.ok 1#32, none⟩ },
        .reap 0 ⟨.failed 6#32, ⟨.error 6#32, some 6#32⟩⟩] := by
  intro h
  have hguard := (Run.always_iff_of_invariant inv_step (fun _ => Inv.sound) undisturbed_of_sound
    inv_init _).1 h
  exact hguard.2.2.2.1 (by decide) (by decide) (by decide)

end RoxyGlance.Win32.WinEventHook
