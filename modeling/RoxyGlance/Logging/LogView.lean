import RoxyGlance.Fault
import RoxyGlance.Lib.CircularBuffer
import RoxyGlance.Lib.Run

/-!
# The log and its view

`Logger::addLog` pushes an entry into a circular buffer and tells the view model, which queues an
update for the dispatcher of the user interface.  The update carries a kind of change, an index and
a pointer to the slot of the new entry, and reads the slot when it runs.  By then the slot may hold
a newer entry, and whether the buffer was full was decided for a list the view has not caught up
with.

* `inv_step`: what relates the view, the queued updates and the buffer, whatever the lag;
* `logView_converges`: the view equals the buffer whenever nothing is queued;
* `drain_view`: running what is queued gets there.
-/

namespace RoxyGlance.Logging

/-- `E_BOUNDS` -/
def kErrorBounds : HResult := 0x8000000B#32

/-- `Log`, as far as the view shows it. -/
structure Log where
  content : Wide
  deriving DecidableEq, Repr

/-- `LogViewModel` -/
structure LogViewModel where
  content : Wide
  deriving DecidableEq, Repr

/-- The constructor from an entry. -/
def LogViewModel.ofLog (log : Log) : LogViewModel := ⟨log.content⟩

/-! ### Changes -/

/-- `CollectionChangeType` -/
inductive CollectionChangeType
  | kReset
  | kAdded
  | kRemoved
  | kUpdated
  deriving DecidableEq, Repr

/-- The bits of the flags. -/
def CollectionChangeType.bits : CollectionChangeType → BitVec 8
  | kReset => 0#8
  | kAdded => 1#8
  | kRemoved => 2#8
  | kUpdated => 1#8 ||| 2#8

/-- `enum_flags_test` -/
def CollectionChangeType.test (type flag : CollectionChangeType) : Bool :=
  flag.bits != 0#8 && type.bits &&& flag.bits == flag.bits

/-- `CollectionChange`, with the slot of the buffer for the pointer to it. -/
structure CollectionChange where
  type : CollectionChangeType
  index : ℕ
  item : ℕ
  deriving DecidableEq, Repr

/-- `Logger::addLog`: the buffer afterwards and the change the listeners are told. -/
def addLog (logs : CircularBuffer Log) (log : Log) : CircularBuffer Log × CollectionChange :=
  let isFull := logs.full
  let logs := logs.pushFront log
  (logs, ⟨if isFull then .kUpdated else .kAdded, 0, logs.slotAt 0⟩)

/-! ### The list of the view -/

/-- `makeLogViewModels` -/
def makeLogViewModels (logs : CircularBuffer Log) : List LogViewModel :=
  logs.toList.map LogViewModel.ofLog

/-- `IVector::InsertAt` -/
def insertAt {α : Type} (view : List α) (index : ℕ) (a : α) : Except Fault (List α) :=
  if index ≤ view.length then .ok (view.insertIdx index a) else .error (throwHResult kErrorBounds)

/-- `IVector::RemoveAtEnd` -/
def removeAtEnd {α : Type} (view : List α) : Except Fault (List α) :=
  if view.isEmpty then .error (throwHResult kErrorBounds) else .ok view.dropLast

/-- `*change.item`: reading a slot nothing was put into is undefined. -/
def deref (logs : CircularBuffer Log) (item : ℕ) : Except Fault Log :=
  match logs.slots item with
  | some log => .ok log
  | none => .error .undefined

/-- The first half of an update: the entry in the slot goes to the index. -/
def applyAdded (logs : CircularBuffer Log) (change : CollectionChange) (view : List LogViewModel) :
    Except Fault (List LogViewModel) :=
  if change.type.test .kAdded then do
    let log ← deref logs change.item
    insertAt view change.index (.ofLog log)
  else pure view

/-- The second half: the last item goes. -/
def applyRemoved (change : CollectionChange) (view : List LogViewModel) :
    Except Fault (List LogViewModel) :=
  if change.type.test .kRemoved then removeAtEnd view else pure view

/-- The update that `onCollectionChanged` queues, when it runs. -/
def runUpdate (logs : CircularBuffer Log) (change : CollectionChange) (view : List LogViewModel) :
    Except Fault (List LogViewModel) := do
  let view ← applyAdded logs change view
  applyRemoved change view

/-! ### The system -/

/-- The logger, what the dispatcher has queued, and the view.  A `fault` is an exception that left
an update. -/
structure State where
  logs : CircularBuffer Log
  queue : List CollectionChange
  view : List LogViewModel
  fault : Option Fault

/-- An entry is logged, or the dispatcher runs the oldest update. -/
inductive Event
  | addLog (log : Log)
  | dispatch
  deriving DecidableEq, Repr

/-- One step.  An update is queued together with the push: as it runs after both, it makes no
difference to have updates queued earlier run in between. -/
def step (s : State) : Event → State
  | .addLog log =>
    let (logs, change) := Logging.addLog s.logs log
    { s with logs, queue := s.queue ++ [change] }
  | .dispatch =>
    match s.fault, s.queue with
    | none, change :: queue =>
      match runUpdate s.logs change s.view with
      | .ok view => { s with queue, view }
      | .error fault => { s with queue, fault := some fault }
    | _, _ => s

/-- `LogsViewModel::LogsViewModel`: a snapshot of the buffer, then registration. -/
def register (logs : CircularBuffer Log) : State := ⟨logs, [], makeLogViewModels logs, none⟩

/-- The update for position `i` of the queue, as it was queued. -/
def pendingChange (s : State) (i : ℕ) : CollectionChange :=
  ⟨if s.view.length + i < s.logs.capacity then .kAdded else .kUpdated, 0,
    s.logs.slotAt (s.queue.length - 1 - i)⟩

/-- The view lags behind the buffer by the length of the queue.  What it shows is in the buffer that
many places further, unless it has been dropped there already. -/
structure Inv (s : State) : Prop where
  fault : s.fault = none
  size : s.logs.size = min (s.view.length + s.queue.length) s.logs.capacity
  length_le : s.view.length ≤ s.logs.capacity
  agree : ∀ p < s.view.length, p + s.queue.length < s.logs.capacity →
    s.view[p]? = (s.logs.toList[p + s.queue.length]?).map LogViewModel.ofLog
  pending : ∀ i < s.queue.length, s.queue[i]? = some (pendingChange s i)

theorem inv_register (logs : CircularBuffer Log) : Inv (register logs) where
  fault := rfl
  size := by
    have hsize := logs.size_le
    simp only [register, makeLogViewModels, List.length_map, logs.length_toList, List.length_nil]
    omega
  length_le := by
    simpa only [register, makeLogViewModels, List.length_map, logs.length_toList]
      using logs.size_le
  agree := by
    intro p _ _
    exact List.getElem?_map
  pending := by
    intro i hi
    exact absurd hi (Nat.not_lt_zero i)

/-! ### An entry is logged -/

/-- The logger sees a full buffer exactly when the view will be full by then. -/
theorem Inv.addedOrUpdated {s : State} (h : Inv s) :
    (if s.logs.full then CollectionChangeType.kUpdated else .kAdded)
      = if s.view.length + s.queue.length < s.logs.capacity then .kAdded else .kUpdated := by
  have hsize := h.size
  have hfull : s.logs.full = true ↔ ¬ s.view.length + s.queue.length < s.logs.capacity := by
    rw [CircularBuffer.full, beq_iff_eq]
    omega
  rw [if_congr hfull rfl rfl, ite_not]

theorem inv_addLog {s : State} (h : Inv s) (log : Log) : Inv (step s (.addLog log)) := by
  have hpush := s.logs.size_pushFront log
  have hsize := h.size
  have hlen : (step s (.addLog log)).queue.length = s.queue.length + 1 := List.length_append
  refine ⟨h.fault, ?_, h.length_le, fun p hp hlt => ?_, fun i hi => ?_⟩
  · rw [hlen]
    show (s.logs.pushFront log).size = min (s.view.length + (s.queue.length + 1)) s.logs.capacity
    omega
  · rw [hlen] at hlt ⊢
    replace hlt : p + (s.queue.length + 1) < s.logs.capacity := hlt
    show s.view[p]? = ((s.logs.pushFront log).toList[p + (s.queue.length + 1)]?).map _
    rw [s.logs.toList_pushFront, List.getElem?_take_of_lt hlt, ← Nat.add_assoc,
      List.getElem?_cons_succ]
    exact h.agree p hp (by omega)
  · rw [hlen] at hi
    rw [pendingChange, hlen]
    show (s.queue ++ [(Logging.addLog s.logs log).2])[i]?
      = some ⟨if s.view.length + i < s.logs.capacity then .kAdded else .kUpdated, 0,
        (s.logs.pushFront log).slotAt (s.queue.length + 1 - 1 - i)⟩
    rcases Nat.lt_succ_iff_lt_or_eq.1 hi with hold | hnew
    · -- the push moved the slot of an older entry one place further
      rw [List.getElem?_append_left hold, h.pending i hold, pendingChange,
        show s.queue.length + 1 - 1 - i = s.queue.length - 1 - i + 1 by omega,
        s.logs.slotAt_pushFront]
    · rw [hnew, List.getElem?_append_right le_rfl, Nat.sub_self, Nat.add_sub_cancel, Nat.sub_self,
        ← h.addedOrUpdated]
      exact List.getElem?_cons_zero

/-! ### An update runs -/

/-- What an update does that finds an entry in its slot. -/
theorem runUpdate_of_slot {logs : CircularBuffer Log} {item : ℕ} {log : Log}
    {view : List LogViewModel} (hitem : logs.slots item = some log)
    (hview : view.length ≤ logs.capacity) :
    runUpdate logs ⟨if view.length < logs.capacity then .kAdded else .kUpdated, 0, item⟩ view
      = .ok ((.ofLog log :: view).take logs.capacity) := by
  have hadded : ∀ type : CollectionChangeType, type.test .kAdded = true →
      applyAdded logs ⟨type, 0, item⟩ view = .ok (.ofLog log :: view) := by
    intro type htype
    rw [applyAdded, if_pos htype, deref, hitem]
    rfl
  split
  · rename_i hroom
    rw [runUpdate, hadded _ rfl, List.take_of_length_le (by rw [List.length_cons]; omega)]
    exact if_neg (show ¬ CollectionChangeType.test .kAdded .kRemoved = true by decide)
  · rename_i hfull
    have hlast : logs.capacity = (LogViewModel.ofLog log :: view).length - 1 := by
      rw [List.length_cons]
      omega
    rw [runUpdate, hadded _ rfl, hlast, ← List.dropLast_eq_take]
    exact if_pos (show CollectionChangeType.test .kUpdated .kRemoved = true by decide)

/-- The slot of the oldest update is in use, also when the front has gone around the circle since
it was queued. -/
theorem slots_oldest {s : State} (h : Inv s) (hqueue : 0 < s.queue.length) :
    ∃ log, s.logs.slots (s.logs.slotAt (s.queue.length - 1)) = some log ∧
      s.logs.toList[(s.queue.length - 1) % s.logs.capacity]? = some log := by
  have hpos := s.logs.capacity_pos
  have hlt : (s.queue.length - 1) % s.logs.capacity < s.logs.size := by
    rw [h.size, Nat.lt_min]
    have hmod := Nat.mod_lt (s.queue.length - 1) hpos
    have hle := Nat.mod_le (s.queue.length - 1) s.logs.capacity
    omega
  obtain ⟨log, hlog⟩ := Option.isSome_iff_exists.1 (s.logs.filled _ hlt)
  have hslot : s.logs.slots (s.logs.slotAt ((s.queue.length - 1) % s.logs.capacity)) = some log :=
    hlog
  refine ⟨log, ?_, ?_⟩
  · rwa [s.logs.slotAt_mod] at hslot
  · rwa [s.logs.getElem?_toList hlt]

/-- An update never faults: it puts an entry in front and drops the last one if there is no room. -/
theorem step_dispatch {s : State} (h : Inv s) {change : CollectionChange}
    {queue : List CollectionChange} (hqueue : s.queue = change :: queue) :
    ∃ log, s.logs.toList[queue.length % s.logs.capacity]? = some log ∧
      step s .dispatch
        = { s with queue, view := (LogViewModel.ofLog log :: s.view).take s.logs.capacity } := by
  have hlen : s.queue.length = queue.length + 1 := by
    rw [hqueue, List.length_cons]
  obtain ⟨log, hslot, hlist⟩ := slots_oldest h (by omega)
  rw [hlen, Nat.add_sub_cancel] at hslot hlist
  have hchange : change = ⟨if s.view.length < s.logs.capacity then .kAdded else .kUpdated, 0,
      s.logs.slotAt queue.length⟩ := by
    have hhead := h.pending 0 (by omega)
    rw [pendingChange, hlen, Nat.add_zero, Nat.add_sub_cancel, Nat.sub_zero, hqueue,
      List.getElem?_cons_zero, Option.some.injEq] at hhead
    exact hhead
  refine ⟨log, hlist, ?_⟩
  have hrun := runUpdate_of_slot hslot h.length_le
  rw [← hchange] at hrun
  rw [step, h.fault, hqueue]
  show (match runUpdate s.logs change s.view with
    | .ok view => _
    | .error fault => _) = _
  rw [hrun]

theorem inv_dispatch {s : State} (h : Inv s) : Inv (step s .dispatch) := by
  cases hqueue : s.queue with
  | nil =>
    have hstep : step s .dispatch = s := by
      rw [step, h.fault, hqueue]
    rwa [hstep]
  | cons change queue =>
    obtain ⟨log, hlog, hstep⟩ := step_dispatch h hqueue
    have hsize := h.size
    have hview := h.length_le
    have hpos := s.logs.capacity_pos
    have hlen : s.queue.length = queue.length + 1 := by
      rw [hqueue, List.length_cons]
    have hlength : ((LogViewModel.ofLog log :: s.view).take s.logs.capacity).length
        = min s.logs.capacity (s.view.length + 1) := by
      rw [List.length_take, List.length_cons]
    rw [hstep]
    refine ⟨h.fault, ?_, ?_, fun p hp hlt => ?_, fun i hi => ?_⟩
    · show s.logs.size = min (((LogViewModel.ofLog log :: s.view).take s.logs.capacity).length
        + queue.length) s.logs.capacity
      omega
    · show ((LogViewModel.ofLog log :: s.view).take s.logs.capacity).length ≤ s.logs.capacity
      omega
    · replace hlt : p + queue.length < s.logs.capacity := hlt
      show ((LogViewModel.ofLog log :: s.view).take s.logs.capacity)[p]?
        = (s.logs.toList[p + queue.length]?).map LogViewModel.ofLog
      rw [List.getElem?_take_of_lt (by omega)]
      -- the log that has just been taken from the queue is the newest one shown
      cases p with
      | zero =>
        rw [Nat.zero_add] at hlt ⊢
        rw [Nat.mod_eq_of_lt hlt] at hlog
        rw [hlog]
        rfl
      | succ p =>
        replace hp : p + 1 < ((LogViewModel.ofLog log :: s.view).take s.logs.capacity).length := hp
        have hagree := h.agree p (by omega) (by omega)
        rw [hlen] at hagree
        rw [List.getElem?_cons_succ, hagree, show p + (queue.length + 1) = p + 1 + queue.length by
          omega]
    · replace hi : i < queue.length := hi
      have hpending := h.pending (i + 1) (by omega)
      rw [pendingChange, hlen, hqueue, List.getElem?_cons_succ] at hpending
      show queue[i]? = some ⟨if _ + i < s.logs.capacity then _ else _, 0,
        s.logs.slotAt (queue.length - 1 - i)⟩
      rw [hpending, show queue.length + 1 - 1 - (i + 1) = queue.length - 1 - i by omega]
      congr 3
      rw [hlength, eq_iff_iff]
      omega

/-! ### Runs -/

/-- **Every step keeps the view in line with the buffer.** -/
theorem inv_step (s : State) (e : Event) (h : Inv s) : Inv (step s e) := by
  cases e with
  | addLog log => exact inv_addLog h log
  | dispatch => exact inv_dispatch h

/-- With nothing queued there is no lag. -/
theorem Inv.view_eq {s : State} (h : Inv s) (hqueue : s.queue = []) :
    s.view = makeLogViewModels s.logs := by
  have hlen : s.queue.length = 0 := by
    rw [hqueue, List.length_nil]
  have hsize := h.size
  have hview := h.length_le
  apply List.ext_getElem?
  intro p
  rw [makeLogViewModels, List.getElem?_map]
  by_cases hp : p < s.view.length
  · have hagree := h.agree p hp (by omega)
    rwa [hlen, Nat.add_zero] at hagree
  · rw [List.getElem?_eq_none (by omega),
      List.getElem?_eq_none (by rw [s.logs.length_toList]; omega), Option.map_none]

theorem step_capacity (s : State) (e : Event) :
    (step s e).logs.capacity = s.logs.capacity := by
  cases e with
  | addLog log => rfl
  | dispatch =>
    rw [step]
    cases s.fault with
    | some fault => rfl
    | none =>
      cases s.queue with
      | nil => rfl
      | cons change queue => cases hrun : runUpdate s.logs change s.view <;> simp only [hrun]

/-- **The view converges to the log**: from any buffer, however logging and the updates interleave,
no update faults, the view never outgrows the buffer, and it is the buffer when nothing is
queued. -/
theorem logView_converges (logs : CircularBuffer Log) (es : List Event) :
    Run.Always step (fun s => s.fault = none ∧ s.view.length ≤ logs.capacity ∧
      (s.queue = [] → s.view = s.logs.toList.map LogViewModel.ofLog)) (register logs) es := by
  have hkeep : ∀ s e, Inv s ∧ s.logs.capacity = logs.capacity →
      Inv (step s e) ∧ (step s e).logs.capacity = logs.capacity := by
    rintro s e ⟨h, hcap⟩
    exact ⟨inv_step s e h, (step_capacity s e).trans hcap⟩
  refine (Run.always_of_preserved hkeep ⟨inv_register logs, rfl⟩ es).mono ?_
  rintro s ⟨h, hcap⟩
  exact ⟨h.fault, hcap ▸ h.length_le, h.view_eq⟩

/-- Running the updates that are queued brings the view up to date. -/
theorem drain_view {s : State} (h : Inv s) :
    ((List.replicate s.queue.length Event.dispatch).foldl step s).view
      = makeLogViewModels s.logs := by
  induction hn : s.queue.length generalizing s with
  | zero => exact h.view_eq (List.length_eq_zero_iff.1 hn)
  | succ n ih =>
    obtain ⟨change, queue, hqueue⟩ := List.exists_cons_of_length_eq_add_one hn
    obtain ⟨log, -, hstep⟩ := step_dispatch h hqueue
    have hnext : (step s .dispatch).queue.length = n := by
      rw [hstep]
      rw [hqueue, List.length_cons] at hn
      exact Nat.succ.inj hn
    rw [List.replicate_succ, List.foldl_cons, ih (inv_dispatch h) hnext, hstep]

end RoxyGlance.Logging
