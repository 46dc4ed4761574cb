import RoxyGlance.Fault
import RoxyGlance.Lib.BoundedVector
import RoxyGlance.Lib.Guarded

/-!
# Hosts of callbacks

`CallbackHost` keeps its callbacks, each with the context it is called with, in a vector of fixed
capacity.  Every method takes the same lock, and `invoke` keeps it while the callbacks run.

* `callbackHost_sequential`: whatever the threads do, the methods return what they would if they were
  called one at a time;
* `callback_running_registered`: once `removeCallback` has returned, the callback does not run until
  it has been added again;
* `callbackHost_stuck_iff`: a callback that calls into its host blocks the host for good, and nothing
  else does.
-/

namespace RoxyGlance.Utility

open Guarded (Operations System Event Explains Rules Legal)

namespace CallbackHost

/-- The capacity of `RawContainerType`, as of the container of `ListenerHost`. -/
def kCapacity : ℕ := 3

/-- `S_FALSE` -/
def kFalse : HResult := 1#32

variable {κ : Type} [DecidableEq κ]

/-- The container. -/
abbrev Container (κ : Type) := BoundedVector κ kCapacity

/-- The body of `addCallback` and `addListener`. -/
def add (callbacks : Container κ) (k : κ) : HResult × Container κ :=
  match callbacks.stableEmplaceBack k with
  | (true, callbacks) => (HResult.ok, callbacks)
  | (false, callbacks) => (HResult.unexpected, callbacks)

/-- The body of `removeCallback` and `removeListener`. -/
def remove (callbacks : Container κ) (k : κ) : HResult × Container κ :=
  let kept := callbacks.removeAll k
  -- `std::remove` returns the end of what it keeps
  if kept.toList.length = callbacks.toList.length then (kFalse, callbacks) else (HResult.ok, kept)

/-- A call of a method, with the callback and its context. -/
inductive Call (κ : Type)
  | addCallback (k : κ)
  | removeCallback (k : κ)
  | invoke
  deriving DecidableEq, Repr

/-- What a call has done: the code that is returned, or the callbacks that have run. -/
inductive Result (κ : Type)
  | returned (hr : HResult)
  | ran (called : List κ)
  deriving DecidableEq, Repr

/-- The fields of a host, and the calls that have had their effect, the last one first. -/
structure Host (κ : Type) where
  callbacks : Container κ := .empty
  log : List (Call κ × Result κ) := []

/-- A call has its effect. -/
def Host.note (self : Host κ) (call : Call κ) (result : Result κ) : Host κ :=
  { self with log := (call, result) :: self.log }

/-- How far a call is that has the lock. -/
inductive Section (κ : Type)
  | entered (call : Call κ)
  /-- The loop of `invoke`, with its iterators and the callbacks that have run. -/
  | looping (it last : ℕ) (called : List κ)
  | running (k : κ) (it last : ℕ) (called : List κ)
  | leaving (call : Call κ) (result : Result κ)

/-- The next step of a call.  There is none past the end of the container. -/
def Host.move (self : Host κ) : Section κ → Option (Host κ × Section κ)
  | .entered (.addCallback k) =>
    let (hr, callbacks) := add self.callbacks k
    some ({ self with callbacks }.note (.addCallback k) (.returned hr),
      .leaving (.addCallback k) (.returned hr))
  | .entered (.removeCallback k) =>
    let (hr, callbacks) := remove self.callbacks k
    some ({ self with callbacks }.note (.removeCallback k) (.returned hr),
      .leaving (.removeCallback k) (.returned hr))
  | .entered .invoke => some (self, .looping 0 self.callbacks.toList.length [])
  | .looping it last called =>
    if it = last then some (self.note .invoke (.ran called), .leaving .invoke (.ran called))
    else self.callbacks.toList[it]?.map fun k => (self, .running k it last called)
  -- the callback returns
  | .running k it last called => some (self, .looping (it + 1) last (called ++ [k]))
  | .leaving _ _ => none

/-- The methods, under the lock of the host. -/
def operations (κ : Type) [DecidableEq κ] : Operations (Host κ) (Call κ) (Section κ) Unit where
  enter := .entered
  move _ self l := self.move l
  finished
    | .leaving _ _ => true
    | _ => false
  yields
    | .running _ _ _ _ => true
    | _ => false

/-! ### One call at a time -/

/-- A registry, without a lock. -/
def Registry.apply : Call κ → List κ → List κ × Result κ
  | .addCallback k, ks =>
    if ks.length < kCapacity then (ks ++ [k], .returned HResult.ok)
    else (ks, .returned HResult.unexpected)
  | .removeCallback k, ks =>
    (ks.filter (· ≠ k), .returned (if k ∈ ks then HResult.ok else kFalse))
  | .invoke, ks => (ks, .ran ks)

/-- The calls so far have the results they would have one at a time. -/
def Consistent (self : Host κ) : Prop :=
  Explains Registry.apply [] self.log self.callbacks.toList

/-- What holds of the host and the call that has its lock. -/
def Held (self : Host κ) : Section κ → Prop
  | .entered _ => Consistent self
  | .looping it last called => Consistent self ∧ last = self.callbacks.toList.length ∧ it ≤ last ∧
      called = self.callbacks.toList.take it
  | .running k it last called => Consistent self ∧ last = self.callbacks.toList.length ∧
      self.callbacks.toList[it]? = some k ∧ called = self.callbacks.toList.take it
  | .leaving call result => Consistent self ∧ self.log.head? = some (call, result)

theorem add_apply (callbacks : Container κ) (k : κ) :
    Registry.apply (.addCallback k) callbacks.toList =
      ((add callbacks k).2.toList, .returned (add callbacks k).1) := by
  unfold add BoundedVector.stableEmplaceBack
  by_cases hroom : callbacks.toList.length < kCapacity
  · simp only [Registry.apply, if_pos hroom, dif_pos hroom]
  · simp only [Registry.apply, if_neg hroom, dif_neg hroom]

theorem remove_apply (callbacks : Container κ) (k : κ) :
    Registry.apply (.removeCallback k) callbacks.toList =
      ((remove callbacks k).2.toList, .returned (remove callbacks k).1) := by
  unfold Registry.apply remove
  simp only [BoundedVector.length_removeAll_eq]
  by_cases hk : k ∈ callbacks.toList
  · rw [if_pos hk, if_neg (not_not_intro hk)]
    rfl
  · rw [if_neg hk, if_pos hk, List.filter_eq_self.2 fun a ha => ?_]
    exact decide_eq_true fun heq => hk (heq ▸ ha)

/-- An effect is noted with the result it has on its own. -/
theorem Consistent.note {self : Host κ} (h : Consistent self) {call : Call κ} {result : Result κ}
    {callbacks : Container κ}
    (happly : Registry.apply call self.callbacks.toList = (callbacks.toList, result)) :
    Consistent ({ self with callbacks }.note call result) := Explains.cons h happly

/-- **What each section keeps.** -/
theorem rules : Rules (operations κ) Consistent Held where
  enter _ _ h := h
  move := by
    rintro ⟨⟩ self l self' l' h hmove
    cases l with
    | entered call =>
      have hconsistent : Consistent self := h
      cases call with
      | addCallback k =>
        cases hmove
        exact ⟨hconsistent.note (add_apply self.callbacks k), rfl⟩
      | removeCallback k =>
        cases hmove
        exact ⟨hconsistent.note (remove_apply self.callbacks k), rfl⟩
      | invoke =>
        cases hmove
        exact ⟨hconsistent, rfl, Nat.zero_le _, rfl⟩
    | looping it last called =>
      obtain ⟨hconsistent, rfl, hit, rfl⟩ := h
      simp only [operations, Host.move] at hmove
      split_ifs at hmove with hend
      · cases hmove
        subst hend
        rw [List.take_length]
        exact ⟨Explains.cons hconsistent rfl, rfl⟩
      · obtain ⟨k, hk, hrun⟩ := Option.map_eq_some_iff.1 hmove
        cases hrun
        exact ⟨hconsistent, rfl, hk, rfl⟩
    | running k it last called =>
      obtain ⟨hconsistent, rfl, hk, rfl⟩ := h
      cases hmove
      obtain ⟨hlt, -⟩ := List.getElem?_eq_some_iff.1 hk
      refine ⟨hconsistent, rfl, hlt, ?_⟩
      rw [List.take_add_one, hk]
      rfl
    | leaving call result => cases hmove
  leave self l h hfinished := by
    cases l with
    | leaving call result => exact h.1
    | entered | looping | running => cases hfinished

/-- No section is ever left without a next step. -/
theorem live (self : Host κ) (l : Section κ) (h : Held self l) :
    (operations κ).finished l = true ∨ ∃ c, ((operations κ).move c self l).isSome = true := by
  cases l with
  | entered call =>
    refine .inr ⟨(), ?_⟩
    cases call <;> rfl
  | looping it last called =>
    obtain ⟨-, rfl, hit, -⟩ := h
    refine .inr ⟨(), ?_⟩
    simp only [operations, Host.move]
    split_ifs with hend
    · rfl
    · rw [Option.isSome_map, List.getElem?_eq_getElem (Nat.lt_of_le_of_ne hit hend)]
      rfl
  | running k it last called => exact .inr ⟨(), rfl⟩
  | leaving call result => exact .inl rfl

theorem consistent_of_held {self : Host κ} {l : Section κ} (h : Held self l) :
    Consistent self := by
  cases l with
  | entered => exact h
  | looping | running | leaving => exact h.1

/-- The one section a thread is in. -/
theorem held_of_mem {τ : Type} {s : System τ (Host κ) (Call κ) (Section κ)}
    (h : Legal Consistent Held s) {t : τ} {l : Section κ} (hl : l ∈ (s.threads t).sections) :
    (s.threads t).sections = [l] ∧ Held s.data l := by
  have hsections : (s.threads t).sections = [l] := by
    rcases hth : s.threads t with ⟨waiting, _ | ⟨l', ls⟩⟩
    · rw [hth] at hl
      cases hl
    · obtain rfl := h.sections_eq hth
      rw [hth] at hl
      rw [List.mem_singleton.1 hl]
  exact ⟨hsections, h.held t l hsections⟩

theorem consistent_of_legal {τ : Type} {s : System τ (Host κ) (Call κ) (Section κ)}
    (h : Legal Consistent Held s) : Consistent s.data := by
  cases hholder : s.holder with
  | none => exact h.free hholder
  | some t =>
    obtain ⟨l, hl⟩ := List.exists_mem_of_ne_nil _ ((h.holder t).2 hholder)
    exact consistent_of_held (held_of_mem h hl).2

end CallbackHost

/-! ### Threads -/

open CallbackHost (Host Call Result Section Consistent Registry.apply held_of_mem
  consistent_of_legal)

variable {τ κ : Type} [DecidableEq τ] [DecidableEq κ]

/-- A host and the threads that call its methods. -/
abbrev HostSystem (τ κ : Type) := System τ (Host κ) (Call κ) (Section κ)

/-- One step of a thread. -/
def HostSystem.step : HostSystem τ κ → Event τ (Call κ) Unit → HostSystem τ κ :=
  System.step (CallbackHost.operations κ)

/-- The callback is running in the thread. -/
def HostSystem.Running (s : HostSystem τ κ) (t : τ) (k : κ) : Prop :=
  ∃ it last called, Section.running k it last called ∈ (s.threads t).sections

/-- One thread at a time is in a method, the calls have the results they would have one at a time, and
what a method is about to return is the last of them. -/
structure HostSystem.Sequential (s : HostSystem τ κ) : Prop where
  exclusive : ∀ t u, s.Inside t → s.Inside u → t = u
  consistent : Consistent s.data
  returns : ∀ t call result, Section.leaving call result ∈ (s.threads t).sections →
    s.data.log.head? = some (call, result)

/-- **Every method returns what it would if the methods were called one at a time**, in the order of
their effects, whatever the threads do. -/
theorem callbackHost_sequential (events : List (Event τ (Call κ) Unit)) :
    Run.Always HostSystem.step HostSystem.Sequential ({ data := {} } : HostSystem τ κ) events := by
  refine (CallbackHost.rules.always (.start ?_) events).mono fun s h => ?_
  · exact rfl
  · exact ⟨fun t u => h.unique, consistent_of_legal h,
      fun t call result hl => (held_of_mem h hl).2.2⟩

/-- A removal waits until the callback has run. -/
example : (([.call 0 (.addCallback 7), .acquire 0, .move 0 (), .release 0, .call 0 .invoke,
      .acquire 0, .move 0 (), .move 0 (), .call 1 (.removeCallback 7), .acquire 1, .move 0 (),
      .move 0 (), .release 0, .acquire 1, .move 1 ()] : List (Event ℕ (Call ℕ) Unit)).foldl
        HostSystem.step { data := {} }).data.log =
    [(.removeCallback 7, .returned HResult.ok), (.invoke, .ran [7]),
      (.addCallback 7, .returned HResult.ok)] := by
  decide

/-! ### Callbacks that have been removed -/

/-- By the results of the calls, the callback has been added and not removed since. -/
def registered (k : κ) : List (Call κ × Result κ) → Bool
  | [] => false
  | (.addCallback k', .returned hr) :: log =>
    if k' = k ∧ hr = HResult.ok then true else registered k log
  | (.removeCallback k', _) :: log => if k' = k then false else registered k log
  | _ :: log => registered k log

/-- The results tell what is in the container. -/
theorem registered_iff {self : Host κ} (h : Consistent self) (k : κ) :
    registered k self.log = true ↔ k ∈ self.callbacks.toList := by
  refine Explains.preserved (P := fun log ks => registered k log = true ↔ k ∈ ks) ?_ ?_ h
  · exact iff_of_false Bool.false_ne_true List.not_mem_nil
  · intro call ks log ih
    cases call with
    | addCallback k' =>
      by_cases hroom : ks.length < CallbackHost.kCapacity
      · simp only [Registry.apply, if_pos hroom, registered, and_true, List.mem_append,
          List.mem_singleton]
        split_ifs with hk
        · exact iff_of_true rfl (.inr hk.symm)
        · rw [ih, or_iff_left fun heq => hk heq.symm]
      · have hne : HResult.unexpected ≠ HResult.ok := by decide
        simp only [Registry.apply, if_neg hroom, registered, hne, and_false, if_false]
        exact ih
    | removeCallback k' =>
      simp only [Registry.apply, registered, List.mem_filter, decide_eq_true_eq]
      split_ifs with hk
      · exact iff_of_false id fun hmem => hmem.2 hk.symm
      · rw [ih, and_iff_left fun heq => hk heq.symm]
    | invoke => exact ih

/-- **A callback that runs is registered** by the results of the calls so far: once `removeCallback`
has returned, it runs in no thread until it is added again. -/
theorem callback_running_registered (events : List (Event τ (Call κ) Unit)) :
    Run.Always HostSystem.step
      (fun s => ∀ t k, s.Running t k → registered k s.data.log = true)
      ({ data := {} } : HostSystem τ κ) events := by
  refine (CallbackHost.rules.always (.start ?_) events).mono fun s h => ?_
  · exact rfl
  · rintro t k ⟨it, last, called, hl⟩
    obtain ⟨hconsistent, -, hk, -⟩ := (held_of_mem h hl).2
    exact (registered_iff hconsistent k).2 (List.mem_of_getElem? hk)

/-! ### Calls from callbacks -/

/-- **The host is stuck exactly if a callback has called one of its methods**, and then it stays so:
that call never returns and no other one has an effect. -/
theorem callbackHost_stuck_iff (events : List (Event τ (Call κ) Unit)) :
    Run.Always HostSystem.step
      (fun s => (s.Stuck (CallbackHost.operations κ) ↔ ∃ t, s.Blocked t) ∧
        ∀ t, s.Blocked t → ∀ later, Run.Always HostSystem.step
          (fun s' => s'.Blocked t ∧ s'.data = s.data) s later)
      ({ data := {} } : HostSystem τ κ) events := by
  refine (CallbackHost.rules.always (.start ?_) events).mono fun s h => ?_
  · exact rfl
  · exact ⟨Guarded.stuck_iff h CallbackHost.live,
      fun t ht later => Guarded.Blocked.always CallbackHost.rules h ht later⟩

end RoxyGlance.Utility
