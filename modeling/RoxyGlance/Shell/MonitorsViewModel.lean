import Mathlib.Data.List.Sort
import RoxyGlance.Lib.BoundedVector
import RoxyGlance.Monitor.Rebuild

/-!
# The list of monitors the editor offers

`makeMonitorViewModels` collects the states of the cache in the order of the hash map, sorts them
by their number and puts the alias of the primary monitor in front.  It collects them into a vector
with room for five that does not grow.

* `returnsNormally_makeMonitorViewModels_iff`: it throws unless a primary monitor is among the first
  five;
* `makeMonitorViewModels_complete_iff`: it returns everything exactly for at most five monitors.
-/

namespace RoxyGlance.Shell

open Monitor (FullState Storage)

/-- The texts of `ShellResource`, and those with a number or a name filled in. -/
structure Resources where
  shellMain : Wide
  shellMainFormat : Wide → Wide
  shellDisplayFormat : ℤ → Wide
  shellDisplayNameFormat : ℤ → Wide → Wide

variable {F : Type}

/-- `MonitorViewModel` -/
structure MonitorViewModel (F : Type) where
  isPrimary : Bool
  id : ℤ
  name : Wide
  displayArea : Vec4 F
  workArea : Vec4 F
  deriving DecidableEq, Repr

/-- `makeName` -/
def makeName (res : Resources) (state : FullState F) : Wide :=
  if state.friendlyName.isEmpty then res.shellDisplayFormat state.id
  else res.shellDisplayNameFormat state.id state.friendlyName

/-- The constructor with a number and a name. -/
def MonitorViewModel.make (state : FullState F) (id : ℤ) (name : Wide) : MonitorViewModel F :=
  ⟨state.primary, id, name, state.displayArea, state.workArea⟩

/-- The constructor for a state under its own number and name. -/
def MonitorViewModel.ofState (res : Resources) (state : FullState F) : MonitorViewModel F :=
  .make state state.id (makeName res state)

/-- The item in front: the primary monitor under the number 0. -/
def MonitorViewModel.alias (res : Resources) (primary : FullState F) : MonitorViewModel F :=
  .make primary 0 <|
    if primary.friendlyName.isEmpty then res.shellMain
    else res.shellMainFormat primary.friendlyName

/-- `std::ranges::sort` by `State::id` -/
def sortById (states : List (FullState F)) : List (FullState F) :=
  states.insertionSort fun a b => a.id ≤ b.id

/-- `primary_state` after the loop. -/
def lastPrimary (states : List (FullState F)) : Option (FullState F) :=
  states.foldl (fun primary state => if state.primary then some state else primary) none

/-- The states that fit into the `small_vector` with its five places. -/
def collectStates (storage : Storage F) : List (FullState F) :=
  (BoundedVector.empty.stableEmplaceAll storage.states : BoundedVector (FullState F) 5).toList

/-- `makeMonitorViewModels`; `none` is the null it returns for an empty cache. -/
def makeMonitorViewModels (res : Resources) (storage : Storage F) :
    Except Fault (Option (List (MonitorViewModel F))) :=
  if storage.states.isEmpty then .ok none
  else
    let statesById := sortById (collectStates storage)
    match lastPrimary statesById with
    | none => .error (.hresultError HResult.invalidArg)
    | some primary => .ok (some (.alias res primary :: statesById.map (.ofState res)))

/-- The alias of a primary monitor, then one item for each monitor of the cache, by increasing
numbers. -/
def Complete (res : Resources) (storage : Storage F)
    (r : Except Fault (Option (List (MonitorViewModel F)))) : Prop :=
  ∃ (primary : FullState F) (sorted : List (FullState F)),
    primary ∈ storage.states ∧ primary.primary = true ∧
    sorted.Perm storage.states ∧ sorted.Pairwise (fun a b => a.id < b.id) ∧
    r = .ok (some (.alias res primary :: sorted.map (.ofState res)))

theorem sortById_perm (states : List (FullState F)) : (sortById states).Perm states :=
  List.perm_insertionSort _ states

/-- Different numbers increase in the sorted list. -/
theorem sortById_pairwise {states : List (FullState F)}
    (h : (states.map fun s => s.id).Nodup) : (sortById states).Pairwise fun a b => a.id < b.id := by
  have hle : (sortById states).Pairwise fun a b => a.id ≤ b.id :=
    @List.pairwise_insertionSort _ (fun a b : FullState F => a.id ≤ b.id) _
      ⟨fun a b => le_total a.id b.id⟩ ⟨fun _ _ _ => le_trans⟩ states
  have hne : (sortById states).Pairwise fun a b => a.id ≠ b.id :=
    List.pairwise_map.1 (((sortById_perm states).map _).nodup_iff.2 h)
  exact (hle.and hne).imp fun ⟨hab, hab'⟩ => lt_of_le_of_ne hab hab'

/-- The loop finds a primary monitor if there is one. -/
theorem lastPrimary_spec (states : List (FullState F)) :
    (lastPrimary states = none ∧ ∀ s ∈ states, s.primary = false) ∨
    (∃ s ∈ states, s.primary = true ∧ lastPrimary states = some s) := by
  induction states using List.reverseRecOn with
  | nil => exact .inl ⟨rfl, by simp⟩
  | append_singleton states s ih =>
    rw [lastPrimary, List.foldl_append, List.foldl_cons, List.foldl_nil]
    by_cases hs : s.primary = true
    · rw [if_pos hs]
      exact .inr ⟨s, by simp, hs, rfl⟩
    · rw [if_neg hs]
      rcases ih with ⟨hnone, hall⟩ | ⟨t, ht, hprimary, hsome⟩
      · refine .inl ⟨hnone, List.forall_mem_append.2 ⟨hall, ?_⟩⟩
        simpa using hs
      · exact .inr ⟨t, List.mem_append_left _ ht, hprimary, hsome⟩

theorem collectStates_eq (storage : Storage F) : collectStates storage = storage.states.take 5 :=
  BoundedVector.stableEmplaceAll_toList _ _

/-- What comes out for a cache that is not empty. -/
theorem makeMonitorViewModels_eq (res : Resources) {storage : Storage F}
    (h : storage.states ≠ []) :
    makeMonitorViewModels res storage =
      match lastPrimary (sortById (storage.states.take 5)) with
      | none => .error (.hresultError HResult.invalidArg)
      | some primary =>
        .ok (some (.alias res primary :: (sortById (storage.states.take 5)).map (.ofState res))) := by
  rw [makeMonitorViewModels, if_neg (by simpa using h), collectStates_eq]

/-- **Which caches it survives**; `onMonitorChanged`, which calls it, is `noexcept`. -/
theorem returnsNormally_makeMonitorViewModels_iff (res : Resources) {storage : Storage F}
    (h : storage.states ≠ []) :
    ReturnsNormally (makeMonitorViewModels res storage) ↔
      ∃ s ∈ storage.states.take 5, s.primary = true := by
  rw [makeMonitorViewModels_eq res h]
  rcases lastPrimary_spec (sortById (storage.states.take 5)) with
    ⟨hnone, hall⟩ | ⟨s, hs, hprimary, hsome⟩
  · rw [hnone]
    refine iff_of_false (not_returnsNormally_error _) ?_
    rintro ⟨s, hs, hprimary⟩
    rw [hall s ((sortById_perm _).mem_iff.2 hs)] at hprimary
    cases hprimary
  · rw [hsome]
    exact iff_of_true (returnsNormally_ok _) ⟨s, (sortById_perm _).mem_iff.1 hs, hprimary⟩

/-- **The list is complete**, for every cache with a primary monitor and different numbers and for
every order of iteration, exactly if there are at most five monitors. -/
theorem makeMonitorViewModels_complete_iff (res : Resources) (storage : Storage F)
    (hprimary : ∃ s ∈ storage.states, s.primary = true)
    (hids : (storage.states.map fun s => s.id).Nodup) :
    Complete res storage (makeMonitorViewModels res storage) ↔ storage.states.length ≤ 5 := by
  have hne : storage.states ≠ [] := by
    obtain ⟨s, hs, -⟩ := hprimary
    exact List.ne_nil_of_mem hs
  rw [makeMonitorViewModels_eq res hne]
  constructor
  · rintro ⟨primary, sorted, -, -, hperm, -, hr⟩
    cases hlast : lastPrimary (sortById (storage.states.take 5)) with
    | none =>
      rw [hlast] at hr
      cases hr
    | some primary' =>
      -- as many items as states were collected
      rw [hlast] at hr
      have hlength := congrArg List.length (Option.some.inj (Except.ok.inj hr))
      simp only [List.length_cons, List.length_map, (sortById_perm _).length_eq, hperm.length_eq,
        List.length_take] at hlength
      omega
  · intro hlength
    rw [List.take_of_length_le hlength]
    obtain ⟨p, hp, hpprimary⟩ := hprimary
    rcases lastPrimary_spec (sortById storage.states) with ⟨-, hall⟩ | ⟨s, hs, hsprimary, hsome⟩
    · rw [hall p ((sortById_perm _).mem_iff.2 hp)] at hpprimary
      cases hpprimary
    · rw [hsome]
      exact ⟨s, sortById storage.states, (sortById_perm _).mem_iff.1 hs, hsprimary,
        sortById_perm _, sortById_pairwise hids, rfl⟩

/-- A monitor with a number and no name. -/
def numbered (id : ℕ) (primary : Bool) : Monitor.Handle × FullState ℚ :=
  (id, { handle := id, id := id, displayArea := ⟨0, 0, 1, 1⟩, workArea := ⟨0, 0, 1, 1⟩,
         friendlyName := [], primary := primary })

/-- Texts to try the list with. -/
def plainResources : Resources := ⟨[], id, fun _ => [], fun _ name => name⟩

theorem makeMonitorViewModels_two :
    let storage : Storage ℚ := ⟨[numbered 2 false, numbered 1 true], by decide⟩
    Complete plainResources storage (makeMonitorViewModels plainResources storage) ↔
      storage.states.length ≤ 5 :=
  makeMonitorViewModels_complete_iff plainResources ⟨[numbered 2 false, numbered 1 true], by decide⟩
    ⟨(numbered 1 true).2, by simp [Storage.states], rfl⟩ (by decide)

/-- Six monitors, the primary one last in the hash map: it is not collected, and the listener
throws. -/
theorem sixMonitors_not_complete :
    let storage : Storage ℚ :=
      ⟨[numbered 2 false, numbered 3 false, numbered 4 false, numbered 5 false, numbered 6 false,
          numbered 1 true], by decide⟩
    ¬ ReturnsNormally (makeMonitorViewModels plainResources storage) ∧
      ¬ Complete plainResources storage (makeMonitorViewModels plainResources storage) := by
  intro storage
  have hthrows : ¬ ReturnsNormally (makeMonitorViewModels plainResources storage) := by
    rw [returnsNormally_makeMonitorViewModels_iff plainResources (by simp [storage, Storage.states])]
    simp [storage, Storage.states, numbered]
  refine ⟨hthrows, ?_⟩
  rintro ⟨primary, sorted, -, -, -, -, hr⟩
  exact hthrows ⟨_, hr⟩

end RoxyGlance.Shell
