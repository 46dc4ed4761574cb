import Mathlib.Data.Finset.Basic
import RoxyGlance.Lib.Run
import RoxyGlance.Fault

/-!
# The message hook of the tray menu

While its menu is open, `showMenu` has a hook installed.  The menu has a message loop of its own,
from which `showMenu` may be called again, to any depth.  Every activation removes the hook that it
has installed; one that is left over in `hhook_` is removed by the next activation.

An activation clears `hhook_` when its own hook is gone, whether or not that is the hook in `hhook_`.
When a nested activation has removed it as stale and could not remove its own, the hook that is left
is forgotten.

* `noLeak_iff`: in a run every installed hook is the one in `hhook_` exactly when no activation that
  finds its hook gone clears an installed one.
-/

namespace RoxyGlance.Win32.MenuHook

/-- `ERROR_INVALID_HOOK_HANDLE` -/
def errorInvalidHookHandle : BitVec 32 := 1404#32

/-- An error other than `ERROR_INVALID_HOOK_HANDLE`. -/
structure OtherError where
  code : BitVec 32
  ne_zero : code ≠ 0#32
  ne_invalid : code ≠ errorInvalidHookHandle

/-- A `TrayIconBase` and the system's hooks, which are numbered in the order of their installation.
-/
structure Hooks where
  /-- `hhook_` -/
  hhook : Option ℕ
  /-- The hooks that have not been removed. -/
  installed : Finset ℕ
  /-- The activations of `showMenu` whose menu is open, the innermost one first, by their `hhook`. -/
  activations : List (Option ℕ)
  /-- How many hooks have been installed. -/
  count : ℕ

namespace Hooks

/-- The object at first. -/
def init : Hooks := { hhook := none, installed := ∅, activations := [], count := 0 }

variable (s : Hooks)

/-- `UnhookWindowsHookEx`: what is not installed is an invalid handle; what is installed is removed,
unless there is another error. -/
def unhookWindowsHookEx (hhook : ℕ) (answer : Option OtherError) : Except (BitVec 32) Hooks :=
  if hhook ∈ s.installed then
    match answer with
    | none => .ok { s with installed := s.installed.erase hhook }
    | some lasterr => .error lasterr.code
  else .error errorInvalidHookHandle

/-- `tryUnhookMessageProc` -/
def tryUnhookMessageProc (hhook : ℕ) (answer : Option OtherError) : HResult × Hooks :=
  match s.unhookWindowsHookEx hhook answer with
  | .error lasterr =>
    if lasterr ≠ errorInvalidHookHandle then (HResult.ofWin32 lasterr, s)
    else (HResult.ok, { s with hhook := none })
  | .ok s => (HResult.ok, { s with hhook := none })

/-- What the calls before the menu return. -/
structure Opening where
  unhook : Option OtherError
  setForegroundWindow : Bool
  setWindowsHookEx : Bool

/-- The beginning of `showMenu`. -/
def removeStaleHook (answer : Option OtherError) : HResult × Hooks :=
  match s.hhook with
  | some staleHook => s.tryUnhookMessageProc staleHook answer
  | none => (HResult.ok, s)

/-- `showMenu` up to `TrackPopupMenuEx`: what is returned before, if anything. -/
def openMenu (answers : Opening) : Option HResult × Hooks :=
  let (hr, s) := s.removeStaleHook answers.unhook
  if hr.failed then (some hr, s)
  else if !answers.setForegroundWindow then (some HResult.fail, s)
  else if answers.setWindowsHookEx then
    (none, { hhook := some s.count
             installed := insert s.count s.installed
             activations := some s.count :: s.activations
             count := s.count + 1 })
  else (none, { s with activations := none :: s.activations })

/-- What `TrackPopupMenuEx` and the removal of the hook return.  A failure of `PostMessageW` behind
them is only logged. -/
structure Closing where
  trackPopupMenuEx : Option (BitVec 32)
  unhook : Option OtherError

/-- `showMenu` from the return of `TrackPopupMenuEx` on, with the `hhook` of the activation. -/
def closeMenu (hhook : Option ℕ) (answers : Closing) : HResult × Hooks :=
  let hr := match answers.trackPopupMenuEx with
    | none => HResult.ok
    | some lasterr => HResult.ofWin32 lasterr
  match hhook with
  | none => (hr, s)
  | some hhook =>
    let (unhookHr, s) := s.tryUnhookMessageProc hhook answers.unhook
    (if unhookHr.failed && hr == HResult.ok then unhookHr else hr, s)

/-- What happens next: another call of `showMenu`, or the end of the innermost menu. -/
inductive Event
  | opens (answers : Opening)
  | closes (answers : Closing)

def step : Event → Hooks
  | .opens answers => (s.openMenu answers).2
  | .closes answers =>
    match s.activations with
    | [] => s
    | hhook :: rest => ({ s with activations := rest }.closeMenu hhook answers).2

/-- Every hook that is installed can still be removed by way of `hhook_`. -/
def NoLeak : Prop := ∀ h ∈ s.installed, s.hhook = some h

/-- An activation that ends has its hook still installed, or there is no installed one in
`hhook_`. -/
def ClearsNothing : Event → Prop
  | .opens _ => True
  | .closes _ => ∀ h, s.activations.head? = some (some h) →
      h ∈ s.installed ∨ ∀ h' ∈ s.installed, s.hhook ≠ some h'

/-! ### What a step does -/

/-- The object without the hook in `hhook_`. -/
def cleared : Hooks :=
  match s.hhook with
  | some h => { s with hhook := none, installed := s.installed.erase h }
  | none => s

/-- Everything a step can do. -/
inductive Outcome : Event → Hooks → Prop
  | staleStays (answers : Opening) : Outcome (.opens answers) s
  | refused (answers : Opening) : Outcome (.opens answers) s.cleared
  | withoutHook (answers : Opening) :
      Outcome (.opens answers) { s.cleared with activations := none :: s.activations }
  | withHook (answers : Opening) :
      Outcome (.opens answers) { hhook := some s.count
                                 installed := insert s.count s.cleared.installed
                                 activations := some s.count :: s.activations
                                 count := s.count + 1 }
  | noMenu (answers : Closing) (h : s.activations = []) : Outcome (.closes answers) s
  | noHook (answers : Closing) {rest : List (Option ℕ)} (h : s.activations = none :: rest) :
      Outcome (.closes answers) { s with activations := rest }
  | hookStays (answers : Closing) {hook : ℕ} {rest : List (Option ℕ)}
      (h : s.activations = some hook :: rest) (hinstalled : hook ∈ s.installed) :
      Outcome (.closes answers) { s with activations := rest }
  | hookGone (answers : Closing) {hook : ℕ} {rest : List (Option ℕ)}
      (h : s.activations = some hook :: rest) :
      Outcome (.closes answers)
        { s with hhook := none, installed := s.installed.erase hook, activations := rest }

variable {s}

/-- A hook stays installed, with a failure, or it is gone and `hhook_` is empty. -/
theorem tryUnhookMessageProc_cases (hhook : ℕ) (answer : Option OtherError) :
    (hhook ∈ s.installed ∧ ∃ hr : HResult, hr.failed = true ∧
        s.tryUnhookMessageProc hhook answer = (hr, s)) ∨
      s.tryUnhookMessageProc hhook answer =
        (HResult.ok, { s with hhook := none, installed := s.installed.erase hhook }) := by
  unfold tryUnhookMessageProc unhookWindowsHookEx
  by_cases hinstalled : hhook ∈ s.installed
  · rw [if_pos hinstalled]
    cases answer with
    | none => exact Or.inr rfl
    | some lasterr =>
      refine Or.inl ⟨hinstalled, _, HResult.failed_ofWin32 lasterr.ne_zero, ?_⟩
      exact if_pos lasterr.ne_invalid
  · rw [if_neg hinstalled, Finset.erase_eq_of_notMem hinstalled]
    exact Or.inr (if_neg (not_not.2 rfl))

theorem cleared_activations : s.cleared.activations = s.activations := by
  unfold cleared
  split <;> rfl

theorem cleared_count : s.cleared.count = s.count := by
  unfold cleared
  split <;> rfl

theorem cleared_hhook : s.cleared.hhook = none := by
  unfold cleared
  split
  · rfl
  · assumption

/-- The stale hook stays installed, with a failure, or there is none left. -/
theorem removeStaleHook_cases (answer : Option OtherError) :
    (∃ hr : HResult, hr.failed = true ∧ s.removeStaleHook answer = (hr, s)) ∨
      s.removeStaleHook answer = (HResult.ok, s.cleared) := by
  unfold removeStaleHook cleared
  cases s.hhook with
  | none => exact Or.inr rfl
  | some stale => exact (tryUnhookMessageProc_cases stale answer).imp_left And.right

/-- **Everything a step can do.** -/
theorem step_outcome (e : Event) : Outcome s e (s.step e) := by
  cases e with
  | opens answers =>
    rcases removeStaleHook_cases (s := s) answers.unhook with ⟨hr, hfailed, hstale⟩ | hstale
    · simp only [step, openMenu, hstale, hfailed, if_true]
      exact .staleStays answers
    · have hok : HResult.ok.failed = false := by decide
      simp only [step, openMenu, hstale, hok, Bool.false_eq_true, if_false]
      split_ifs
      · exact .refused answers
      · simpa only [cleared_count, cleared_activations] using Outcome.withHook answers
      · simpa only [cleared_activations] using Outcome.withoutHook answers
  | closes answers =>
    cases hactivations : s.activations with
    | nil =>
      simp only [step, hactivations]
      exact .noMenu answers hactivations
    | cons hhook rest =>
      simp only [step, hactivations]
      cases hhook with
      | none => exact .noHook answers hactivations
      | some hook =>
        rcases tryUnhookMessageProc_cases (s := { s with activations := rest }) hook answers.unhook
          with ⟨hinstalled, hr, -, hunhook⟩ | hunhook
        · simp only [closeMenu, hunhook]
          exact .hookStays answers hactivations hinstalled
        · simp only [closeMenu, hunhook]
          exact .hookGone answers hactivations

/-! ### Runs -/

variable (s) in
/-- The numbers of the hooks follow the nesting. -/
structure Numbered : Prop where
  installed_lt : ∀ h ∈ s.installed, h < s.count
  activation_lt : ∀ h, some h ∈ s.activations → h < s.count
  newest : ∀ h, s.hhook = some h → h + 1 = s.count
  nested : s.activations.Pairwise fun inner outer => ∀ h ∈ inner, ∀ h' ∈ outer, h' < h

theorem numbered_init : init.Numbered where
  installed_lt h hmem := absurd hmem (Finset.notMem_empty h)
  activation_lt h hmem := by cases hmem
  newest h hhook := by cases hhook
  nested := .nil

theorem mem_of_mem_cleared {h : ℕ} (hmem : h ∈ s.cleared.installed) : h ∈ s.installed := by
  unfold cleared at hmem
  split at hmem
  · exact Finset.mem_of_mem_erase hmem
  · exact hmem

theorem Numbered.cleared (hs : s.Numbered) : s.cleared.Numbered where
  installed_lt h hmem := by
    rw [cleared_count]
    exact hs.installed_lt h (mem_of_mem_cleared hmem)
  activation_lt h hmem := by
    rw [cleared_activations] at hmem
    rw [cleared_count]
    exact hs.activation_lt h hmem
  newest h hhook := by
    rw [cleared_hhook] at hhook
    cases hhook
  nested := by
    rw [cleared_activations]
    exact hs.nested

theorem Numbered.tail (hs : s.Numbered) {hhook : Option ℕ} {rest : List (Option ℕ)}
    (h : s.activations = hhook :: rest) : { s with activations := rest }.Numbered where
  installed_lt := hs.installed_lt
  activation_lt hook hmem := hs.activation_lt hook (by rw [h]; exact List.mem_cons_of_mem _ hmem)
  newest := hs.newest
  nested := by
    have hnested := hs.nested
    rw [h] at hnested
    exact (List.pairwise_cons.1 hnested).2

/-- **Every step keeps the numbering.** -/
theorem numbered_step (hs : s.Numbered) (e : Event) : (s.step e).Numbered := by
  have houtcome := step_outcome (s := s) e
  generalize s.step e = s' at houtcome ⊢
  cases houtcome with
  | staleStays => exact hs
  | refused => exact hs.cleared
  | withoutHook =>
    have hcleared := hs.cleared
    refine ⟨hcleared.installed_lt, fun h hmem => ?_, hcleared.newest, ?_⟩
    · rcases List.mem_cons.1 hmem with hnone | hmem
      · cases hnone
      · rw [cleared_count]
        exact hs.activation_lt h hmem
    · exact List.pairwise_cons.2 ⟨fun _ _ _ hnone => (by cases hnone), hs.nested⟩
  | withHook =>
    refine ⟨fun h hmem => ?_, fun h hmem => ?_, fun h hhook => ?_, ?_⟩
    · rcases Finset.mem_insert.1 hmem with rfl | hmem
      · exact Nat.lt_succ_self _
      · exact Nat.lt_succ_of_lt (hs.installed_lt h (mem_of_mem_cleared hmem))
    · rcases List.mem_cons.1 hmem with hnew | hmem
      · cases hnew
        exact Nat.lt_succ_self _
      · exact Nat.lt_succ_of_lt (hs.activation_lt h hmem)
    · cases hhook
      rfl
    · refine List.pairwise_cons.2 ⟨?_, hs.nested⟩
      rintro outer houter h hnew h' rfl
      cases hnew
      exact hs.activation_lt h' houter
  | noMenu => exact hs
  | noHook _ hactivations => exact hs.tail hactivations
  | hookStays _ hactivations => exact hs.tail hactivations
  | hookGone _ hactivations =>
    have htail := hs.tail hactivations
    refine ⟨fun h hmem => ?_, htail.activation_lt, fun h hhook => ?_, htail.nested⟩
    · exact hs.installed_lt h (Finset.mem_of_mem_erase hmem)
    · cases hhook

/-- With every installed hook in `hhook_`, nothing is installed once that has been cleared. -/
theorem NoLeak.cleared_installed (hs : s.NoLeak) (h : ℕ) : h ∉ s.cleared.installed := by
  intro hmem
  have hhook := hs h (mem_of_mem_cleared hmem)
  rw [cleared, hhook] at hmem
  exact Finset.notMem_erase h s.installed hmem

/-- **A guarded step leaks no hook.** -/
theorem noLeak_step (hs : s.NoLeak) {e : Event} (he : s.ClearsNothing e) : (s.step e).NoLeak := by
  have houtcome := step_outcome (s := s) e
  generalize s.step e = s' at houtcome ⊢
  cases houtcome with
  | staleStays => exact hs
  | refused => exact fun h hmem => absurd hmem (hs.cleared_installed h)
  | withoutHook => exact fun h hmem => absurd hmem (hs.cleared_installed h)
  | withHook =>
    intro h hmem
    rcases Finset.mem_insert.1 hmem with rfl | hmem
    · rfl
    · exact absurd hmem (hs.cleared_installed h)
  | noMenu => exact hs
  | noHook => exact hs
  | hookStays => exact hs
  | @hookGone _ hook rest hactivations =>
    intro h hmem
    obtain ⟨hne, hmem⟩ := Finset.mem_erase.1 hmem
    have hhook := hs h hmem
    exfalso
    rcases he hook (by rw [hactivations]; rfl) with hinstalled | hnone
    · -- its own hook is the one in `hhook_`
      rw [hs hook hinstalled, Option.some.injEq] at hhook
      exact hne hhook.symm
    · exact hnone h hmem hhook

variable (s) in
/-- A hook that neither `hhook_` nor an activation can remove any more. -/
def Leaked : Prop := ∃ h ∈ s.installed, s.hhook ≠ some h ∧ some h ∉ s.activations

/-- **An unguarded step leaks a hook**: the one it clears is newer than those of the activations that
are left. -/
theorem leaked_of_not_clearsNothing (hs : s.Numbered) {e : Event} (he : ¬ s.ClearsNothing e) :
    (s.step e).Leaked := by
  cases e with
  | opens answers => exact absurd trivial he
  | closes answers =>
    simp only [ClearsNothing, not_forall, not_or, not_not] at he
    obtain ⟨hook, hhead, hgone, h, hmem, hhook⟩ := he
    obtain ⟨rest, hactivations⟩ : ∃ rest, s.activations = some hook :: rest :=
      ⟨_, List.eq_cons_of_mem_head? hhead⟩
    -- the hook in `hhook_` was installed last, after that of this activation
    have hnewer : hook < h := by
      have hnewest := hs.newest h hhook
      have hlt := hs.activation_lt hook (by rw [hactivations]; exact List.mem_cons_self)
      have hne : hook ≠ h := fun heq => hgone (heq ▸ hmem)
      omega
    have hrest : some h ∉ rest := by
      intro hin
      have hnested := hs.nested
      rw [hactivations] at hnested
      have hlt := (List.pairwise_cons.1 hnested).1 _ hin hook rfl h rfl
      omega
    have hstep : s.step (.closes answers) =
        { s with hhook := none, installed := s.installed.erase hook, activations := rest } := by
      simp only [step, hactivations, closeMenu]
      rcases tryUnhookMessageProc_cases (s := { s with activations := rest }) hook answers.unhook
        with ⟨hinstalled, -⟩ | hunhook
      · exact absurd hinstalled hgone
      · rw [hunhook]
    rw [hstep]
    exact ⟨h, Finset.mem_erase.2 ⟨hnewer.ne', hmem⟩, (Option.some_ne_none h).symm, hrest⟩

/-- **A leaked hook stays leaked**, because the hooks to come have other numbers. -/
theorem leaked_step (hs : s.Numbered) (hleaked : s.Leaked) (e : Event) : (s.step e).Leaked := by
  obtain ⟨h, hmem, hhook, hactivations⟩ := hleaked
  have hcleared : h ∈ s.cleared.installed := by
    unfold cleared
    split
    · rename_i stale hstale
      exact Finset.mem_erase.2 ⟨fun heq => hhook (heq ▸ hstale), hmem⟩
    · exact hmem
  have hclearedHook : s.cleared.hhook ≠ some h := by
    rw [cleared_hhook]
    exact (Option.some_ne_none h).symm
  have htail : ∀ {hhook' : Option ℕ} {rest : List (Option ℕ)}, s.activations = hhook' :: rest →
      some h ∉ rest := fun heq hin => hactivations (heq ▸ List.mem_cons_of_mem _ hin)
  have houtcome := step_outcome (s := s) e
  generalize s.step e = s' at houtcome ⊢
  cases houtcome with
  | staleStays => exact ⟨h, hmem, hhook, hactivations⟩
  | refused =>
    refine ⟨h, hcleared, hclearedHook, ?_⟩
    rwa [cleared_activations]
  | withoutHook =>
    refine ⟨h, hcleared, hclearedHook, fun hin => ?_⟩
    exact hactivations ((List.mem_cons.1 hin).resolve_left (Option.some_ne_none h))
  | withHook =>
    -- a new hook has a number of its own, so it does not bring the leaked one back
    have hne : s.count ≠ h := (hs.installed_lt h hmem).ne'
    refine ⟨h, Finset.mem_insert_of_mem hcleared, fun heq => hne (Option.some.inj heq), ?_⟩
    intro hin
    rcases List.mem_cons.1 hin with heq | hin
    · exact hne (Option.some.inj heq).symm
    · exact hactivations hin
  | noMenu => exact ⟨h, hmem, hhook, hactivations⟩
  | noHook _ heq => exact ⟨h, hmem, hhook, htail heq⟩
  | hookStays _ heq => exact ⟨h, hmem, hhook, htail heq⟩
  | @hookGone _ hook rest heq =>
    refine ⟨h, Finset.mem_erase.2 ⟨?_, hmem⟩, (Option.some_ne_none h).symm, htail heq⟩
    rintro rfl
    exact hactivations (heq ▸ List.mem_cons_self)

/-- **When no hook is leaked**: after a run every installed hook is the one in `hhook_` exactly when
no activation that found its own hook gone cleared an installed one. -/
theorem noLeak_iff (events : List Event) : (events.foldl step init).NoLeak ↔
    Run.AllSteps step ClearsNothing init events := by
  have htrap : ∀ (s : Hooks) e, s.Numbered ∧ s.Leaked → (s.step e).Numbered ∧ (s.step e).Leaked :=
    fun s e hs => ⟨numbered_step hs.1 e, leaked_step hs.1 hs.2 e⟩
  have hinit : init.Numbered ∧ init.NoLeak :=
    ⟨numbered_init, fun h hmem => absurd hmem (Finset.notMem_empty h)⟩
  refine Run.last_iff_of_trap (P := fun s : Hooks => s.Numbered ∧ s.NoLeak) ?_ ?_ htrap
    (fun _ hs => hs.2) ?_ hinit events
  · exact fun s e hs he => ⟨numbered_step hs.1 e, noLeak_step hs.2 he⟩
  · exact fun s e hs he => ⟨numbered_step hs.1 e, leaked_of_not_clearsNothing hs.1 he⟩
  · rintro s ⟨-, h, hmem, hhook, -⟩ hs
    exact hhook (hs h hmem)

/-- The system refuses for another reason. -/
def accessDenied : OtherError := ⟨5#32, by decide, by decide⟩

/-- The menu is opened, and once more from its message loop; the hook of the inner activation cannot
be removed, and the outer one has none. -/
def nestedMenus : List Event :=
  [.opens ⟨none, true, true⟩, .opens ⟨none, true, true⟩, .closes ⟨none, some accessDenied⟩,
    .closes ⟨none, none⟩]

/-- After them the second hook is installed, and `hhook_` is empty. -/
theorem nestedMenus_leak :
    (nestedMenus.foldl step init).activations = [] ∧ (nestedMenus.foldl step init).hhook = none ∧
      1 ∈ (nestedMenus.foldl step init).installed ∧ ¬ (nestedMenus.foldl step init).NoLeak := by
  have hhook : (nestedMenus.foldl step init).hhook = none := by decide
  have hmem : 1 ∈ (nestedMenus.foldl step init).installed := by decide
  refine ⟨by decide, hhook, hmem, fun hno => ?_⟩
  have hsome := hno 1 hmem
  rw [hhook] at hsome
  cases hsome

end Hooks

end RoxyGlance.Win32.MenuHook
