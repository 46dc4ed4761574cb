import RoxyGlance.Editor.RuleViewModel
import RoxyGlance.Lib.Positions

/-!
# Editing the filters of a rule

The filters of a rule are shown as a list, next to the list of the keys that have none.  Additions,
deletions and edits change what is shown; `applyChanges` hands them to the settings, the deletions
first.  A key may be waiting for its deletion several times, and be shown again meanwhile.

* `tracked_step`: the two lists of keys stay complementary, and wherever the settings differ from
  what is shown, something is pending;
* `filterEditing_agrees`: what this means for every sequence of commands.
-/

namespace RoxyGlance.Editor

open Settings
open Pending (Apply whenPending update zoom both each eachFrom mapState)

theorem nodup_kAllFilterKey : kAllFilterKey.Nodup := by decide

theorem mem_kAllFilterKey (key : FilterKey) : key ∈ kAllFilterKey := by
  cases key <;> decide

/-! ### Writing one filter -/

section Write

variable {F : Type} (env : Externals F)

/-- The node of a filter takes every pattern: no key stands twice, and under none of the three is a
container. -/
structure Writable (node : Node) : Prop where
  distinct : KeyedList.Distinct node.entries
  scalar : ∀ key : FilterKey, (node.child key.key).any Node.isContainer = false

/-- It still does after it has taken one. -/
theorem Writable.write {node node' : Node} {key : FilterKey} {value : StringAndMatchType}
    (h : Writable node) (hwrite : Filter.writeFilterStringMatchType env node key.key value = .ok node') :
    Writable node' := by
  have hother : ∀ key' : FilterKey, key' ≠ key →
      (node'.child key'.key).any Node.isContainer = false := by
    intro key' hne
    rw [Filter.child_of_write env hwrite fun heq => hne (Filter.Slot.key_injective heq)]
    exact h.scalar key'
  suffices hself : KeyedList.Distinct node'.entries ∧
      (node'.child key.key).any Node.isContainer = false by
    refine ⟨hself.1, fun key' => ?_⟩
    by_cases hkey : key' = key
    · exact hkey ▸ hself.2
    · exact hother key' hkey
  unfold Filter.writeFilterStringMatchType at hwrite
  split_ifs at hwrite with hempty hchild
  · cases hwrite
    refine ⟨h.distinct.erase key.key, ?_⟩
    rw [Node.child, Node.entries_removeChild, h.distinct.lookup_erase_self]
    rfl
  · cases hwrite
    exact ⟨h.distinct, h.scalar key⟩
  · obtain ⟨child, hchild, hnode⟩ := bind_eq_ok.1 hwrite
    cases hnode
    obtain ⟨u8str, -, hscalar⟩ :=
      (writeStringAndMatchTypeToNode_eq_ok env (h.scalar key)).1 hchild
    refine ⟨h.distinct.set key.key child, ?_⟩
    rw [Node.child_setChild_self, hscalar]
    rfl

/-- A text with a UTF-8 form is not refused by such a node. -/
theorem Writable.write_returns {node : Node} (h : Writable node) (key : FilterKey)
    {value : StringAndMatchType} (hvalue : ∃ u8str, toUtf8 env value.2 = .ok u8str) :
    ∃ node', Filter.writeFilterStringMatchType env node key.key value = .ok node' := by
  unfold Filter.writeFilterStringMatchType
  split_ifs
  · exact ⟨_, rfl⟩
  · exact ⟨_, rfl⟩
  · obtain ⟨u8str, hutf8⟩ := hvalue
    have hchild := (writeStringAndMatchTypeToNode_eq_ok env (h.scalar key)).2 ⟨u8str, hutf8, rfl⟩
    exact ⟨_, bind_eq_ok.2 ⟨_, hchild, rfl⟩⟩

/-- A write goes to the node of the filter, and replaces one pattern. -/
theorem setSettingsStringFilterValue_eq_ok {rule rule' : Rule} {key : FilterKey}
    {value : StringAndMatchType} :
    setSettingsStringFilterValue env rule key value = .ok rule' ↔
      ∃ node', Filter.writeFilterStringMatchType env (Rule.whereNode rule.node) key.key value
          = .ok node' ∧
        rule' = { rule with node := rule.node.setChild Key.kWhere node',
                            filter := key.update rule.filter value } := by
  rw [setSettingsStringFilterValue, bind_eq_ok]
  constructor
  · rintro ⟨⟨node', filter⟩, hset, hret⟩
    obtain ⟨hwrite, rfl⟩ := (Filter.Slot.set_eq_ok env).1 hset
    cases hret
    exact ⟨node', hwrite, rfl⟩
  · rintro ⟨node', hwrite, rfl⟩
    exact ⟨(node', key.update rule.filter value), (Filter.Slot.set_eq_ok env).2 ⟨hwrite, rfl⟩, rfl⟩

theorem filter_of_setSettings {rule rule' : Rule} {key : FilterKey} {value : StringAndMatchType}
    (h : setSettingsStringFilterValue env rule key value = .ok rule') :
    rule'.filter = key.update rule.filter value := by
  obtain ⟨node', -, rfl⟩ := (setSettingsStringFilterValue_eq_ok env).1 h
  rfl

theorem writable_of_setSettings {rule rule' : Rule} {key : FilterKey} {value : StringAndMatchType}
    (h : setSettingsStringFilterValue env rule key value = .ok rule')
    (hrule : Writable (Rule.whereNode rule.node)) : Writable (Rule.whereNode rule'.node) := by
  obtain ⟨node', hwrite, rfl⟩ := (setSettingsStringFilterValue_eq_ok env).1 h
  have hnode : Rule.whereNode (rule.node.setChild Key.kWhere node') = node' := by
    rw [Rule.whereNode, Node.child_setChild_self]
    rfl
  show Writable (Rule.whereNode (rule.node.setChild Key.kWhere node'))
  rw [hnode]
  exact hrule.write env hwrite

/-- The pattern that matches everything is never refused. -/
theorem clearSettingsStringFilterValue_returns (rule : Rule) (key : FilterKey) :
    ∃ rule', clearSettingsStringFilterValue env rule key = .ok rule' :=
  ⟨_, (setSettingsStringFilterValue_eq_ok env).2 ⟨_, if_pos ⟨rfl, rfl⟩, rfl⟩⟩

end Write

namespace StringFilterViewModel

/-- What a filter is shown as. -/
def shown (self : StringFilterViewModel) : StringAndMatchType := (self.valueMatchType, self.value)

@[simp] theorem key_setValueMatchType (self : StringFilterViewModel) (compare : StringMatchType) :
    (self.setValueMatchType compare).key = self.key := by
  unfold setValueMatchType
  split_ifs <;> rfl

@[simp] theorem key_setValue (self : StringFilterViewModel) (value : Wide) :
    (self.setValue value).key = self.key := by
  unfold setValue
  split_ifs <;> rfl

/-- Key and pattern as they are shown. -/
def face (self : StringFilterViewModel) : FilterKey × StringAndMatchType := (self.key, self.shown)

theorem map_key_eq_map_face (l : List StringFilterViewModel) :
    l.map key = (l.map face).map Prod.fst := by
  rw [List.map_map]
  rfl

variable {F : Type} (env : Externals F)

/-- Where a filter is not pending, the settings hold what it shows. -/
def Settled (rule : Rule) (vm : StringFilterViewModel) : Prop :=
  vm.hasPendingChanges = true ∨ vm.key.get rule.filter = vm.shown

/-- What applying the filters of a list leaves: they show the same, the settings hold it where
nothing is pending, and the other patterns are as they were. -/
structure Applied (rule : Rule) (vms : List StringFilterViewModel) (rule' : Rule)
    (vms' : List StringFilterViewModel) : Prop where
  faces : vms'.map face = vms.map face
  settled : ∀ vm ∈ vms', vm.Settled rule'
  others : ∀ key : FilterKey, key ∉ vms.map StringFilterViewModel.key →
    key.get rule'.filter = key.get rule.filter
  writable : Writable (Rule.whereNode rule.node) → Writable (Rule.whereNode rule'.node)

/-- Applying one filter hands it over, unless the write throws. -/
theorem applyChanges_cases {rule : Rule} {vm : StringFilterViewModel} (h : vm.Settled rule) :
    (∃ changed rule', applyChanges env (rule, vm)
        = .ok changed (rule', { vm with hasPendingChanges := false }) ∧
      vm.key.get rule'.filter = vm.shown ∧
      (∀ key : FilterKey, key ≠ vm.key → key.get rule'.filter = key.get rule.filter) ∧
      (Writable (Rule.whereNode rule.node) → Writable (Rule.whereNode rule'.node))) ∨
    ((∃ fault, applyChanges env (rule, vm) = .error fault (rule, vm)) ∧
      ¬ ∃ rule', setSettingsStringFilterValue env rule vm.key vm.shown = .ok rule') := by
  unfold applyChanges whenPending
  cases hpending : vm.hasPendingChanges with
  | false =>
    left
    refine ⟨false, rule, ?_, ?_, fun _ _ => rfl, fun h => h⟩
    · obtain ⟨key, valueMatchType, value, pending⟩ := vm
      cases hpending
      rfl
    · refine h.resolve_left ?_
      rw [hpending]
      exact Bool.false_ne_true
  | true =>
    simp only [hpending, if_true, update]
    cases hset : setSettingsStringFilterValue env rule vm.key (vm.valueMatchType, vm.value) with
    | ok rule' =>
      left
      refine ⟨true, rule', rfl, ?_, fun key hkey => ?_, writable_of_setSettings env hset⟩
      · rw [filter_of_setSettings env hset, Filter.Slot.get_update_self]
        rfl
      · rw [filter_of_setSettings env hset, Filter.Slot.get_update_of_ne hkey]
    | error fault =>
      right
      refine ⟨⟨fault, rfl⟩, ?_⟩
      rintro ⟨rule', hrule'⟩
      cases hset.symm.trans hrule'

/-- One filter that has been handed over, in front of others. -/
theorem Applied.cons {rule rule₁ rule' : Rule} {vm : StringFilterViewModel}
    {vms vms' : List StringFilterViewModel} (hget : vm.key.get rule₁.filter = vm.shown)
    (hothers : ∀ key : FilterKey, key ≠ vm.key → key.get rule₁.filter = key.get rule.filter)
    (hwritable : Writable (Rule.whereNode rule.node) → Writable (Rule.whereNode rule₁.node))
    (hnot : vm.key ∉ vms.map StringFilterViewModel.key) (h : Applied rule₁ vms rule' vms') :
    Applied rule (vm :: vms) rule' ({ vm with hasPendingChanges := false } :: vms') where
  faces := by
    rw [List.map_cons, List.map_cons, h.faces]
    rfl
  settled := by
    refine List.forall_mem_cons.2 ⟨Or.inr ?_, h.settled⟩
    exact (h.others vm.key hnot).trans hget
  others := by
    intro key hkey
    rw [List.map_cons, List.mem_cons, not_or] at hkey
    exact (h.others key hkey.2).trans (hothers key hkey.1)
  writable := fun hrule => h.writable (hwritable hrule)

/-- Applying the filters of a list hands all of them over, or throws at one that is refused. -/
theorem applied_eachFrom {rule : Rule} {vms : List StringFilterViewModel}
    (hnodup : (vms.map StringFilterViewModel.key).Nodup) (h : ∀ vm ∈ vms, vm.Settled rule) :
    match eachFrom (applyChanges env) vms rule with
    | .ok _ t => Applied rule vms t.1 t.2 ∧ ∀ vm ∈ t.2, vm.hasPendingChanges = false
    | .error _ t => Applied rule vms t.1 t.2 ∧ ¬ (Writable (Rule.whereNode rule.node) ∧
        ∀ vm ∈ vms, ∃ u8str, toUtf8 env vm.value = .ok u8str) := by
  induction vms generalizing rule with
  | nil => exact ⟨⟨rfl, h, fun _ _ => rfl, fun h => h⟩, List.forall_mem_nil _⟩
  | cons vm vms ih =>
    obtain ⟨hnot, hnodup⟩ := List.nodup_cons.1 hnodup
    rcases applyChanges_cases env (h vm List.mem_cons_self) with
      ⟨changed, rule₁, hrun, hget, hothers, hwritable⟩ | ⟨⟨fault, hrun⟩, hrefused⟩
    · -- the first filter changed its own entry only, so the others agree with the rule as before
      have hsettled : ∀ vm' ∈ vms, vm'.Settled rule₁ := by
        intro vm' hvm'
        have hne : vm'.key ≠ vm.key := fun heq => hnot (heq ▸ List.mem_map_of_mem hvm')
        rw [Settled, hothers vm'.key hne]
        exact h vm' (List.mem_cons_of_mem vm hvm')
      have hrest := ih hnodup hsettled
      rw [eachFrom, hrun]
      dsimp only
      cases hlater : eachFrom (applyChanges env) vms rule₁ with
      | ok changed' t =>
        rw [hlater] at hrest
        exact ⟨hrest.1.cons hget hothers hwritable hnot, List.forall_mem_cons.2 ⟨rfl, hrest.2⟩⟩
      | error fault t =>
        rw [hlater] at hrest
        refine ⟨hrest.1.cons hget hothers hwritable hnot, fun hall => hrest.2 ?_⟩
        exact ⟨hwritable hall.1, fun vm' hvm' => hall.2 vm' (List.mem_cons_of_mem vm hvm')⟩
    · rw [eachFrom, hrun]
      refine ⟨⟨rfl, h, fun _ _ => rfl, fun h => h⟩, fun hall => hrefused ?_⟩
      have hvalue : ∃ u8str, toUtf8 env vm.shown.2 = .ok u8str := hall.2 vm List.mem_cons_self
      obtain ⟨node', hwrite⟩ := hall.1.write_returns env vm.key hvalue
      exact ⟨_, (setSettingsStringFilterValue_eq_ok env).2 ⟨node', hwrite, rfl⟩⟩

end StringFilterViewModel

namespace RuleViewModel

variable {F : Type} [FloatLike F] (env : Externals F)

/-! ### Commands -/

/-- What the user may do about the filters of a rule. -/
inductive FilterCommand
  | add (key : FilterKey)
  | delete (key : FilterKey)
  | setMatchType (position : ℕ) (compare : StringMatchType)
  | setValue (position : ℕ) (value : Wide)
  | applyChanges
  deriving DecidableEq, Repr

/-- What a command does. -/
def command : FilterCommand → EStateM Fault (RuleViewModel F) Unit
  | .add key => edit env (.addFilter key)
  | .delete key => edit env (.deleteFilter key)
  | .setMatchType position compare => edit env (.valueMatchType position compare)
  | .setValue position value => edit env (.value position value)
  | .applyChanges => do
    let _ ← applyChanges env

/-- The state after a command, also if it throws. -/
def stateAfter {β : Type} : EStateM.Result Fault (RuleViewModel F) β → RuleViewModel F
  | .ok _ s => s
  | .error _ s => s

/-- One command. -/
def commandStep (s : RuleViewModel F) (c : FilterCommand) : RuleViewModel F :=
  stateAfter (command env c s)

/-- The command is one the user can give: what can be added is an unused key, what can be deleted or
edited is a filter that is shown, and a text is well formed. -/
def Offered (s : RuleViewModel F) : FilterCommand → Prop
  | .add key => key ∈ s.unusedFilterKeys
  | .delete key => key ∈ s.filters.map StringFilterViewModel.key
  | .setMatchType position _ => position < s.filters.length
  | .setValue position value =>
    position < s.filters.length ∧ value.length < 2 ^ 31 ∧ (env.encode value).isSome = true
  | .applyChanges => True

instance (s : RuleViewModel F) : (c : FilterCommand) → Decidable (Offered env s c)
  | .add key => inferInstanceAs (Decidable (key ∈ s.unusedFilterKeys))
  | .delete key => inferInstanceAs (Decidable (key ∈ s.filters.map StringFilterViewModel.key))
  | .setMatchType position _ => inferInstanceAs (Decidable (position < s.filters.length))
  | .setValue position value =>
    inferInstanceAs (Decidable (position < s.filters.length ∧ value.length < 2 ^ 31 ∧
      (env.encode value).isSome = true))
  | .applyChanges => inferInstanceAs (Decidable True)

/-! ### What the settings should hold -/

/-- What is shown for a key; a key that is not shown stands for the pattern that matches
everything. -/
def shownValue (s : RuleViewModel F) (key : FilterKey) : StringAndMatchType :=
  match s.filters.find? fun vm => vm.key = key with
  | some vm => vm.shown
  | none => (.contains, [])

/-- The settings hold what is shown. -/
def Agrees (s : RuleViewModel F) : Prop := ∀ key : FilterKey, key.get s.rule.filter = s.shownValue key

/-- The keys that are shown and those that are unused are all keys, each of them once, and the
unused ones stand in their order. -/
structure Listed (s : RuleViewModel F) : Prop where
  perm : (s.filters.map StringFilterViewModel.key ++ s.unusedFilterKeys).Perm kAllFilterKey
  ordered : s.unusedFilterKeys.Sublist kAllFilterKey

/-- Nothing about the filters is waiting to be applied. -/
def Clean (s : RuleViewModel F) : Prop :=
  s.deletingKeys = [] ∧ ∀ vm ∈ s.filters, vm.hasPendingChanges = false

/-- **The invariant**: the unused keys are those not shown, in their order; a key that waits for its
deletion and is shown again has its filter pending; and where nothing waits for a key, the settings
hold what is shown. -/
structure Tracked (s : RuleViewModel F) : Prop where
  nodup : (s.filters.map StringFilterViewModel.key).Nodup
  unused : s.unusedFilterKeys
    = kAllFilterKey.filter fun key => key ∉ s.filters.map StringFilterViewModel.key
  deleting : ∀ vm ∈ s.filters, vm.key ∈ s.deletingKeys → vm.hasPendingChanges = true
  shown : ∀ vm ∈ s.filters, vm.hasPendingChanges = true ∨ vm.key.get s.rule.filter = vm.shown
  hidden : ∀ key, key ∉ s.filters.map StringFilterViewModel.key →
    key ∈ s.deletingKeys ∨ key.get s.rule.filter = (.contains, [])

section Tracked

variable {s s' : RuleViewModel F}

omit [FloatLike F] in
theorem Tracked.listed (h : Tracked s) : Listed s where
  perm := by
    refine (List.perm_ext_iff_of_nodup ?_ nodup_kAllFilterKey).2 fun key => ?_
    · refine h.nodup.append (h.unused ▸ nodup_kAllFilterKey.filter _) ?_
      intro key hshown hunused
      rw [h.unused, List.mem_filter, decide_eq_true_eq] at hunused
      exact hunused.2 hshown
    · have hall := mem_kAllFilterKey key
      rw [List.mem_append, h.unused, List.mem_filter, decide_eq_true_eq]
      tauto
  ordered := h.unused ▸ List.filter_sublist

omit [FloatLike F] in
theorem Tracked.mem_unused (h : Tracked s) {key : FilterKey} :
    key ∈ s.unusedFilterKeys ↔ key ∉ s.filters.map StringFilterViewModel.key := by
  rw [h.unused, List.mem_filter, decide_eq_true_eq]
  exact and_iff_right (mem_kAllFilterKey key)

omit [FloatLike F] in
/-- A filter that is shown is the one found under its key. -/
theorem shownValue_of_mem (hnodup : (s.filters.map StringFilterViewModel.key).Nodup)
    {vm : StringFilterViewModel} (hvm : vm ∈ s.filters) : s.shownValue vm.key = vm.shown := by
  unfold shownValue
  cases hfind : s.filters.find? fun vm' => vm'.key = vm.key with
  | none =>
    have hnot := List.find?_eq_none.1 hfind vm hvm
    simp at hnot
  | some vm' =>
    have hkey : vm'.key = vm.key := by simpa using List.find?_some hfind
    have hmem := List.mem_of_find?_eq_some hfind
    rw [List.inj_on_of_nodup_map hnodup hmem hvm hkey]

omit [FloatLike F] in
theorem shownValue_of_not_mem {key : FilterKey}
    (h : key ∉ s.filters.map StringFilterViewModel.key) : s.shownValue key = (.contains, []) := by
  unfold shownValue
  have hfind : (s.filters.find? fun vm => vm.key = key) = none := by
    refine List.find?_eq_none.2 fun vm hvm hkey => h ?_
    exact List.mem_map.2 ⟨vm, hvm, of_decide_eq_true hkey⟩
  rw [hfind]

omit [FloatLike F] in
/-- **No change goes unreported**: where nothing is waiting, the settings hold what is shown. -/
theorem Tracked.agrees (h : Tracked s) (hclean : Clean s) : Agrees s := by
  intro key
  by_cases hkey : key ∈ s.filters.map StringFilterViewModel.key
  · obtain ⟨vm, hvm, rfl⟩ := List.mem_map.1 hkey
    rw [shownValue_of_mem h.nodup hvm]
    refine (h.shown vm hvm).resolve_left ?_
    rw [hclean.2 vm hvm]
    exact Bool.false_ne_true
  · rw [shownValue_of_not_mem hkey]
    refine (h.hidden key hkey).resolve_left ?_
    rw [hclean.1]
    exact List.not_mem_nil

/-! ### Edits -/

omit [FloatLike F] in
/-- The filter of an unused key is put at the end, and pending. -/
theorem tracked_addFilter (h : Tracked s) {key : FilterKey} (hkey : key ∈ s.unusedFilterKeys) :
    ∃ s', s.addFilter key = .ok s' ∧ Tracked s' := by
  refine ⟨_, if_pos hkey, ?_⟩
  have hnot := h.mem_unused.1 hkey
  have hkeys : (s.filters ++ [StringFilterViewModel.ofKey key]).map StringFilterViewModel.key
      = s.filters.map StringFilterViewModel.key ++ [key] := by
    rw [List.map_append]
    rfl
  refine ⟨?_, ?_, fun vm hvm hdeleting => ?_, fun vm hvm => ?_, fun key' hkey' => ?_⟩
  · rw [hkeys]
    exact h.nodup.append (List.nodup_singleton key) (List.disjoint_singleton.2 hnot)
  · rw [hkeys, h.unused, (nodup_kAllFilterKey.filter _).erase_eq_filter, List.filter_filter]
    refine List.filter_congr fun key' _ => ?_
    rw [Bool.eq_iff_iff]
    simp only [Bool.and_eq_true, bne_iff_ne, decide_eq_true_eq, List.mem_append, List.mem_singleton]
    tauto
  · rcases List.mem_append.1 hvm with hold | hnew
    · exact h.deleting vm hold hdeleting
    · rw [List.mem_singleton.1 hnew]
      rfl
  · rcases List.mem_append.1 hvm with hold | hnew
    · exact h.shown vm hold
    · left
      rw [List.mem_singleton.1 hnew]
      rfl
  · rw [hkeys] at hkey'
    exact h.hidden key' fun hmem => hkey' (List.mem_append_left _ hmem)

omit [FloatLike F] in
/-- A filter that is deleted waits for it, and its key goes back among the unused ones. -/
theorem tracked_deleteFilter (h : Tracked s) {key : FilterKey}
    (hkey : key ∈ s.filters.map StringFilterViewModel.key) :
    ∃ s', s.deleteFilter key = .ok s' ∧ Tracked s' := by
  obtain ⟨found, hfound, hfoundKey⟩ := List.mem_map.1 hkey
  have hany : (s.filters.any fun vm => vm.key = key) = true :=
    List.any_eq_true.2 ⟨found, hfound, decide_eq_true hfoundKey⟩
  refine ⟨_, if_pos hany, ?_⟩
  have hkeys : (s.filters.eraseP fun vm => vm.key = key).map StringFilterViewModel.key
      = (s.filters.map StringFilterViewModel.key).erase key := by
    rw [List.erase_eq_eraseP', List.eraseP_map]
    rfl
  -- no two filters have one key, so the key is gone once its first filter is
  have hmem : ∀ key', key' ∈ (s.filters.map StringFilterViewModel.key).erase key ↔
      key' ≠ key ∧ key' ∈ s.filters.map StringFilterViewModel.key := fun key' =>
    h.nodup.mem_erase_iff
  refine ⟨?_, ?_, fun vm hvm hdeleting => ?_, fun vm hvm => ?_, fun key' hkey' => ?_⟩
  · rw [hkeys]
    exact h.nodup.erase key
  · -- the unused keys stay in the order of all keys, because the position is counted in that order
    have hindex : insertionIndex s.unusedFilterKeys key
        = (kAllFilterKey.takeWhile fun ordered => ordered ≠ key).countP fun ordered =>
          decide (ordered ∉ s.filters.map StringFilterViewModel.key) := by
      unfold insertionIndex
      refine List.countP_congr fun ordered _ => ?_
      rw [decide_eq_true_eq, decide_eq_true_eq, h.mem_unused]
    show s.unusedFilterKeys.insertIdx (insertionIndex s.unusedFilterKeys key) key = _
    rw [hkeys, hindex, h.unused]
    refine Positions.insertIdx_filter nodup_kAllFilterKey (mem_kAllFilterKey key)
      (decide_eq_false (not_not.2 hkey)) fun ordered => ?_
    rw [Bool.eq_iff_iff, Bool.or_eq_true, decide_eq_true_eq, decide_eq_true_eq, decide_eq_true_eq,
      hmem]
    tauto
  · have hne : vm.key ≠ key := by
      have hin : vm.key ∈ (s.filters.eraseP fun vm => vm.key = key).map StringFilterViewModel.key :=
        List.mem_map_of_mem hvm
      rw [hkeys, hmem] at hin
      exact hin.1
    refine h.deleting vm (List.mem_of_mem_eraseP hvm) ?_
    rcases List.mem_append.1 hdeleting with hold | hnew
    · exact hold
    · exact absurd (List.mem_singleton.1 hnew) hne
  · exact h.shown vm (List.mem_of_mem_eraseP hvm)
  · rw [hkeys, hmem, not_and_or, not_not] at hkey'
    rcases hkey' with rfl | hold
    · exact Or.inl (List.mem_append_right _ (List.mem_singleton.2 rfl))
    · exact (h.hidden key' hold).imp_left (List.mem_append_left _)

/-- An item of a list with one position edited is an old one, or an old one that was edited. -/
theorem mem_of_mem_modify {α : Type} {l : List α} {position : ℕ} {set : α → α} {a : α}
    (h : a ∈ l.modify position set) : a ∈ l ∨ ∃ old ∈ l, a = set old := by
  obtain ⟨i, hi⟩ := List.mem_iff_getElem?.1 h
  rw [List.getElem?_modify, Option.map_eq_map, Option.map_eq_some_iff] at hi
  obtain ⟨old, hold, ha⟩ := hi
  split_ifs at ha
  · exact Or.inr ⟨old, List.mem_of_getElem? hold, ha.symm⟩
  · exact Or.inl (ha ▸ List.mem_of_getElem? hold)

/-- An edit that keeps the keys keeps the list of them. -/
theorem map_key_modify (l : List StringFilterViewModel) (position : ℕ)
    {set : StringFilterViewModel → StringFilterViewModel} (hkey : ∀ vm, (set vm).key = vm.key) :
    (l.modify position set).map StringFilterViewModel.key = l.map StringFilterViewModel.key := by
  apply List.ext_getElem?
  intro i
  rw [List.getElem?_map, List.getElem?_modify, List.getElem?_map, Option.map_eq_map,
    Option.map_map]
  congr 1
  funext vm
  show (if position = i then set vm else vm).key = vm.key
  split_ifs
  · exact hkey vm
  · rfl

omit [FloatLike F] in
/-- An edit of a filter changes nothing, or is pending. -/
theorem tracked_editFilter (h : Tracked s) (position : ℕ)
    {set : StringFilterViewModel → StringFilterViewModel} (hkey : ∀ vm, (set vm).key = vm.key)
    (hset : ∀ vm, set vm = vm ∨ (set vm).hasPendingChanges = true) :
    Tracked (s.editFilter position set) := by
  have hkeys := map_key_modify s.filters position hkey
  have hmem : ∀ vm ∈ s.filters.modify position set,
      vm ∈ s.filters ∨ vm.hasPendingChanges = true := by
    intro vm hvm
    rcases mem_of_mem_modify hvm with hold | ⟨old, hold, rfl⟩
    · exact Or.inl hold
    · rcases hset old with hsame | hpending
      · rw [hsame]
        exact Or.inl hold
      · exact Or.inr hpending
  refine ⟨?_, ?_, fun vm hvm hdeleting => ?_, fun vm hvm => ?_, fun key hnot => ?_⟩
  · show ((s.filters.modify position set).map StringFilterViewModel.key).Nodup
    rw [hkeys]
    exact h.nodup
  · show s.unusedFilterKeys = kAllFilterKey.filter fun key =>
      key ∉ (s.filters.modify position set).map StringFilterViewModel.key
    rw [hkeys]
    exact h.unused
  · rcases hmem vm hvm with hold | hpending
    · exact h.deleting vm hold hdeleting
    · exact hpending
  · rcases hmem vm hvm with hold | hpending
    · exact h.shown vm hold
    · exact Or.inl hpending
  · replace hnot : key ∉ (s.filters.modify position set).map StringFilterViewModel.key := hnot
    rw [hkeys] at hnot
    exact h.hidden key hnot

/-! ### Applying -/

omit [FloatLike F] in
/-- The deletions that are waiting clear their patterns, and leave the others alone. -/
theorem forM_clear (keys : List FilterKey) (rule : Rule) :
    ∃ rule', (keys.forM fun key => update fun rule => clearSettingsStringFilterValue env rule key)
        rule = .ok ⟨⟩ rule' ∧
      (∀ key : FilterKey, key.get rule'.filter
        = if key ∈ keys then (.contains, []) else key.get rule.filter) ∧
      (Writable (Rule.whereNode rule.node) → Writable (Rule.whereNode rule'.node)) := by
  induction keys generalizing rule with
  | nil => exact ⟨rule, rfl, fun key => (if_neg List.not_mem_nil).symm, fun h => h⟩
  | cons key keys ih =>
    obtain ⟨rule₁, hclear⟩ := clearSettingsStringFilterValue_returns env rule key
    obtain ⟨rule', hrest, hget, hwritable⟩ := ih rule₁
    refine ⟨rule', ?_, fun key' => ?_, fun h => hwritable (writable_of_setSettings env hclear h)⟩
    · have hfirst : update (fun rule => clearSettingsStringFilterValue env rule key) rule
          = .ok () rule₁ := by
        rw [update, hclear]
      show EStateM.bind (update fun rule => clearSettingsStringFilterValue env rule key)
        (fun _ => keys.forM fun key => update fun rule => clearSettingsStringFilterValue env rule key)
        rule = _
      rw [EStateM.bind, hfirst]
      exact hrest
    · rw [hget, filter_of_setSettings env hclear]
      by_cases hkey : key' = key
      · subst hkey
        rw [Filter.Slot.get_update_self, if_pos List.mem_cons_self]
        split_ifs <;> rfl
      · rw [Filter.Slot.get_update_of_ne hkey]
        simp only [List.mem_cons, hkey, false_or]

omit [FloatLike F] in
/-- After the deletions nothing waits for one, and the invariant holds still. -/
theorem tracked_applyDeletions (h : Tracked s) :
    ∃ rule, applyDeletions env s = .ok (!s.deletingKeys.isEmpty) { s with rule, deletingKeys := [] } ∧
      Tracked { s with rule, deletingKeys := [] } ∧
      (Writable (Rule.whereNode s.rule.node) → Writable (Rule.whereNode rule.node)) := by
  obtain ⟨rule, hrun, hget, hwritable⟩ := forM_clear env s.deletingKeys s.rule
  refine ⟨rule, ?_, ⟨h.nodup, h.unused, ?_, fun vm hvm => ?_, fun key hkey => ?_⟩, hwritable⟩
  · unfold applyDeletions whenPending
    by_cases hnone : s.deletingKeys = []
    · rw [hnone] at hrun
      cases hrun
      obtain ⟨rule, deletingKeys, action, filters, triggers, unused⟩ := s
      cases hnone
      rfl
    · have hsome : (!s.deletingKeys.isEmpty) = true := by simpa using hnone
      simp only [hsome, if_true, Pending.zoom, hrun, mapState]
  · intro vm _ hdeleting
    cases hdeleting
  · by_cases hdeleting : vm.key ∈ s.deletingKeys
    · exact Or.inl (h.deleting vm hvm hdeleting)
    · show vm.hasPendingChanges = true ∨ vm.key.get rule.filter = vm.shown
      rw [hget, if_neg hdeleting]
      exact h.shown vm hvm
  · right
    show key.get rule.filter = (.contains, [])
    rw [hget]
    split_ifs with hdeleting
    · rfl
    · exact (h.hidden key hkey).resolve_left hdeleting

omit [FloatLike F] in
/-- The invariant is about the settings of the filters and the two lists only. -/
theorem Tracked.congr (h : Tracked s) (hfilter : s'.rule.filter = s.rule.filter)
    (hdeleting : s'.deletingKeys = s.deletingKeys) (hfilters : s'.filters = s.filters)
    (hunused : s'.unusedFilterKeys = s.unusedFilterKeys) : Tracked s' := by
  obtain ⟨h₁, h₂, h₃, h₄, h₅⟩ := h
  constructor
  · rwa [hfilters]
  · rwa [hunused, hfilters]
  · rwa [hfilters, hdeleting]
  · rwa [hfilters, hfilter]
  · rwa [hfilters, hdeleting, hfilter]

omit [FloatLike F] in
theorem Tracked.applied (h : Tracked s) (hdeleting : s.deletingKeys = []) {rule : Rule}
    {filters : List StringFilterViewModel}
    (happlied : StringFilterViewModel.Applied s.rule s.filters rule filters) :
    Tracked { s with rule, filters } := by
  have hkeys : filters.map StringFilterViewModel.key
      = s.filters.map StringFilterViewModel.key := by
    rw [StringFilterViewModel.map_key_eq_map_face, happlied.faces,
      ← StringFilterViewModel.map_key_eq_map_face]
  refine ⟨?_, ?_, fun vm _ hmem => ?_, happlied.settled, fun key hkey => Or.inr ?_⟩
  · show (filters.map StringFilterViewModel.key).Nodup
    rw [hkeys]
    exact h.nodup
  · show s.unusedFilterKeys
      = kAllFilterKey.filter fun key => key ∉ filters.map StringFilterViewModel.key
    rw [hkeys]
    exact h.unused
  · replace hmem : vm.key ∈ s.deletingKeys := hmem
    rw [hdeleting] at hmem
    cases hmem
  · replace hkey : key ∉ filters.map StringFilterViewModel.key := hkey
    rw [hkeys] at hkey
    refine (happlied.others key hkey).trans ((h.hidden key hkey).resolve_left ?_)
    rw [hdeleting]
    exact List.not_mem_nil

/-- What may be relied on when nothing refuses to be written. -/
structure Ready (s : RuleViewModel F) : Prop where
  writable : Writable (Rule.whereNode s.rule.node)
  encodable : ∀ vm ∈ s.filters, ∃ u8str, toUtf8 env vm.value = .ok u8str
  action : s.action.any ActionViewModel.hasPendingChanges = false
  triggers : s.triggers.hasPendingChanges = false

omit [FloatLike F] in
/-- Applying the filters, with no deletion waiting. -/
theorem tracked_applyFilters (h : Tracked s) (hdeleting : s.deletingKeys = []) :
    match applyFilters env s with
    | .ok _ s' => Tracked s' ∧ Clean s' ∧ s'.filters.map StringFilterViewModel.face
        = s.filters.map StringFilterViewModel.face ∧ (Ready env s → Ready env s')
    | .error _ s' => Tracked s' ∧ ¬ Ready env s := by
  have happlied := StringFilterViewModel.applied_eachFrom env h.nodup h.shown
  unfold applyFilters Pending.zoom each
  dsimp only
  cases hrun : eachFrom (StringFilterViewModel.applyChanges env) s.filters s.rule with
  | ok changed t =>
    rw [hrun] at happlied
    obtain ⟨happlied, hdone⟩ := happlied
    refine ⟨h.applied hdeleting happlied, ⟨hdeleting, hdone⟩, happlied.faces, fun hready => ?_⟩
    refine ⟨happlied.writable hready.writable, fun vm hvm => ?_, hready.action, hready.triggers⟩
    -- the filter shows the text it showed before
    have hface : vm.face ∈ s.filters.map StringFilterViewModel.face := by
      rw [← happlied.faces]
      exact List.mem_map_of_mem hvm
    obtain ⟨old, hold, heq⟩ := List.mem_map.1 hface
    have hvalue : old.value = vm.value := congrArg (fun face => face.2.2) heq
    exact hvalue ▸ hready.encodable old hold
  | error fault t =>
    rw [hrun] at happlied
    obtain ⟨happlied, hrefused⟩ := happlied
    exact ⟨h.applied hdeleting happlied, fun hready => hrefused ⟨hready.writable, hready.encodable⟩⟩

/-- An action that is not pending is left alone. -/
theorem applyChanges_action_idle {node : Node} {action : Option (ActionViewModel F)}
    (h : action.any ActionViewModel.hasPendingChanges = false) :
    ActionViewModel.applyChanges env (node, action) = .ok false (node, action) := by
  cases action with
  | none => rfl
  | some vm =>
    unfold ActionViewModel.applyChanges
    cases vm with
    | absolute vm =>
      have hidle : AbsoluteMoveAndResizeViewModel.applyChanges env (node, vm) = .ok false (node, vm) := by
        refine Pending.whenPending_of_not ?_ _ _
        exact h
      dsimp only
      rw [hidle]
      rfl
    | relative vm =>
      have hidle : RelativeMoveAndResizeViewModel.applyChanges env (node, vm) = .ok false (node, vm) := by
        refine Pending.whenPending_of_not ?_ _ _
        exact h
      dsimp only
      rw [hidle]
      rfl

/-- Applying the action is about the node of the action. -/
theorem tracked_applyAction (h : Tracked s) (hdeleting : s.deletingKeys = []) :
    match applyAction env s with
    | .ok _ s' => Tracked s' ∧ s'.deletingKeys = [] ∧ s'.filters = s.filters ∧
        (Ready env s → Ready env s')
    | .error _ s' => Tracked s' ∧ ¬ Ready env s := by
  unfold applyAction Pending.zoom
  dsimp only
  cases hrun : ActionViewModel.applyChanges env (Rule.thenNode s.rule.node, s.action) with
  | ok changed t =>
    refine ⟨h.congr rfl rfl rfl rfl, hdeleting, rfl, fun hready => ?_⟩
    rw [applyChanges_action_idle env hready.action] at hrun
    cases hrun
    refine ⟨?_, hready.encodable, hready.action, hready.triggers⟩
    show Writable (Rule.whereNode (s.rule.node.setChild Key.kThen (Rule.thenNode s.rule.node)))
    rw [Rule.whereNode, Node.child_setChild_of_ne _ (by decide)]
    exact hready.writable
  | error fault t =>
    refine ⟨h.congr rfl rfl rfl rfl, fun hready => ?_⟩
    rw [applyChanges_action_idle env hready.action] at hrun
    cases hrun

omit [FloatLike F] in
/-- Applying the triggers is about the triggers, and never refused. -/
theorem tracked_applyTriggers (h : Tracked s) :
    ∃ changed s', applyTriggers s = .ok changed s' ∧ Tracked s' ∧ (Clean s → Clean s') ∧
      s'.filters = s.filters ∧ (Ready env s → Ready env s') := by
  unfold applyTriggers Pending.zoom
  dsimp only
  cases hpending : s.triggers.hasPendingChanges with
  | false =>
    have hidle : TriggersViewModel.applyChanges (s.rule, s.triggers)
        = .ok false (s.rule, s.triggers) := by
      refine Pending.whenPending_of_not ?_ _ _
      exact hpending
    rw [hidle]
    exact ⟨false, s, rfl, h, fun hclean => hclean, rfl, fun hready => hready⟩
  | true =>
    unfold TriggersViewModel.applyChanges whenPending
    simp only [hpending, if_true, update, mapState]
    refine ⟨true, _, rfl, h.congr ?_ rfl rfl rfl, fun hclean => hclean, rfl, fun hready => ?_⟩
    · show (s.rule.setTriggerFlags s.triggers.flags).filter = s.rule.filter
      unfold Rule.setTriggerFlags
      split_ifs <;> rfl
    · rw [hready.triggers] at hpending
      cases hpending

/-- **Applying everything**: when it returns, nothing about the filters is waiting; and it returns
when nothing refuses to be written. -/
theorem tracked_applyChanges (h : Tracked s) :
    match applyChanges env s with
    | .ok _ s' => Tracked s' ∧ Clean s' ∧ s'.filters.map StringFilterViewModel.face
        = s.filters.map StringFilterViewModel.face ∧ (Ready env s → Ready env s')
    | .error _ s' => Tracked s' ∧ ¬ Ready env s := by
  obtain ⟨rule, hdeletions, hs₁, hwritable⟩ := tracked_applyDeletions env h
  have hready₁ : Ready env s → Ready env { s with rule, deletingKeys := [] } := fun hready =>
    ⟨hwritable hready.writable, hready.encodable, hready.action, hready.triggers⟩
  have hsecond := tracked_applyAction env hs₁ rfl
  unfold applyChanges both
  simp only [hdeletions]
  cases haction : applyAction env { s with rule, deletingKeys := [] } with
  | error fault s₂ =>
    rw [haction] at hsecond
    exact ⟨hsecond.1, fun hready => hsecond.2 (hready₁ hready)⟩
  | ok changed₂ s₂ =>
    rw [haction] at hsecond
    obtain ⟨hs₂, hdeleting, hsame₂, hready₂⟩ := hsecond
    have hthird := tracked_applyFilters env hs₂ hdeleting
    dsimp only
    cases hfilters : applyFilters env s₂ with
    | error fault s₃ =>
      rw [hfilters] at hthird
      exact ⟨hthird.1, fun hready => hthird.2 (hready₂ (hready₁ hready))⟩
    | ok changed₃ s₃ =>
      rw [hfilters] at hthird
      obtain ⟨hs₃, hclean, hfaces, hready₃⟩ := hthird
      obtain ⟨changed₄, s₄, htriggers, hs₄, hclean₄, hsame₄, hready₄⟩ := tracked_applyTriggers env hs₃
      dsimp only
      rw [htriggers]
      refine ⟨hs₄, hclean₄ hclean, ?_, fun hready => hready₄ (hready₃ (hready₂ (hready₁ hready)))⟩
      rw [hsame₄, hfaces, hsame₂]

end Tracked

/-! ### Runs -/

section Runs

variable {s : RuleViewModel F}

/-- How a command ends: an addition or a deletion does not throw, and when `applyChanges` returns,
the settings hold what is shown, which is what was shown before. -/
def Outcome (s : RuleViewModel F) : FilterCommand → Prop
  | .add key => ∃ s', command env (.add key) s = .ok () s'
  | .delete key => ∃ s', command env (.delete key) s = .ok () s'
  | .setMatchType _ _ => True
  | .setValue _ _ => True
  | .applyChanges => ∀ s', command env .applyChanges s = .ok () s' → Agrees s' ∧
      s'.filters.map StringFilterViewModel.face = s.filters.map StringFilterViewModel.face

theorem command_applyChanges :
    command env .applyChanges s = match applyChanges env s with
      | .ok _ s' => .ok () s'
      | .error fault s' => .error fault s' := by
  show EStateM.bind (applyChanges env) (fun _ => EStateM.pure ()) s = _
  rw [EStateM.bind]
  cases applyChanges env s with
  | ok changed s' => rfl
  | error fault s' => rfl

/-- **One command**: the invariant holds afterwards, whether it throws or not. -/
theorem tracked_step (h : Tracked s) {c : FilterCommand} (hc : Offered env s c) :
    Tracked (commandStep env s c) ∧ Outcome env s c := by
  cases c with
  | add key =>
    obtain ⟨s', hadd, hs'⟩ := tracked_addFilter h hc
    have hrun : command env (.add key) s = .ok () s' := by
      show update (fun self => self.addFilter key) s = _
      rw [update, hadd]
    rw [commandStep, hrun]
    exact ⟨hs', s', hrun⟩
  | delete key =>
    obtain ⟨s', hdelete, hs'⟩ := tracked_deleteFilter h hc
    have hrun : command env (.delete key) s = .ok () s' := by
      show update (fun self => self.deleteFilter key) s = _
      rw [update, hdelete]
    rw [commandStep, hrun]
    exact ⟨hs', s', hrun⟩
  | setMatchType position compare =>
    exact ⟨tracked_editFilter h position (fun vm => vm.key_setValueMatchType compare)
      fun vm => vm.setValueMatchType_cases compare, trivial⟩
  | setValue position value =>
    exact ⟨tracked_editFilter h position (fun vm => vm.key_setValue value)
      fun vm => vm.setValue_cases value, trivial⟩
  | applyChanges =>
    have happly := tracked_applyChanges env h
    rw [commandStep, Outcome, command_applyChanges]
    cases hrun : applyChanges env s with
    | ok changed s' =>
      rw [hrun] at happly
      obtain ⟨hs', hclean, hfaces, -⟩ := happly
      refine ⟨hs', fun s'' heq => ?_⟩
      cases heq
      exact ⟨hs'.agrees hclean, hfaces⟩
    | error fault s' =>
      rw [hrun] at happly
      refine ⟨happly.1, fun s'' heq => ?_⟩
      cases heq

omit [FloatLike F] in
/-- A text that is offered and has a short UTF-8 form can be written. -/
theorem toUtf8_of_offered {value : Wide} (hlength : value.length < 2 ^ 31)
    (hencode : (env.encode value).isSome = true)
    (hshort : ∀ u8str, env.encode value = some u8str → u8str.length < 2 ^ 31) :
    ∃ u8str, toUtf8 env value = .ok u8str := by
  obtain ⟨u8str, hu8⟩ := Option.isSome_iff_exists.1 hencode
  exact ⟨u8str, (toUtf8_eq_ok env hlength).2 ⟨hu8, hshort u8str hu8⟩⟩

/-- The UTF-8 forms of the texts that are entered fit an `int`. -/
def ShortText : FilterCommand → Prop
  | .setValue _ value => ∀ u8str, env.encode value = some u8str → u8str.length < 2 ^ 31
  | _ => True

omit [FloatLike F] in
/-- All but `applyChanges` leave everything but the list of filters alone. -/
theorem Ready.congr {s' : RuleViewModel F} (hready : Ready env s) (hrule : s'.rule = s.rule)
    (haction : s'.action = s.action) (htriggers : s'.triggers = s.triggers)
    (hfilters : ∀ vm ∈ s'.filters, vm ∈ s.filters ∨ ∃ u8str, toUtf8 env vm.value = .ok u8str) :
    Ready env s' where
  writable := hrule ▸ hready.writable
  encodable := by
    intro vm hvm
    rcases hfilters vm hvm with hold | hnew
    · exact hready.encodable vm hold
    · exact hnew
  action := haction ▸ hready.action
  triggers := htriggers ▸ hready.triggers

omit [FloatLike F] in
theorem Ready.editFilter (hready : Ready env s) (position : ℕ)
    {set : StringFilterViewModel → StringFilterViewModel}
    (hset : ∀ vm ∈ s.filters, ∃ u8str, toUtf8 env (set vm).value = .ok u8str) :
    Ready env (s.editFilter position set) := by
  refine hready.congr env rfl rfl rfl fun vm hvm => ?_
  rcases mem_of_mem_modify hvm with hold | ⟨old, hold, rfl⟩
  · exact Or.inl hold
  · exact Or.inr (hset old hold)

omit [FloatLike F] in
theorem Ready.addFilter (hready : Ready env s) {key : FilterKey} (hkey : key ∈ s.unusedFilterKeys) :
    ∃ s', s.addFilter key = .ok s' ∧ Ready env s' := by
  refine ⟨_, if_pos hkey, hready.congr env rfl rfl rfl fun vm hvm => ?_⟩
  rcases List.mem_append.1 hvm with hold | hnew
  · exact Or.inl hold
  · rw [List.mem_singleton.1 hnew]
    exact Or.inr ⟨[], rfl⟩

omit [FloatLike F] in
theorem Ready.deleteFilter (hready : Ready env s) {s' : RuleViewModel F} {key : FilterKey}
    (h : s.deleteFilter key = .ok s') : Ready env s' := by
  unfold RuleViewModel.deleteFilter at h
  split_ifs at h
  cases h
  exact hready.congr env rfl rfl rfl fun vm hvm => Or.inl (List.mem_of_mem_eraseP hvm)

/-- A command does not make anything refuse to be written. -/
theorem ready_step (h : Tracked s) (hready : Ready env s) {c : FilterCommand}
    (hc : Offered env s c) (hshort : ShortText env c) :
    Ready env (commandStep env s c) ∧
      (c = .applyChanges → ∃ s', command env .applyChanges s = .ok () s') := by
  cases c with
  | add key =>
    refine ⟨?_, fun heq => by cases heq⟩
    obtain ⟨s', hadd, hs'⟩ := hready.addFilter env hc
    show Ready env (stateAfter (update (fun self => self.addFilter key) s))
    rw [update, hadd]
    exact hs'
  | delete key =>
    refine ⟨?_, fun heq => by cases heq⟩
    obtain ⟨s', hdelete, -⟩ := tracked_deleteFilter h hc
    show Ready env (stateAfter (update (fun self => self.deleteFilter key) s))
    rw [update, hdelete]
    exact hready.deleteFilter env hdelete
  | setMatchType position compare =>
    refine ⟨hready.editFilter env position fun vm hvm => ?_, fun heq => by cases heq⟩
    rw [StringFilterViewModel.value_setValueMatchType]
    exact hready.encodable vm hvm
  | setValue position value =>
    refine ⟨hready.editFilter env position fun vm _ => ?_, fun heq => by cases heq⟩
    rw [StringFilterViewModel.value_setValue]
    exact toUtf8_of_offered env hc.2.1 hc.2.2 hshort
  | applyChanges =>
    have happly := tracked_applyChanges env h
    rw [commandStep, command_applyChanges]
    cases hrun : applyChanges env s with
    | ok changed s' =>
      rw [hrun] at happly
      exact ⟨happly.2.2.2 hready, fun _ => ⟨s', rfl⟩⟩
    | error fault s' =>
      rw [hrun] at happly
      exact absurd hready happly.2

/-! ### A rule that is opened -/

/-- The view of a rule starts with what the settings hold. -/
theorem tracked_ofRule {rule : Rule} {vm : RuleViewModel F} (h : ofRule env rule = .ok vm) :
    Tracked vm := by
  obtain ⟨action, -, hvm⟩ := bind_eq_ok.1 h
  cases hvm
  have hkeys : ((kAllFilterKey.filter (hasFilterForKey rule.filter)).map
      (StringFilterViewModel.ofFilter rule.filter)).map StringFilterViewModel.key
      = kAllFilterKey.filter (hasFilterForKey rule.filter) := by
    rw [List.map_map]
    exact List.map_id _
  refine ⟨?_, ?_, fun _ _ hdeleting => ?_, fun vm hvm => ?_, fun key hkey => Or.inr ?_⟩
  · rw [hkeys]
    exact nodup_kAllFilterKey.filter _
  · rw [hkeys]
    refine List.filter_congr fun key _ => ?_
    rw [Bool.eq_iff_iff, Bool.not_eq_true', decide_eq_true_eq, List.mem_filter, not_and,
      Bool.not_eq_true]
    exact ⟨fun h _ => h, fun h => h (mem_kAllFilterKey key)⟩
  · cases hdeleting
  · obtain ⟨key, -, rfl⟩ := List.mem_map.1 hvm
    exact Or.inr rfl
  · rw [hkeys, List.mem_filter, not_and] at hkey
    have hempty := hkey (mem_kAllFilterKey key)
    rw [Bool.not_eq_true, hasFilterForKey, hasFilterValue, Bool.or_eq_false_iff] at hempty
    exact Prod.ext (not_not.1 (of_decide_eq_false hempty.1)) (not_not.1 (of_decide_eq_false hempty.2))

omit [FloatLike F] in
/-- A pattern that was read can be written. -/
theorem encodable_of_read {node : Option Node} {id : KeyId} {value : StringAndMatchType}
    (h : readStringAndMatchTypeFromNode env node id = .ok value) :
    ∃ u8str, toUtf8 env value.2 = .ok u8str := by
  obtain ⟨u8str, hlength, hdec⟩ := decode_of_readStringAndMatchType env h
  have hshort : value.2.length < 2 ^ 31 := lt_of_le_of_lt (env.length_decode_le hdec) hlength
  exact ⟨u8str, (toUtf8_eq_ok env hshort).2 ⟨env.encode_eq_some.2 hdec, hlength⟩⟩

/-- The view of a rule that was read from a node with distinct keys is ready. -/
theorem ready_ofRule {rule : Rule} (hrule : Rule.ofNode env rule.node rule.index = .ok rule)
    (hdistinct : KeyedList.Distinct (Rule.whereNode rule.node).entries) {vm : RuleViewModel F}
    (h : ofRule env rule = .ok vm) : Ready env vm := by
  have hfilter := ((Filter.ofNode_eq_ok_iff_get env).1 (Rule.ofNode_eq_ok env hrule).2.2.1).2
  obtain ⟨action, haction, hvm⟩ := bind_eq_ok.1 h
  cases hvm
  refine ⟨⟨hdistinct, fun key => Filter.not_isContainer_of_read env (hfilter key)⟩,
    fun vm hvm => ?_, ?_, rfl⟩
  · obtain ⟨key, -, rfl⟩ := List.mem_map.1 hvm
    exact encodable_of_read env (hfilter key)
  · have hmade := (ActionViewModel.makeActionViewModel_eq_ok env haction).1
    cases action with
    | none => rfl
    | some a => exact (hmade a rfl).2

/-- **Filter editing**: whatever filters are added, deleted, edited and applied, in any order, the
shown and the unused keys are all keys, and the settings hold what is shown wherever nothing is
waiting.  `applyChanges` leaves nothing waiting, and returns if the document has no key twice. -/
theorem filterEditing_agrees {rule : Rule} {vm : RuleViewModel F} (h : ofRule env rule = .ok vm)
    {cs : List FilterCommand} (hcs : Run.AllSteps (commandStep env) (Offered env) vm cs) :
    Run.Always (commandStep env) (fun s => Listed s ∧ (Clean s → Agrees s)) vm cs ∧
    Run.AllSteps (commandStep env) (Outcome env) vm cs ∧
    (Rule.ofNode env rule.node rule.index = .ok rule →
      KeyedList.Distinct (Rule.whereNode rule.node).entries → (∀ c ∈ cs, ShortText env c) →
      Run.AllSteps (commandStep env)
        (fun s c => c = .applyChanges → ∃ s', command env .applyChanges s = .ok () s') vm cs) := by
  have htracked : Tracked vm := tracked_ofRule env h
  have hstep : ∀ (s : RuleViewModel F) (c : FilterCommand), Tracked s → Offered env s c →
      Tracked (commandStep env s c) := fun s c hs hc => (tracked_step env hs hc).1
  refine ⟨?_, ?_, fun hrule hdistinct hshort => ?_⟩
  · exact (Run.always_of_allSteps hstep htracked hcs).mono fun s hs => ⟨hs.listed, hs.agrees⟩
  · have houtcome : ∀ (s : RuleViewModel F) (c : FilterCommand), Tracked s → Offered env s c →
        Outcome env s c := fun s c hs hc => (tracked_step env hs hc).2
    exact Run.AllSteps.imp_of_invariant hstep houtcome htracked hcs
  · -- nothing starts to refuse being written
    have hready : Ready env vm := ready_ofRule env hrule hdistinct h
    refine Run.AllSteps.imp_of_invariant (P := fun s => Tracked s ∧ Ready env s) ?_ ?_
      ⟨htracked, hready⟩ (hcs.and_forall hshort)
    · rintro s c ⟨hs, hready⟩ ⟨hc, hshort⟩
      exact ⟨hstep s c hs hc, (ready_step env hs hready hc hshort).1⟩
    · rintro s c ⟨hs, hready⟩ ⟨hc, hshort⟩
      exact (ready_step env hs hready hc hshort).2

end Runs

/-! ### One rule -/

/-- A rule about the processes with an `a` in their name. -/
def sampleRule : Rule where
  node := .map [
    (Key.kWhere, .map [
      (Key.kProcessKey, .scalar { quoted := false, text := some (ascii "a") })]),
    (Key.kThen, .map [])]
  name := []
  filter := {
    processImageName := (.contains, wide "a"), windowTitle := (.contains, [])
    windowClass := (.contains, []) }
  index := 0
  triggers := {}
  action := { type := .invalid }

/-- What is shown of it. -/
def sampleView : RuleViewModel ℚ where
  rule := sampleRule
  deletingKeys := []
  action := none
  filters := [{
    key := .processImageName, valueMatchType := .contains, value := wide "a"
    hasPendingChanges := false }]
  triggers := TriggersViewModel.ofRule sampleRule
  unusedFilterKeys := [.windowClass, .windowTitle]

/-- A filter that is deleted, added again and changed before anything is applied. -/
def sampleCommands : List FilterCommand :=
  [.delete .processImageName, .add .processImageName, .setValue 0 (wide "b"), .applyChanges]

theorem filterEditing_agrees_sample :
    ofRule asciiExternals sampleRule = .ok sampleView ∧
    Run.Always (commandStep asciiExternals) (fun s => Listed s ∧ (Clean s → Agrees s)) sampleView
      sampleCommands ∧
    Run.AllSteps (commandStep asciiExternals) (Outcome asciiExternals) sampleView sampleCommands ∧
    Run.AllSteps (commandStep asciiExternals) (fun s c => c = .applyChanges →
      ∃ s', command asciiExternals .applyChanges s = .ok () s') sampleView sampleCommands := by
  have hview : ofRule asciiExternals sampleRule = .ok sampleView := rfl
  have hread : Rule.ofNode asciiExternals sampleRule.node sampleRule.index = .ok sampleRule := rfl
  have hcs : Run.AllSteps (commandStep asciiExternals) (Offered asciiExternals) sampleView
      sampleCommands := ⟨by decide, by decide, by decide, trivial, trivial⟩
  have hshort : ∀ c ∈ sampleCommands, ShortText asciiExternals c := by
    intro c hc
    cases c with
    | setValue position value =>
      simp only [sampleCommands, List.mem_cons, reduceCtorEq, List.not_mem_nil, false_or, or_false,
        FilterCommand.setValue.injEq] at hc
      obtain ⟨rfl, rfl⟩ := hc
      intro u8str hu8
      cases hu8
      decide
    | _ => trivial
  obtain ⟨halways, houtcome, hreturns⟩ := filterEditing_agrees asciiExternals hview hcs
  exact ⟨hview, halways, houtcome, hreturns hread (by decide) hshort⟩

end RuleViewModel

end RoxyGlance.Editor
