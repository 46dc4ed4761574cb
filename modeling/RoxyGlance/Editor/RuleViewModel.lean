import RoxyGlance.Editor.ActionViewModel
import RoxyGlance.Settings.FilterRoundTrip

/-!
# The editor's view of a rule

`RuleViewModel` shows one rule: its action, its filters and its triggers, each with edits of its
own that wait for `applyChanges`, and the filters that are to be deleted.  Two things reach the
document at once: an edit of the action type, and nothing else.

* `RuleViewModel.settles`: applying the edits of a rule leaves none pending;
* `RuleViewModel.edited`: an edit changes nothing or is pending afterwards, but for the choice of
  no action.
-/

namespace RoxyGlance.Editor

open Settings
open Pending (Apply Keeps Settles Frames whenPending update zoom both each)

/-! ### Rules in the document -/

/-- The keys `checkRuleNode` asks for. -/
structure IsRule (node : Node) : Prop where
  isMap : node.isMap = true
  hasWhere : node.hasChild Key.kWhere = true
  hasThen : node.hasChild Key.kThen = true

theorem hasChild_setChild {node : Node} {key key' : Bytes} (h : node.hasChild key' = true)
    (v : Node) : (node.setChild key v).hasChild key' = true := by
  unfold Node.hasChild at *
  by_cases hkey : key' = key
  · rw [hkey, Node.child_setChild_self]
    rfl
  · rw [Node.child_setChild_of_ne node hkey]
    exact h

theorem IsRule.setChild {node : Node} (h : IsRule node) (key : Bytes) (v : Node) :
    IsRule (node.setChild key v) where
  isMap := rfl
  hasWhere := hasChild_setChild h.hasWhere v
  hasThen := hasChild_setChild h.hasThen v

/-- A new entry in front of another one hides none with a different key. -/
theorem lookup_insertBefore_of_ne {key key' : Bytes} {e : Bytes × Node} (h : e.1 ≠ key')
    (l : List (Bytes × Node)) :
    KeyedList.lookup key' (insertBefore key e l) = KeyedList.lookup key' l := by
  induction l with
  | nil => simp [insertBefore, KeyedList.lookup, h]
  | cons e' l ih =>
    unfold insertBefore
    split_ifs with he
    · rw [KeyedList.lookup, if_neg h]
    · rw [KeyedList.lookup, KeyedList.lookup, ih]

theorem IsRule.writeTriggerFlags {node : Node} (h : IsRule node) (value : TriggerFlags) :
    IsRule (writeTriggerFlagsToNode node value) := by
  unfold writeTriggerFlagsToNode
  cases hwhen : node.child Key.kWhen with
  | some when => exact h.setChild Key.kWhen _
  | none =>
    have hchild : ∀ key, Key.kWhen ≠ key → (Node.map (insertBefore Key.kWhere
        (Key.kWhen, updateWhen value (.seq [])) node.entries)).hasChild key = node.hasChild key := by
      intro key hkey
      unfold Node.hasChild Node.child
      rw [Node.entries_map, lookup_insertBefore_of_ne hkey]
    refine ⟨rfl, ?_, ?_⟩
    · rw [hchild Key.kWhere (by decide)]
      exact h.hasWhere
    · rw [hchild Key.kThen (by decide)]
      exact h.hasThen

theorem isRule_of_checkRuleNode {node : Node} (h : checkRuleNode node = .ok ()) : IsRule node := by
  unfold checkRuleNode throwParse at h
  cases hmap : node.isMap with
  | false => simp [hmap] at h
  | true =>
    cases hwhere : node.hasChild Key.kWhere with
    | false => simp [hmap, hwhere] at h
    | true =>
      cases hthen : node.hasChild Key.kThen with
      | false => simp [hmap, hwhere, hthen] at h
      | true => exact ⟨hmap, hwhere, hthen⟩

/-- Putting back a child changes nothing. -/
theorem setChild_child {node v : Node} {key : Bytes} (h : node.child key = some v) :
    node.setChild key v = node := by
  have hset : ∀ l : List (Bytes × Node), KeyedList.lookup key l = some v →
      KeyedList.set key v l = l := by
    intro l hl
    induction l with
    | nil => cases hl
    | cons e l ih =>
      obtain ⟨k, w⟩ := e
      by_cases hk : k = key
      · simp only [KeyedList.lookup, if_pos hk, Option.some.injEq] at hl
        rw [KeyedList.set, if_pos hk, ← hk, hl]
      · rw [KeyedList.lookup, if_neg hk] at hl
        rw [KeyedList.set, if_neg hk, ih hl]
  cases node with
  | map entries => exact congrArg Node.map (hset entries h)
  | scalar s => cases h
  | seq items => cases h

/-- Putting back the node of the action changes nothing. -/
theorem IsRule.setThen {node : Node} (h : IsRule node) :
    node.setChild Key.kThen (Rule.thenNode node) = node := by
  obtain ⟨v, hv⟩ := Option.isSome_iff_exists.1 h.hasThen
  rw [Rule.thenNode, hv]
  exact setChild_child hv

/-! ### Filters -/

/-- `FilterKey` -/
abbrev FilterKey := Filter.Slot

/-- `kAllFilterKey` -/
def kAllFilterKey : List FilterKey := [.processImageName, .windowClass, .windowTitle]

/-- `hasFilterValue` -/
def hasFilterValue (value : StringAndMatchType) : Bool :=
  decide (value.1 ≠ .contains) || decide (value.2 ≠ [])

/-- `hasFilterForKey` -/
def hasFilterForKey (filter : Filter) (key : FilterKey) : Bool := hasFilterValue (key.get filter)

section Filters

variable {F : Type} (env : Externals F)

/-- `setSettingsStringFilterValue`, on the filter of a rule. -/
def setSettingsStringFilterValue (rule : Rule) (key : FilterKey) (value : StringAndMatchType) :
    Except Fault Rule := do
  let (whereNode, filter) ← key.set env (Rule.whereNode rule.node) rule.filter value
  .ok { rule with node := rule.node.setChild Key.kWhere whereNode, filter }

/-- `clearSettingsStringFilterValue` -/
def clearSettingsStringFilterValue (rule : Rule) (key : FilterKey) : Except Fault Rule :=
  setSettingsStringFilterValue env rule key (.contains, [])

/-- `StringFilterViewModel`, without its filter. -/
structure StringFilterViewModel where
  key : FilterKey
  valueMatchType : StringMatchType
  value : Wide
  hasPendingChanges : Bool
  deriving DecidableEq, Repr

namespace StringFilterViewModel

/-- The constructor, for a pattern the filter has. -/
def ofFilter (filter : Filter) (key : FilterKey) : StringFilterViewModel :=
  { key, valueMatchType := (key.get filter).1, value := (key.get filter).2,
    hasPendingChanges := false }

/-- The constructor, for a new one. -/
def ofKey (key : FilterKey) : StringFilterViewModel :=
  { key, valueMatchType := .contains, value := [], hasPendingChanges := true }

/-- `ValueMatchType` -/
def setValueMatchType (self : StringFilterViewModel) (compare : StringMatchType) :
    StringFilterViewModel :=
  if self.valueMatchType = compare then self
  else { self with valueMatchType := compare, hasPendingChanges := true }

/-- `Value` -/
def setValue (self : StringFilterViewModel) (value : Wide) : StringFilterViewModel :=
  if self.value = value then self else { self with value, hasPendingChanges := true }

/-- A setter changes nothing, or its change is pending. -/
theorem setValueMatchType_cases (self : StringFilterViewModel) (compare : StringMatchType) :
    self.setValueMatchType compare = self ∨
      (self.setValueMatchType compare).hasPendingChanges = true := by
  unfold setValueMatchType
  split_ifs
  · exact Or.inl rfl
  · exact Or.inr rfl

theorem setValue_cases (self : StringFilterViewModel) (value : Wide) :
    self.setValue value = self ∨ (self.setValue value).hasPendingChanges = true := by
  unfold setValue
  split_ifs
  · exact Or.inl rfl
  · exact Or.inr rfl

@[simp] theorem value_setValueMatchType (self : StringFilterViewModel) (compare : StringMatchType) :
    (self.setValueMatchType compare).value = self.value := by
  unfold setValueMatchType
  split_ifs <;> rfl

@[simp] theorem value_setValue (self : StringFilterViewModel) (value : Wide) :
    (self.setValue value).value = value := by
  unfold setValue
  split_ifs with h
  · exact h
  · rfl

/-- `applyChanges` -/
def applyChanges : Apply Fault (Rule × StringFilterViewModel) :=
  whenPending (fun s => s.2.hasPendingChanges)
    (fun s => (s.1, { s.2 with hasPendingChanges := false }))
    (update fun s => do
      let rule ← setSettingsStringFilterValue env s.1 s.2.key (s.2.valueMatchType, s.2.value)
      .ok (rule, s.2))

end StringFilterViewModel

/-- A text that is short enough is at most refused by the conversion. -/
theorem toUtf8_throwsOnly {text : Wide} (h : text.length < 2 ^ 31) :
    ThrowsOnly Reported (toUtf8 env text) := by
  unfold toUtf8
  split_ifs with hnil
  · exact throwsOnly_ok _
  · have hpos : 0 < text.length := List.length_pos_iff.2 hnil
    have hlen : ¬ toInt text.length ≤ 0 := by
      rw [toInt_of_lt h]
      omega
    unfold TextCodec.convertUtf16ToUtf8
    rw [if_neg hlen]
    cases env.encode (text.take (toInt text.length).toNat) with
    | none => exact throwsOnly_error.2 (reported_throwHResult _)
    | some b =>
      dsimp only
      split_ifs
      · exact throwsOnly_ok _
      · exact throwsOnly_error.2 (reported_throwHResult _)

theorem setSettingsStringFilterValue_throwsOnly (rule : Rule) (key : FilterKey)
    {value : StringAndMatchType} (h : value.2.length < 2 ^ 31) :
    ThrowsOnly Reported (setSettingsStringFilterValue env rule key value) := by
  have hwrite : ∀ node name, ThrowsOnly Reported
      (Filter.writeFilterStringMatchType env node name value) := by
    intro node name
    unfold Filter.writeFilterStringMatchType
    split_ifs
    · exact throwsOnly_ok _
    · exact throwsOnly_ok _
    · refine ThrowsOnly.bind ?_ fun _ _ => throwsOnly_ok _
      unfold writeStringAndMatchTypeToNode
      split_ifs
      · exact throwsOnly_error.2 (reported_throwHResult _)
      · exact (toUtf8_throwsOnly env h).bind fun _ _ => writeScalar_throwsOnly env _ _
  refine ThrowsOnly.bind ?_ fun _ _ => throwsOnly_ok _
  cases key with
  | processImageName => exact (hwrite _ _).bind fun _ _ => throwsOnly_ok _
  | windowClass => exact (hwrite _ _).bind fun _ _ => throwsOnly_ok _
  | windowTitle => exact (hwrite _ _).bind fun _ _ => throwsOnly_ok _

/-- Writing a pattern leaves a rule a rule. -/
theorem isRule_of_setSettingsStringFilterValue {rule rule' : Rule} {key : FilterKey}
    {value : StringAndMatchType} (hrule : IsRule rule.node)
    (h : setSettingsStringFilterValue env rule key value = .ok rule') : IsRule rule'.node := by
  obtain ⟨⟨whereNode, filter⟩, -, hret⟩ := bind_eq_ok.1 h
  cases hret
  exact hrule.setChild Key.kWhere whereNode

theorem StringFilterViewModel.settles :
    Settles (fun s : Rule × StringFilterViewModel =>
        IsRule s.1.node ∧ s.2.value.length < 2 ^ 31)
      Reported (fun s => s.2.hasPendingChanges) (applyChanges env) := by
  refine Settles.whenPending (Keeps.update ?_ ?_) fun s hs => ⟨hs, rfl⟩
  · rintro ⟨rule, vm⟩ s' ⟨⟨hrule, hvalue⟩, hpending⟩ h
    obtain ⟨rule', hset, hret⟩ := bind_eq_ok.1 h
    cases hret
    exact ⟨⟨isRule_of_setSettingsStringFilterValue env hrule hset, hvalue⟩, hpending⟩
  · rintro ⟨rule, vm⟩ fault ⟨⟨-, hvalue⟩, -⟩ h
    exact ((setSettingsStringFilterValue_throwsOnly env rule vm.key hvalue).bind
      fun _ _ => throwsOnly_ok _) fault h

end Filters

/-! ### Triggers -/

/-- `TriggersViewModel`, without its rule. -/
structure TriggersViewModel where
  applicationStarted : Bool
  windowActivated : Bool
  windowShown : Bool
  hasPendingChanges : Bool
  deriving DecidableEq, Repr

namespace TriggersViewModel

/-- The constructor. -/
def ofRule (rule : Rule) : TriggersViewModel :=
  { applicationStarted := rule.triggers.test .applicationStart
    windowActivated := rule.triggers.test .windowFocus
    windowShown := rule.triggers.test .windowShow
    hasPendingChanges := false }

/-- `ApplicationStarted` -/
def setApplicationStarted (self : TriggersViewModel) (flag : Bool) : TriggersViewModel :=
  if self.applicationStarted = flag then self
  else { self with applicationStarted := flag, hasPendingChanges := true }

/-- `WindowActivated` -/
def setWindowActivated (self : TriggersViewModel) (flag : Bool) : TriggersViewModel :=
  if self.windowActivated = flag then self
  else { self with windowActivated := flag, hasPendingChanges := true }

/-- `WindowShown` -/
def setWindowShown (self : TriggersViewModel) (flag : Bool) : TriggersViewModel :=
  if self.windowShown = flag then self
  else { self with windowShown := flag, hasPendingChanges := true }

/-- A setter changes nothing, or its change is pending. -/
theorem setApplicationStarted_cases (self : TriggersViewModel) (flag : Bool) :
    self.setApplicationStarted flag = self ∨
      (self.setApplicationStarted flag).hasPendingChanges = true := by
  unfold setApplicationStarted
  split_ifs
  · exact Or.inl rfl
  · exact Or.inr rfl

theorem setWindowActivated_cases (self : TriggersViewModel) (flag : Bool) :
    self.setWindowActivated flag = self ∨
      (self.setWindowActivated flag).hasPendingChanges = true := by
  unfold setWindowActivated
  split_ifs
  · exact Or.inl rfl
  · exact Or.inr rfl

theorem setWindowShown_cases (self : TriggersViewModel) (flag : Bool) :
    self.setWindowShown flag = self ∨ (self.setWindowShown flag).hasPendingChanges = true := by
  unfold setWindowShown
  split_ifs
  · exact Or.inl rfl
  · exact Or.inr rfl

/-- The triggers that are shown. -/
def flags (self : TriggersViewModel) : TriggerFlags :=
  { applicationStart := self.applicationStarted
    windowFocus := self.windowActivated
    windowShow := self.windowShown }

/-- `applyChanges` -/
def applyChanges : Apply Fault (Rule × TriggersViewModel) :=
  whenPending (fun s => s.2.hasPendingChanges)
    (fun s => (s.1, { s.2 with hasPendingChanges := false }))
    (update fun s => .ok (s.1.setTriggerFlags s.2.flags, s.2))

theorem settles : Settles (fun s : Rule × TriggersViewModel => IsRule s.1.node) Reported
    (fun s => s.2.hasPendingChanges) applyChanges := by
  refine Settles.whenPending (Keeps.update ?_ ?_) fun s hs => ⟨hs, rfl⟩
  · rintro ⟨rule, vm⟩ s' ⟨hrule, hpending⟩ h
    cases h
    refine ⟨?_, hpending⟩
    show IsRule (rule.setTriggerFlags vm.flags).node
    unfold Rule.setTriggerFlags
    split_ifs
    · exact hrule
    · exact hrule.writeTriggerFlags vm.flags
  · rintro s fault - h
    cases h

end TriggersViewModel

/-! ### One rule -/

/-- `RuleViewModel`, with the rule it shows. -/
structure RuleViewModel (F : Type) where
  rule : Rule
  deletingKeys : List FilterKey
  action : Option (ActionViewModel F)
  filters : List StringFilterViewModel
  triggers : TriggersViewModel
  unusedFilterKeys : List FilterKey

/-- What a user may do with a rule that is shown.  A filter is named by its position. -/
inductive Edit (F : Type)
  | actionType (value : ActionType)
  | absolute (lane : Lane) (value : ℤ)
  | relative (lane : Lane) (value : F)
  | id (value : ℤ)
  | valueMatchType (position : ℕ) (compare : StringMatchType)
  | value (position : ℕ) (value : Wide)
  | addFilter (key : FilterKey)
  | deleteFilter (key : FilterKey)
  | applicationStarted (flag : Bool)
  | windowActivated (flag : Bool)
  | windowShown (flag : Bool)

namespace RuleViewModel

variable {F : Type} [FloatLike F] (env : Externals F)

/-- The constructor. -/
def ofRule (rule : Rule) : Except Fault (RuleViewModel F) := do
  let action ← ActionViewModel.makeActionViewModel env (Rule.thenNode rule.node) rule.action false
  .ok {
    rule
    deletingKeys := []
    action
    filters := (kAllFilterKey.filter (hasFilterForKey rule.filter)).map
      (StringFilterViewModel.ofFilter rule.filter)
    triggers := TriggersViewModel.ofRule rule
    unusedFilterKeys := kAllFilterKey.filter fun key => !hasFilterForKey rule.filter key }

/-- `HasPendingChanges` -/
def hasPendingChanges (self : RuleViewModel F) : Bool :=
  !self.deletingKeys.isEmpty || (self.action.any ActionViewModel.hasPendingChanges ||
    (self.filters.any StringFilterViewModel.hasPendingChanges || self.triggers.hasPendingChanges))

/-! ### Edits -/

/-- `ActionType`.  The type is changed in the document before the new view is made, which may
throw. -/
def setActionType (value : ActionType) : EStateM Fault (RuleViewModel F) Unit := fun self =>
  if self.rule.action.type = value then .ok () self
  else
    let (thenNode, action) := self.rule.action.setType env (Rule.thenNode self.rule.node) value
    let rule := { self.rule with node := self.rule.node.setChild Key.kThen thenNode, action }
    match ActionViewModel.makeActionViewModel env thenNode action true with
    | .ok made => .ok () { self with rule, action := made }
    | .error fault => .error fault { self with rule }

/-- `onAddFilterRequested` -/
def addFilter (self : RuleViewModel F) (key : FilterKey) : Except Fault (RuleViewModel F) :=
  if key ∈ self.unusedFilterKeys then
    .ok { self with
      unusedFilterKeys := self.unusedFilterKeys.erase key
      filters := self.filters ++ [StringFilterViewModel.ofKey key] }
  else .error (throwHResult HResult.invalidArg)

/-- Where a key is inserted among the unused ones to keep their order. -/
def insertionIndex (unused : List FilterKey) (key : FilterKey) : ℕ :=
  (kAllFilterKey.takeWhile fun ordered => ordered ≠ key).countP fun ordered => ordered ∈ unused

/-- `onDeleteRequested` -/
def deleteFilter (self : RuleViewModel F) (key : FilterKey) : Except Fault (RuleViewModel F) :=
  if self.filters.any fun vm => vm.key = key then
    .ok { self with
      filters := self.filters.eraseP fun vm => vm.key = key
      deletingKeys := self.deletingKeys ++ [key]
      unusedFilterKeys :=
        self.unusedFilterKeys.insertIdx (insertionIndex self.unusedFilterKeys key) key }
  else .error (throwHResult HResult.invalidArg)

/-- A setter of the view of an absolute action, if that is what is shown. -/
def editAbsolute (set : AbsoluteMoveAndResizeViewModel → Except Fault AbsoluteMoveAndResizeViewModel)
    (self : RuleViewModel F) : Except Fault (RuleViewModel F) :=
  match self.action with
  | some (.absolute vm) => do
    let vm ← set vm
    .ok { self with action := some (.absolute vm) }
  | _ => .ok self

/-- A setter of the view of a relative action, if that is what is shown. -/
def editRelative
    (set : RelativeMoveAndResizeViewModel F → Except Fault (RelativeMoveAndResizeViewModel F))
    (self : RuleViewModel F) : Except Fault (RuleViewModel F) :=
  match self.action with
  | some (.relative vm) => do
    let vm ← set vm
    .ok { self with action := some (.relative vm) }
  | _ => .ok self

/-- A setter of the filter at a position. -/
def editFilter (position : ℕ) (set : StringFilterViewModel → StringFilterViewModel)
    (self : RuleViewModel F) : RuleViewModel F :=
  { self with filters := self.filters.modify position set }

/-- A setter of the triggers. -/
def editTriggers (set : TriggersViewModel → TriggersViewModel) (self : RuleViewModel F) :
    RuleViewModel F :=
  { self with triggers := set self.triggers }

/-- One edit. -/
def edit : Edit F → EStateM Fault (RuleViewModel F) Unit
  | .actionType value => setActionType env value
  | .absolute lane value => update (editAbsolute fun vm => vm.set lane value)
  | .relative lane value => update (editRelative fun vm => vm.set lane value)
  | .id value => update (editRelative fun vm => vm.setId value)
  | .valueMatchType position compare =>
    update fun self => .ok (self.editFilter position fun vm => vm.setValueMatchType compare)
  | .value position value =>
    update fun self => .ok (self.editFilter position fun vm => vm.setValue value)
  | .addFilter key => update fun self => self.addFilter key
  | .deleteFilter key => update fun self => self.deleteFilter key
  | .applicationStarted flag =>
    update fun self => .ok (self.editTriggers fun vm => vm.setApplicationStarted flag)
  | .windowActivated flag =>
    update fun self => .ok (self.editTriggers fun vm => vm.setWindowActivated flag)
  | .windowShown flag =>
    update fun self => .ok (self.editTriggers fun vm => vm.setWindowShown flag)

/-! ### Applying -/

/-- Clear the filters that are to be deleted. -/
def applyDeletions : Apply Fault (RuleViewModel F) :=
  whenPending (fun s => !s.deletingKeys.isEmpty) (fun s => { s with deletingKeys := [] }) fun s =>
    zoom (fun s => s.rule) (fun s rule => { s with rule })
      (s.deletingKeys.forM fun key => update fun rule => clearSettingsStringFilterValue env rule key) s

/-- Apply the edits of the action. -/
def applyAction : Apply Fault (RuleViewModel F) :=
  zoom (fun s => (Rule.thenNode s.rule.node, s.action))
    (fun s t => { s with
      rule := { s.rule with node := s.rule.node.setChild Key.kThen t.1 }
      action := t.2 })
    (ActionViewModel.applyChanges env)

/-- Apply the edits of the filters. -/
def applyFilters : Apply Fault (RuleViewModel F) :=
  zoom (fun s => (s.rule, s.filters)) (fun s t => { s with rule := t.1, filters := t.2 })
    (each (StringFilterViewModel.applyChanges env))

/-- Apply the edits of the triggers. -/
def applyTriggers : Apply Fault (RuleViewModel F) :=
  zoom (fun s => (s.rule, s.triggers)) (fun s t => { s with rule := t.1, triggers := t.2 })
    TriggersViewModel.applyChanges

/-- `applyChanges` -/
def applyChanges : Apply Fault (RuleViewModel F) :=
  both (applyDeletions env) (both (applyAction env) (both (applyFilters env) applyTriggers))

/-- What holds of a rule that is shown: its node is one of a rule, and what has been edited can be
handed over. -/
structure Good (vm : RuleViewModel F) : Prop where
  isRule : IsRule vm.rule.node
  action : ∀ action ∈ vm.action, action.Accepted
  filters : ∀ filter ∈ vm.filters, filter.value.length < 2 ^ 31

theorem settles_applyDeletions : Settles (Good (F := F)) Reported (fun s => !s.deletingKeys.isEmpty)
    (applyDeletions env) := by
  refine Settles.whenPending ?_ fun s hs => ⟨⟨hs.isRule, hs.action, hs.filters⟩, rfl⟩
  intro s hs
  refine (Keeps.zoom (Q := fun rule => IsRule rule.node) (Keeps.forM fun key _ => ?_)
    (fun s hs => hs.1.isRule) fun s rule hs hrule => ?_) s hs
  · refine Keeps.update (fun rule rule' hrule h => ?_) fun rule fault _ h => ?_
    · exact isRule_of_setSettingsStringFilterValue env hrule h
    · exact setSettingsStringFilterValue_throwsOnly env rule key (by decide) fault h
  · exact ⟨⟨hrule, hs.1.action, hs.1.filters⟩, hs.2⟩

theorem settles_applyAction : Settles (Good (F := F)) Reported
    (fun s => s.action.any ActionViewModel.hasPendingChanges) (applyAction env) := by
  refine (ActionViewModel.settles env).zoom (fun s hs => hs.action) ?_ (fun s t => rfl) ?_
  · intro s t hs ht
    exact ⟨hs.isRule.setChild Key.kThen t.1, ht, hs.filters⟩
  · intro s hs
    dsimp only
    rw [hs.isRule.setThen]

theorem settles_applyFilters : Settles (Good (F := F)) Reported
    (fun s => s.filters.any StringFilterViewModel.hasPendingChanges) (applyFilters env) := by
  have heach := Settles.each (P := fun rule : Rule => IsRule rule.node)
    (Q := fun vm : StringFilterViewModel => vm.value.length < 2 ^ 31)
    (r := StringFilterViewModel.hasPendingChanges) (StringFilterViewModel.settles env)
  refine heach.zoom (fun s hs => ⟨hs.isRule, hs.filters⟩) ?_ (fun s t => rfl) fun s hs => rfl
  intro s t hs ht
  exact ⟨ht.1, hs.action, ht.2⟩

theorem settles_applyTriggers : Settles (Good (F := F)) Reported
    (fun s => s.triggers.hasPendingChanges) applyTriggers := by
  refine TriggersViewModel.settles.zoom (fun s hs => hs.isRule) ?_ (fun s t => rfl) fun s hs => rfl
  intro s t hs ht
  exact ⟨ht, hs.action, hs.filters⟩

section Frames

variable {γ : Type} {part : RuleViewModel F → γ}

omit [FloatLike F] in
theorem frames_applyDeletions
    (h : ∀ s rule, part { s with rule } = part s)
    (h' : ∀ s, part { s with deletingKeys := [] } = part s) : Frames part (applyDeletions env) :=
  Frames.whenPending (fun s => Frames.zoom h _ s) h'

theorem frames_applyAction (h : ∀ s rule action, part { s with rule, action } = part s) :
    Frames part (applyAction env) := Frames.zoom (fun s _ => h s _ _) _

omit [FloatLike F] in
theorem frames_applyFilters (h : ∀ s rule filters, part { s with rule, filters } = part s) :
    Frames part (applyFilters env) := Frames.zoom (fun s _ => h s _ _) _

omit [FloatLike F] in
theorem frames_applyTriggers (h : ∀ s rule triggers, part { s with rule, triggers } = part s) :
    Frames part applyTriggers := Frames.zoom (fun s _ => h s _ _) _

end Frames

/-- **The edits of a rule are applied**, or one of them is refused and pending still. -/
theorem settles : Settles (Good (F := F)) Reported hasPendingChanges (applyChanges env) := by
  have hlast := (settles_applyFilters env).both settles_applyTriggers
    (frames_applyFilters env fun _ _ _ => rfl) (frames_applyTriggers fun _ _ _ => rfl)
  have hparts := (settles_applyAction env).both hlast (frames_applyAction env fun _ _ _ => rfl)
    ((frames_applyFilters env fun _ _ _ => rfl).both (frames_applyTriggers fun _ _ _ => rfl))
  refine (settles_applyDeletions env).both hparts
    (frames_applyDeletions env (fun _ _ => rfl) fun _ => rfl) ?_
  exact (frames_applyAction env fun _ _ _ => rfl).both
    ((frames_applyFilters env fun _ _ _ => rfl).both (frames_applyTriggers fun _ _ _ => rfl))

/-! ### A rule that is opened -/

/-- **The view of a rule that was read** has no edits. -/
theorem good_ofRule {rule : Rule} (hrule : Rule.ofNode env rule.node rule.index = .ok rule)
    {vm : RuleViewModel F} (h : ofRule env rule = .ok vm) :
    Good vm ∧ vm.hasPendingChanges = false ∧ vm.rule = rule := by
  obtain ⟨action, haction, hvm⟩ := bind_eq_ok.1 h
  cases hvm
  have hmade := (ActionViewModel.makeActionViewModel_eq_ok env haction).1
  have hfilter := ((Filter.ofNode_eq_ok_iff_get env).1 (Rule.ofNode_eq_ok env hrule).2.2.1).2
  refine ⟨⟨?_, fun a ha => (hmade a ha).1, fun filter hmem => ?_⟩, ?_, rfl⟩
  · obtain ⟨u, hcheck, -⟩ := bind_eq_ok.1 hrule
    exact isRule_of_checkRuleNode hcheck
  · obtain ⟨key, -, rfl⟩ := List.mem_map.1 hmem
    exact length_lt_of_readStringAndMatchType env (hfilter key)
  · have hnone : action.any ActionViewModel.hasPendingChanges = false := by
      cases action with
      | none => rfl
      | some a => exact (hmade a rfl).2
    simp [hasPendingChanges, hnone, StringFilterViewModel.ofFilter, TriggersViewModel.ofRule]

/-! ### What an edit does -/

/-- The edit does not make the program read or hand over a value it assumes cannot occur: a NaN, or
a text whose length is no `int`. -/
def Defined (vm : RuleViewModel F) : Edit F → Prop
  | .relative _ value => RelativeMoveAndResizeViewModel.Ordered value
  | .value _ text => text.length < 2 ^ 31
  | .actionType .relativeMoveAndResize => vm.rule.action.type ≠ .relativeMoveAndResize →
    Short ((Rule.thenNode vm.rule.node).child Key.kMonitorName)
  | _ => True

/-- Something other than the edits of the action is pending. -/
def pendingBesidesAction (self : RuleViewModel F) : Bool :=
  !self.deletingKeys.isEmpty ||
    (self.filters.any StringFilterViewModel.hasPendingChanges || self.triggers.hasPendingChanges)

omit [FloatLike F] in
theorem hasPendingChanges_of_besides {vm : RuleViewModel F} (h : vm.pendingBesidesAction = true) :
    vm.hasPendingChanges = true := by
  unfold pendingBesidesAction at h
  unfold hasPendingChanges
  rcases Bool.or_eq_true_iff.1 h with h | h
  · rw [h, Bool.true_or]
  · rw [h, Bool.or_true, Bool.or_true]

omit [FloatLike F] in
theorem hasPendingChanges_of_action {vm : RuleViewModel F} {action : ActionViewModel F}
    (haction : vm.action = some action) (h : action.hasPendingChanges = true) :
    vm.hasPendingChanges = true := by
  unfold hasPendingChanges
  rw [haction, Option.any_some, h, Bool.true_or, Bool.or_true]

/-- How an edit ends. -/
def Edited (vm : RuleViewModel F) (e : Edit F) :
    EStateM.Result Fault (RuleViewModel F) Unit → Prop
  | .ok _ vm' => Good vm' ∧ (vm' = vm ∨ vm'.hasPendingChanges = true ∨
      (e = .actionType .invalid ∧ vm.rule.action.type ≠ .invalid ∧
        vm'.pendingBesidesAction = vm.pendingBesidesAction))
  | .error fault vm' => IsParseError fault ∨ (Reported fault ∧ vm' = vm)

/-- A refused edit changes nothing. -/
theorem edited_update {vm : RuleViewModel F} {e : Edit F}
    {f : RuleViewModel F → Except Fault (RuleViewModel F)} (hthrows : ThrowsOnly Reported (f vm))
    (hok : ∀ vm', f vm = .ok vm' → Good vm' ∧ (vm' = vm ∨ vm'.hasPendingChanges = true)) :
    Edited vm e (update f vm) := by
  unfold Pending.update
  cases hf : f vm with
  | error fault => exact Or.inr ⟨hthrows fault hf, rfl⟩
  | ok vm' =>
    obtain ⟨hgood, hvm'⟩ := hok vm' hf
    exact ⟨hgood, hvm'.imp_right Or.inl⟩

theorem edited_editAbsolute {vm : RuleViewModel F} (hvm : Good vm) (lane : Lane) (value : ℤ) :
    Edited vm (.absolute lane value) (update (editAbsolute fun vm => vm.set lane value) vm) := by
  refine edited_update ?_ fun vm' h => ?_
  · unfold editAbsolute
    split
    · exact (AbsoluteMoveAndResizeViewModel.set_throwsOnly _ _ _).bind fun _ _ => throwsOnly_ok _
    · exact throwsOnly_ok _
  · unfold editAbsolute at h
    split at h
    · rename_i action haction
      obtain ⟨action', hset, hret⟩ := bind_eq_ok.1 h
      cases hret
      refine ⟨⟨hvm.isRule, fun a ha => ?_, hvm.filters⟩, ?_⟩
      · cases ha
        exact AbsoluteMoveAndResizeViewModel.accepted_set (hvm.action _ haction) hset
      · rcases AbsoluteMoveAndResizeViewModel.set_eq_ok hset with rfl | hpending
        · left
          rw [← haction]
        · exact Or.inr (hasPendingChanges_of_action rfl hpending)
    · cases h
      exact ⟨hvm, Or.inl rfl⟩

theorem edited_editRelative {vm : RuleViewModel F} {e : Edit F} (hvm : Good vm)
    {set : RelativeMoveAndResizeViewModel F → Except Fault (RelativeMoveAndResizeViewModel F)}
    (hthrows : ∀ action, ThrowsOnly Reported (set action))
    (hset : ∀ action action', set action = .ok action' →
      (action.Accepted → action'.Accepted) ∧
        (action' = action ∨ action'.hasPendingChanges = true)) :
    Edited vm e (update (editRelative set) vm) := by
  refine edited_update ?_ fun vm' h => ?_
  · unfold editRelative
    split
    · exact (hthrows _).bind fun _ _ => throwsOnly_ok _
    · exact throwsOnly_ok _
  · unfold editRelative at h
    split at h
    · rename_i action haction
      obtain ⟨action', haction', hret⟩ := bind_eq_ok.1 h
      cases hret
      obtain ⟨haccepted, hchange⟩ := hset action action' haction'
      refine ⟨⟨hvm.isRule, fun a ha => ?_, hvm.filters⟩, ?_⟩
      · cases ha
        exact haccepted (hvm.action _ haction)
      · rcases hchange with rfl | hpending
        · left
          rw [← haction]
        · exact Or.inr (hasPendingChanges_of_action rfl hpending)
    · cases h
      exact ⟨hvm, Or.inl rfl⟩

theorem edited_editFilter {vm : RuleViewModel F} {e : Edit F} (hvm : Good vm) (position : ℕ)
    {set : StringFilterViewModel → StringFilterViewModel}
    (hset : ∀ filter, set filter = filter ∨ (set filter).hasPendingChanges = true)
    (hvalue : ∀ filter, filter.value.length < 2 ^ 31 → (set filter).value.length < 2 ^ 31) :
    Edited vm e (update (fun self => .ok (self.editFilter position set)) vm) := by
  refine edited_update (throwsOnly_ok _) fun vm' h => ?_
  cases h
  unfold editFilter
  by_cases hposition : position < vm.filters.length
  · -- the filter that is edited, and those around it
    obtain ⟨front, filter, back, hfilters, -, hmodify⟩ := List.exists_of_modify set hposition
    have hshort := hvm.filters
    rw [hfilters] at hshort
    rw [hmodify]
    refine ⟨⟨hvm.isRule, hvm.action, fun f hf => ?_⟩, ?_⟩
    · rcases List.mem_append.1 hf with hf | hf
      · exact hshort f (List.mem_append_left _ hf)
      · rcases List.mem_cons.1 hf with rfl | hf
        · exact hvalue filter (hshort filter (List.mem_append_right _ List.mem_cons_self))
        · exact hshort f (List.mem_append_right _ (List.mem_cons_of_mem filter hf))
    · rcases hset filter with hsame | hpending
      · left
        rw [hsame, ← hfilters]
      · right
        refine hasPendingChanges_of_besides ?_
        simp [pendingBesidesAction, hpending]
  · rw [List.modify_eq_self (not_lt.1 hposition)]
    exact ⟨hvm, Or.inl rfl⟩

/-- A filter is added, to be written even if it stays empty. -/
theorem edited_addFilter {vm : RuleViewModel F} (hvm : Good vm) (key : FilterKey) :
    Edited vm (.addFilter key) (update (fun self => self.addFilter key) vm) := by
  refine edited_update ?_ fun vm' h => ?_
  · unfold addFilter
    split_ifs
    · exact throwsOnly_ok _
    · exact throwsOnly_error.2 (reported_throwHResult _)
  · unfold addFilter at h
    split_ifs at h
    cases h
    refine ⟨⟨hvm.isRule, hvm.action, fun filter hfilter => ?_⟩, Or.inr ?_⟩
    · rcases List.mem_append.1 hfilter with h | h
      · exact hvm.filters filter h
      · rw [List.mem_singleton.1 h]
        exact Nat.two_pow_pos 31
    · refine hasPendingChanges_of_besides ?_
      simp [pendingBesidesAction, StringFilterViewModel.ofKey]

theorem edited_deleteFilter {vm : RuleViewModel F} (hvm : Good vm) (key : FilterKey) :
    Edited vm (.deleteFilter key) (update (fun self => self.deleteFilter key) vm) := by
  refine edited_update ?_ fun vm' h => ?_
  · unfold deleteFilter
    split_ifs
    · exact throwsOnly_ok _
    · exact throwsOnly_error.2 (reported_throwHResult _)
  · unfold deleteFilter at h
    split_ifs at h
    cases h
    refine ⟨⟨hvm.isRule, hvm.action, fun filter hfilter => ?_⟩, Or.inr ?_⟩
    · exact hvm.filters filter (List.mem_of_mem_eraseP hfilter)
    · refine hasPendingChanges_of_besides ?_
      simp [pendingBesidesAction]

theorem edited_editTriggers {vm : RuleViewModel F} {e : Edit F} (hvm : Good vm)
    {set : TriggersViewModel → TriggersViewModel}
    (hset : set vm.triggers = vm.triggers ∨ (set vm.triggers).hasPendingChanges = true) :
    Edited vm e (update (fun self => .ok (self.editTriggers set)) vm) := by
  refine edited_update (throwsOnly_ok _) fun vm' h => ?_
  cases h
  unfold editTriggers
  refine ⟨⟨hvm.isRule, hvm.action, hvm.filters⟩, ?_⟩
  rcases hset with hsame | hpending
  · left
    rw [hsame]
  · right
    refine hasPendingChanges_of_besides ?_
    simp [pendingBesidesAction, hpending]

omit [FloatLike F] in
/-- A change to a relative action finds the monitor name as it was. -/
theorem child_setType_relative {node : Node} {action : Action}
    (h : action.type ≠ .relativeMoveAndResize) :
    (action.setType env node .relativeMoveAndResize).1.child Key.kMonitorName =
      node.child Key.kMonitorName := by
  have hwrite : (Action.writeType env node .relativeMoveAndResize).child Key.kMonitorName =
      node.child Key.kMonitorName := Node.child_setChild_of_ne node (by decide) _
  unfold Action.setType
  rw [if_neg h]
  cases htype : action.type with
  | invalid => exact hwrite
  | absoluteMoveAndResize =>
    -- `name` is none of the four fields that are removed
    unfold Action.removeFieldsOf AbsoluteMoveAndResize.removeFields
    dsimp only
    rw [child_removeField_of_ne _ (by decide), child_removeField_of_ne _ (by decide),
      child_removeField_of_ne _ (by decide), child_removeField_of_ne _ (by decide), hwrite]
  | relativeMoveAndResize => exact absurd htype h

omit [FloatLike F] in
theorem type_setType (node : Node) (action : Action) (value : ActionType) :
    (action.setType env node value).2.type = value := by
  unfold Action.setType
  split_ifs with h
  · exact h
  · rfl

/-- The choice of an action is pending, but for that of none. -/
theorem edited_setActionType {vm : RuleViewModel F} (hvm : Good vm) {value : ActionType}
    (h : Defined vm (.actionType value)) :
    Edited vm (.actionType value) (setActionType env value vm) := by
  unfold setActionType
  by_cases hsame : vm.rule.action.type = value
  · rw [if_pos hsame]
    exact ⟨hvm, Or.inl rfl⟩
  rw [if_neg hsame]
  have htype := type_setType env (Rule.thenNode vm.rule.node) vm.rule.action value
  have hname : value = .relativeMoveAndResize →
      Short ((vm.rule.action.setType env (Rule.thenNode vm.rule.node) value).1.child
        Key.kMonitorName) := by
    rintro rfl
    rw [child_setType_relative env hsame]
    exact h hsame
  -- the view is made from whatever `setType` leaves behind
  generalize vm.rule.action.setType env (Rule.thenNode vm.rule.node) value = changed at htype hname ⊢
  obtain ⟨thenNode, action⟩ := changed
  have hthrows := ActionViewModel.makeActionViewModel_throwsOnly env
    (fun hrelative => hname (htype.symm.trans hrelative)) true
  dsimp only at hthrows ⊢
  cases hmake : ActionViewModel.makeActionViewModel env thenNode action true with
  | error fault => exact Or.inl (hthrows fault hmake)
  | ok made =>
    obtain ⟨hmade, hnone⟩ := ActionViewModel.makeActionViewModel_eq_ok env hmake
    refine ⟨⟨hvm.isRule.setChild _ _, fun a ha => (hmade a ha).1, hvm.filters⟩, Or.inr ?_⟩
    cases made with
    | some shown => exact Or.inl (hasPendingChanges_of_action rfl (hmade shown rfl).2)
    | none =>
      -- no view, and so nothing that could be pending
      obtain rfl : value = .invalid := htype.symm.trans (hnone rfl)
      exact Or.inr ⟨rfl, hsame, rfl⟩

/-- **An edit changes nothing or is pending**, but for the choice of no action; a refused edit changes
nothing. -/
theorem edited {vm : RuleViewModel F} (hvm : Good vm) {e : Edit F} (h : Defined vm e) :
    Edited vm e (edit env e vm) := by
  cases e with
  | actionType value => exact edited_setActionType env hvm h
  | absolute lane value => exact edited_editAbsolute hvm lane value
  | relative lane value =>
    exact edited_editRelative hvm
      (fun action => RelativeMoveAndResizeViewModel.set_throwsOnly lane action value)
      fun action action' hset =>
        ⟨fun haction => RelativeMoveAndResizeViewModel.accepted_set haction h hset,
          RelativeMoveAndResizeViewModel.set_eq_ok hset⟩
  | id value =>
    exact edited_editRelative hvm
      (fun action => RelativeMoveAndResizeViewModel.setId_throwsOnly action value)
      fun action action' hset =>
        ⟨fun haction => RelativeMoveAndResizeViewModel.accepted_setId haction hset,
          RelativeMoveAndResizeViewModel.setId_eq_ok hset⟩
  | valueMatchType position compare =>
    refine edited_editFilter hvm position (fun filter => filter.setValueMatchType_cases compare)
      fun filter hfilter => ?_
    rwa [StringFilterViewModel.value_setValueMatchType]
  | value position value =>
    refine edited_editFilter hvm position (fun filter => filter.setValue_cases value)
      fun filter _ => ?_
    rw [StringFilterViewModel.value_setValue]
    exact h
  | addFilter key => exact edited_addFilter hvm key
  | deleteFilter key => exact edited_deleteFilter hvm key
  | applicationStarted flag =>
    exact edited_editTriggers hvm (vm.triggers.setApplicationStarted_cases flag)
  | windowActivated flag =>
    exact edited_editTriggers hvm (vm.triggers.setWindowActivated_cases flag)
  | windowShown flag => exact edited_editTriggers hvm (vm.triggers.setWindowShown_cases flag)

end RuleViewModel

end RoxyGlance.Editor
