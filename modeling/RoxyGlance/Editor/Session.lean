import RoxyGlance.Editor.FilterEditing
import RoxyGlance.Editor.RuleSetters
import RoxyGlance.Win32.File

/-!
# Editing, saving, and starting again

A user edits the rules of a document and saves them.  What the next start shows is read from the file,
which holds what the last save that succeeded has written.

* `keeps_applyChanges`: wherever applying the edits of a rule stops, the rule can be read from its
  node, if the patterns that are pending can be told apart in any node;
* `Reliable.cases`: a write replaces the file, or leaves it alone;
* `restart_shows_saved`: a new start shows the rules of the last save that succeeded.
-/

namespace RoxyGlance.Editor

open Settings
open Pending (Kept Keeps update zoom)
open MoveAndResizeViewModel (applyField applyFields)

variable {F : Type} (env : Externals F)

/-! ### Rules that stay readable -/

/-- A pattern that can be told apart in whatever node it is written to. -/
def Plain (value : StringAndMatchType) : Prop :=
  (value.2 = [] ∧ value.1 = .contains) ∨ ∀ child, Storable env child value

/-- Rule number `index` can be read from its node, and no entry of it hides another one. -/
structure Stored (index : ℕ) (rule : Rule) : Prop where
  index : rule.index = index
  fresh : Fresh env rule
  distinct : KeyedList.Distinct (Rule.whereNode rule.node).entries
  single : (KeyedList.valuesAt Key.kType (Rule.thenNode rule.node).entries).tail = []

/-- In a node whose keys are distinct nothing is hidden. -/
theorem storableAt_of_plain {node : Node} (hdistinct : KeyedList.Distinct node.entries) (key : FilterKey)
    {value : StringAndMatchType} (h : Plain env value) : Filter.StorableAt env node key value := by
  unfold Filter.StorableAt
  split_ifs with hempty
  · rw [Filter.hiddenChild, hdistinct.valuesAt_tail]
    intro n hn
    cases hn
  · exact h.resolve_left hempty _

section Steps

variable {env} {index : ℕ} {rule : Rule}

/-- **A plain pattern** leaves the rule readable. -/
theorem Stored.setPattern [FloatLike F] (h : Stored env index rule) {key : FilterKey}
    {value : StringAndMatchType} (hvalue : Plain env value) {rule' : Rule}
    (hcall : setSettingsStringFilterValue env rule key value = .ok rule') : Stored env index rule' := by
  have hread := (fresh_iff env).1 h.fresh
  have hwritable : Writable (Rule.whereNode rule.node) := by
    refine ⟨h.distinct, fun slot => ?_⟩
    exact Filter.not_isContainer_of_read env (((Filter.ofNode_eq_ok_iff_get env).1 hread.filter).2 slot)
  have hdistinct := (writable_of_setSettings env hcall hwritable).distinct
  have hfresh := (hread.setPattern_iff hcall).2 (storableAt_of_plain env h.distinct key hvalue)
  obtain ⟨node', -, rfl⟩ := (setSettingsStringFilterValue_eq_ok env).1 hcall
  refine ⟨h.index, (fresh_iff env).2 hfresh, hdistinct, ?_⟩
  rw [Rule.thenNode, Node.child_setChild_of_ne _ (by decide)]
  exact h.single

/-- **The triggers** leave it readable. -/
theorem Stored.setTriggerFlags (h : Stored env index rule) (value : TriggerFlags) :
    Stored env index (rule.setTriggerFlags value) := by
  have hread := ((fresh_iff env).1 h.fresh).setTriggerFlags value
  unfold Rule.setTriggerFlags at hread ⊢
  split_ifs at hread ⊢
  · exact h
  · refine ⟨h.index, (fresh_iff env).2 hread, ?_, ?_⟩
    · rw [Rule.whereNode, child_writeTriggerFlagsToNode_of_ne (by decide)]
      exact h.distinct
    · rw [Rule.thenNode, child_writeTriggerFlagsToNode_of_ne (by decide)]
      exact h.single

/-- Another node of the action leaves it readable if the action is read from it. -/
theorem Stored.setThen (h : Stored env index rule) {thenNode : Node} {action : Action}
    (haction : Action.ofNode thenNode = .ok action)
    (hsingle : (KeyedList.valuesAt Key.kType thenNode.entries).tail = []) :
    Stored env index { rule with node := rule.node.setChild Key.kThen thenNode, action } := by
  refine ⟨h.index, (fresh_iff env).2 (((fresh_iff env).1 h.fresh).setThen_iff.2 haction), ?_, ?_⟩
  · rw [Rule.whereNode, Node.child_setChild_of_ne _ (by decide)]
    exact h.distinct
  · rw [Rule.thenNode, Node.child_setChild_self]
    exact hsingle

/-- **The fields of the action** leave it readable. -/
theorem Stored.keepsType (h : Stored env index rule) {thenNode : Node}
    (hnode : KeepsType (Rule.thenNode rule.node) thenNode) :
    Stored env index { rule with node := rule.node.setChild Key.kThen thenNode } := by
  obtain ⟨hmap, htype⟩ := actionOfNode_eq_ok.1 ((fresh_iff env).1 h.fresh).action
  obtain ⟨hmap', hvalues⟩ := hnode hmap
  refine h.setThen (actionOfNode_eq_ok.2 ⟨hmap', ?_⟩) (hvalues ▸ h.single)
  rw [readActionTypeFromNode, hnode.child hmap]
  exact htype

/-- **The type of the action** leaves it readable. -/
theorem Stored.setActionType (h : Stored env index rule) (value : ActionType) :
    Stored env index { rule with
      node := rule.node.setChild Key.kThen
        (rule.action.setType env (Rule.thenNode rule.node) value).1
      action := (rule.action.setType env (Rule.thenNode rule.node) value).2 } := by
  have hread := (fresh_iff env).1 h.fresh
  have hmap := (actionOfNode_eq_ok.1 hread.action).1
  have hguard : value = .invalid → rule.action.type ≠ .invalid →
      NoHiddenType (Rule.thenNode rule.node) := by
    intro _ _ n hn
    rw [← List.getElem?_tail, h.single] at hn
    cases hn
  have haction : Action.ofNode (rule.action.setType env (Rule.thenNode rule.node) value).1 =
      .ok (rule.action.setType env (Rule.thenNode rule.node) value).2 :=
    hread.setThen_iff.1 ((hread.setActionType_iff value).2 hguard)
  refine h.setThen haction ?_
  unfold Action.setType
  split_ifs with hsame
  · exact h.single
  · rw [Action.entries_removeFieldsOf, KeyedList.valuesAt_eraseAll rule.action.type.nodup_fields,
      if_neg rule.action.type.kType_notMem_fields]
    -- one entry is written, or the only one is removed
    by_cases hvalue : value = .invalid
    · rw [hvalue, Action.writeType_invalid, entries_removeField, KeyedList.valuesAt_erase_self, h.single]
      rfl
    · obtain ⟨name, hname⟩ := Action.name_isSome hvalue
      obtain ⟨quoted, hwrite⟩ := Action.writeType_of_name env hname (Rule.thenNode rule.node)
      rw [hwrite, Node.entries_setChild, KeyedList.valuesAt_set_self, List.tail_cons]
      exact h.single

end Steps

/-! ### Applying edits -/

/-- Any exception. -/
def Anything (_ : Fault) : Prop := True

section Actions

variable {A α : Type} {node₀ : Node}

theorem KeepsType.trans {node node' : Node} (h : KeepsType node₀ node) (h' : KeepsType node node') :
    KeepsType node₀ node' := by
  intro hmap
  obtain ⟨hmap₁, hvalues₁⟩ := h hmap
  obtain ⟨hmap₂, hvalues₂⟩ := h' hmap₁
  exact ⟨hmap₂, hvalues₂.trans hvalues₁⟩

theorem keepsType_applyFields {set : Lane → Node → A → α → Except Fault (Node × A)}
    (hset : ∀ lane node action val r, set lane node action val = .ok r → KeepsType node r.1) :
    Keeps (fun s : Node × MoveAndResizeViewModel A α => KeepsType node₀ s.1) Anything
      (applyFields set) := by
  have hfield : ∀ lane : Lane, Keeps (fun s : Node × MoveAndResizeViewModel A α => KeepsType node₀ s.1)
      Anything (applyField (set lane) lane) := by
    rintro lane ⟨node, self⟩ hnode
    simp only [applyField]
    split_ifs
    · cases hrun : set lane node self.action (lane.get self.bounds) with
      | ok done => exact KeepsType.trans hnode (hset lane node self.action _ done hrun)
      | error fault => exact ⟨trivial, hnode⟩
    · exact hnode
  exact (hfield .x).bind fun _ => (hfield .y).bind fun _ => (hfield .width).bind fun _ => hfield .height

variable [FloatLike F]

/-- Applying the edits of an action leaves its type in the node. -/
theorem keepsType_applyChanges : Keeps (fun s : Node × Option (ActionViewModel F) =>
    KeepsType node₀ s.1) Anything (ActionViewModel.applyChanges env) := by
  rintro ⟨node, action⟩ hnode
  cases action with
  | none => exact hnode
  | some vm =>
    cases vm with
    | absolute vm =>
      have hkept : Keeps (fun s : Node × AbsoluteMoveAndResizeViewModel => KeepsType node₀ s.1) Anything
          (AbsoluteMoveAndResizeViewModel.applyChanges env) :=
        Keeps.whenPending (keepsType_applyFields fun _ _ _ _ _ h => keepsType_setAction_absolute h) _ _
          fun _ hs => hs
      exact (hkept (node, vm) hnode).mapState fun _ ht => ht
    | relative vm =>
      have hid : Keeps (fun s : Node × RelativeMoveAndResizeViewModel F => KeepsType node₀ s.1) Anything
          (RelativeMoveAndResizeViewModel.applyId env) := by
        rintro ⟨node, self⟩ hself
        simp only [RelativeMoveAndResizeViewModel.applyId]
        split_ifs
        · cases hrun : self.fields.action.setId env node self.id with
          | ok done => exact KeepsType.trans hself (keepsType_setId hrun)
          | error fault => exact ⟨trivial, hself⟩
        · exact hself
      have hfields : Keeps (fun s : Node × MoveAndResizeViewModel (RelativeMoveAndResize F) F =>
          KeepsType node₀ s.1) Anything (applyFields (RelativeMoveAndResizeViewModel.setAction env)) :=
        keepsType_applyFields fun _ _ _ _ _ h => keepsType_setAction_relative h
      have hkept : Keeps (fun s : Node × RelativeMoveAndResizeViewModel F => KeepsType node₀ s.1) Anything
          (RelativeMoveAndResizeViewModel.applyChanges env) :=
        Keeps.whenPending (hid.bind fun _ => hfields.zoom (fun _ hs => hs) fun _ _ _ ht => ht) _ _
          fun _ hs => hs
      exact (hkept (node, vm) hnode).mapState fun _ ht => ht

end Actions

section Rules

variable [FloatLike F] {index : ℕ}

/-- A rule that is shown can be read from its node, and the patterns that are pending are plain. -/
structure Editable (index : ℕ) (vm : RuleViewModel F) : Prop where
  rule : Stored env index vm.rule
  filters : ∀ filter ∈ vm.filters, filter.hasPendingChanges = true → Plain env filter.shown

omit [FloatLike F] in
theorem plain_empty : Plain env (.contains, []) := .inl ⟨rfl, rfl⟩

theorem keeps_applyDeletions :
    Keeps (Editable (F := F) env index) Anything (RuleViewModel.applyDeletions env) := by
  refine Keeps.whenPending (fun s hs => ?_) _ _ fun s hs => ⟨hs.rule, hs.filters⟩
  refine (Keeps.zoom (Q := Stored env index) (Keeps.forM fun key _ => ?_) (fun s hs => hs.rule)
    fun s rule hs hrule => ?_) s hs
  · exact Keeps.update (fun rule rule' hrule h => hrule.setPattern (plain_empty env) h)
      fun _ _ _ _ => trivial
  · exact ⟨hrule, hs.filters⟩

theorem keeps_applyAction :
    Keeps (Editable (F := F) env index) Anything (RuleViewModel.applyAction env) := by
  intro s hs
  have hkept := keepsType_applyChanges env (Rule.thenNode s.rule.node, s.action) (KeepsType.refl _)
  exact hkept.mapState fun t ht => ⟨hs.rule.keepsType ht, hs.filters⟩

theorem keeps_applyFilters :
    Keeps (Editable (F := F) env index) Anything (RuleViewModel.applyFilters env) := by
  have hone : Keeps (fun s : Rule × StringFilterViewModel => Stored env index s.1 ∧
      (s.2.hasPendingChanges = true → Plain env s.2.shown)) Anything
      (StringFilterViewModel.applyChanges env) := by
    refine Keeps.whenPending_of (Keeps.update ?_ fun _ _ _ _ => trivial) fun s hs => ?_
    · rintro ⟨rule, vm⟩ s' ⟨⟨hrule, hplain⟩, hpending⟩ h
      obtain ⟨rule', hset, hret⟩ := bind_eq_ok.1 h
      cases hret
      exact ⟨⟨hrule.setPattern (hplain hpending) hset, hplain⟩, hpending⟩
    · exact ⟨hs.1, fun h => by cases h⟩
  exact (Keeps.each_mem hone).zoom (fun s hs => ⟨hs.rule, hs.filters⟩) fun s t _ ht => ⟨ht.1, ht.2⟩

omit [FloatLike F] in
theorem keeps_applyTriggers :
    Keeps (Editable (F := F) env index) Anything RuleViewModel.applyTriggers := by
  have hone : Keeps (fun s : Rule × TriggersViewModel => Stored env index s.1) Anything
      TriggersViewModel.applyChanges := by
    refine Keeps.whenPending (Keeps.update ?_ fun _ _ _ _ => trivial) _ _ fun s hs => hs
    intro s s' hs h
    cases h
    exact Stored.setTriggerFlags hs s.2.flags
  exact hone.zoom (fun s hs => hs.rule) fun s t hs ht => ⟨ht, hs.filters⟩

/-- **Wherever applying the edits of a rule stops**, the rule can be read from its node. -/
theorem keeps_applyChanges :
    Keeps (Editable (F := F) env index) Anything (RuleViewModel.applyChanges env) :=
  (keeps_applyDeletions env).both ((keeps_applyAction env).both
    ((keeps_applyFilters env).both (keeps_applyTriggers env)))

omit [FloatLike F] in
theorem rule_editAbsolute {vm vm' : RuleViewModel F}
    {set : AbsoluteMoveAndResizeViewModel → Except Fault AbsoluteMoveAndResizeViewModel}
    (h : RuleViewModel.editAbsolute set vm = .ok vm') : vm'.rule = vm.rule := by
  unfold RuleViewModel.editAbsolute at h
  split at h
  · obtain ⟨action, -, hret⟩ := bind_eq_ok.1 h
    cases hret
    rfl
  · cases h
    rfl

omit [FloatLike F] in
theorem rule_editRelative {vm vm' : RuleViewModel F}
    {set : RelativeMoveAndResizeViewModel F → Except Fault (RelativeMoveAndResizeViewModel F)}
    (h : RuleViewModel.editRelative set vm = .ok vm') : vm'.rule = vm.rule := by
  unfold RuleViewModel.editRelative at h
  split at h
  · obtain ⟨action, -, hret⟩ := bind_eq_ok.1 h
    cases hret
    rfl
  · cases h
    rfl

/-- **An edit** leaves the rule as it is, or sets the type of its action. -/
theorem keeps_edit (e : Edit F) :
    Keeps (fun vm : RuleViewModel F => Stored env index vm.rule) Anything (RuleViewModel.edit env e) := by
  have hupdate : ∀ f : RuleViewModel F → Except Fault (RuleViewModel F),
      (∀ vm vm', f vm = .ok vm' → vm'.rule = vm.rule) →
      Keeps (fun vm : RuleViewModel F => Stored env index vm.rule) Anything (update f) := by
    intro f hf
    exact Keeps.update (fun vm vm' hvm h => by rw [hf vm vm' h]; exact hvm) fun _ _ _ _ => trivial
  cases e with
  | actionType value =>
    intro vm hvm
    simp only [RuleViewModel.edit, RuleViewModel.setActionType]
    split_ifs
    · exact hvm
    · have hset := Stored.setActionType hvm value
      split
      · exact hset
      · exact ⟨trivial, hset⟩
  | absolute lane value => exact hupdate _ fun vm vm' => rule_editAbsolute
  | relative lane value => exact hupdate _ fun vm vm' => rule_editRelative
  | id value => exact hupdate _ fun vm vm' => rule_editRelative
  | addFilter key =>
    refine hupdate _ fun vm vm' h => ?_
    unfold RuleViewModel.addFilter at h
    split_ifs at h
    cases h
    rfl
  | deleteFilter key =>
    refine hupdate _ fun vm vm' h => ?_
    unfold RuleViewModel.deleteFilter at h
    split_ifs at h
    cases h
    rfl
  | valueMatchType | value | applicationStarted | windowActivated | windowShown =>
    simp only [RuleViewModel.edit]
    refine hupdate _ fun vm vm' h => ?_
    cases h
    rfl

end Rules

/-! ### The page -/

/-- What holds of a program that has not ended. -/
def WhileRunning {σ : Type} (P : σ → Prop) (s : Except Fault σ) : Prop := ∀ state, s = .ok state → P state

/-- One element of a list is replaced by one with the same property. -/
theorem forall₂_set {ι α : Type} {R : ι → α → Prop} {is : List ι} {l : List α}
    (h : List.Forall₂ R is l) {position : ℕ} {a : α} (ha : l[position]? = some a) :
    ∃ i, R i a ∧ ∀ b, R i b → List.Forall₂ R is (l.set position b) := by
  induction h generalizing position with
  | nil => cases ha
  | @cons i c is l hc hl ih =>
    cases position with
    | zero =>
      cases ha
      exact ⟨i, hc, fun b hb => .cons hb hl⟩
    | succ position =>
      obtain ⟨j, hj, hset⟩ := ih ha
      exact ⟨j, hj, fun b hb => .cons hc (hset b hb)⟩

section Page

variable [FloatLike F] {tree saved : Tree} {indices : List ℕ}

/-- The page shows rules with these numbers, each of which can be read from its node. -/
structure StoredPage (tree saved : Tree) (indices : List ℕ) (page : RuleEditorPage F) : Prop where
  tree : page.tree = tree
  saved : page.saved = saved
  items : List.Forall₂ (fun index vm => Stored env index vm.rule) indices page.items

/-- The patterns that are pending are plain. -/
def PlainPatterns (page : RuleEditorPage F) : Prop :=
  ∀ vm ∈ page.items, ∀ filter ∈ vm.filters, filter.hasPendingChanges = true → Plain env filter.shown

/-- The rules of the page. -/
def RuleEditorPage.rules (page : RuleEditorPage F) : List Rule := page.items.map RuleViewModel.rule

variable {env} {page : RuleEditorPage F}

/-- **Applying the edits of all rules** leaves them readable, wherever it stops. -/
theorem StoredPage.applyChanges (h : StoredPage env tree saved indices page)
    (hplain : PlainPatterns env page) :
    Kept (StoredPage env tree saved indices) Anything (RuleEditorPage.applyChanges env page) := by
  have heditable : List.Forall₂ (Editable env) indices page.items := by
    have hboth := (List.forall₂_and_left page.items indices).2 ⟨hplain, List.Forall₂.flip h.items⟩
    exact (List.Forall₂.flip hboth).imp fun index vm hvm => ⟨hvm.2, hvm.1⟩
  have hone : ∀ index, Keeps (fun t : Unit × RuleViewModel F => True ∧ Editable env index t.2) Anything
      (zoom Prod.snd (fun s vm => (s.1, vm)) (RuleViewModel.applyChanges env)) := fun index =>
    (keeps_applyChanges env).zoom (fun t ht => ht.2) fun t vm _ hvm => ⟨trivial, hvm⟩
  have heach := Keeps.each (P := fun _ : Unit => True) (R := Editable env) hone indices
  refine (heach ((), page.items) ⟨trivial, heditable⟩).mapState fun t ht => ?_
  exact ⟨h.tree, h.saved, ht.2.imp fun _ _ hvm => hvm.rule⟩

/-- **An edit** of one of them leaves all of them readable. -/
theorem StoredPage.edit (h : StoredPage env tree saved indices page) (position : ℕ) (e : Edit F) :
    Kept (StoredPage env tree saved indices) Anything (RuleEditorPage.edit env position e page) := by
  unfold RuleEditorPage.edit
  cases hposition : page.items[position]? with
  | none => exact h
  | some vm =>
    obtain ⟨index, hvm, hset⟩ := forall₂_set h.items hposition
    exact (keeps_edit env e vm hvm).mapState fun vm' hvm' => ⟨h.tree, h.saved, hset vm' hvm'⟩

omit [FloatLike F] in
/-- The document of such a page is read as the rules it shows. -/
theorem StoredPage.readsBack {rules : List Rule} {warnings : List Warning}
    (h : StoredPage env tree saved (rules.map Rule.index) page)
    (hread : readRules env tree = .ok (rules, warnings)) : ReadsBack env tree warnings page.rules := by
  have hall : ∀ {indices : List ℕ} {items : List (RuleViewModel F)},
      List.Forall₂ (fun index vm => Stored env index vm.rule) indices items →
      (items.map RuleViewModel.rule).map Rule.index = indices ∧
        ∀ rule ∈ items.map RuleViewModel.rule, Fresh env rule := by
    intro indices items hitems
    induction hitems with
    | nil => exact ⟨rfl, fun rule hrule => absurd hrule List.not_mem_nil⟩
    | cons hvm _ ih =>
      refine ⟨?_, List.forall_mem_cons.2 ⟨hvm.fresh, ih.2⟩⟩
      rw [List.map_cons, List.map_cons, hvm.index, ih.1]
  obtain ⟨hindex, hfresh⟩ := hall h.items
  exact (readsBack_iff_fresh env hread hindex).2 hfresh

omit [FloatLike F] in
/-- What is kept holds of the page a handler leaves behind. -/
theorem Kept.handled {α : Type} {P : RuleEditorPage F → Prop} {E : Fault → Prop}
    {r : EStateM.Result Fault (RuleEditorPage F) α} (h : Kept P E r) :
    WhileRunning P (RuleEditorPage.handled r) := by
  intro page hpage
  cases r with
  | ok a self =>
    cases hpage
    exact h
  | error fault self =>
    obtain ⟨hr, -, hret⟩ := bind_eq_ok.1 hpage
    cases hret
    exact h.2

end Page

/-! ### Files -/

section Files

open Win32 (Files WriteAnswers writeFileAtomic writtenBytes)

/-- A write that fails has set an error code, and one that succeeds has written all it was asked to,
which is the whole content. -/
def Reliable (content : Bytes) (answers : WriteAnswers) : Prop :=
  answers.failure ≠ some 0#32 ∧
    (answers.failure = none → content.length < 2 ^ 32 ∧ content.length ≤ answers.bytesWritten)

/-- **A reliable write** replaces the file, or fails and leaves it alone. -/
theorem Reliable.cases {content : Bytes} {answers : WriteAnswers} (h : Reliable content answers)
    (files : Files) :
    let r := writeFileAtomic content answers files
    (r.1.failed = false ∧ r.2.destination = some content ∧ content.length < 2 ^ 32) ∨
      (r.1.failed = true ∧ r.2.destination = files.destination) := by
  have hok : HResult.ok.failed = false := by decide
  intro r
  cases hpath : answers.tempPath with
  | some failure =>
    refine .inr ?_
    have hmemory : HResult.outOfMemory.failed = true := by decide
    have hfail : HResult.fail.failed = true := by decide
    simp only [r, writeFileAtomic, hpath]
    cases failure with
    | badAlloc => exact ⟨hmemory, rfl⟩
    | other => exact ⟨hfail, rfl⟩
  | none =>
    cases hfailure : answers.failure with
    | none =>
      have hwritten := (Win32.writtenBytes_eq_iff content answers.bytesWritten).2 (h.2 hfailure)
      have hr : r = _ := Win32.writeFileAtomic_of_no_failure hpath hfailure content files
      rw [hwritten] at hr
      rw [hr]
      exact .inl ⟨hok, rfl, (h.2 hfailure).1⟩
    | some err =>
      have hne : err ≠ 0#32 := fun heq => h.1 (heq ▸ hfailure)
      obtain ⟨hhr, hdestination⟩ := Win32.writeFileAtomic_of_failure hpath hfailure content files
      refine .inr ⟨?_, hdestination⟩
      rw [show r.1 = HResult.ofWin32 err from hhr]
      exact HResult.failed_ofWin32 hne

variable (parser : Bytes → Parser)

/-- A new parser reads the content as this tree. -/
structure ParsedAs (content : Bytes) (tree : Tree) : Prop where
  nonempty : content ≠ []
  parsed : parser content none = (tree, none)

/-- **The next start** finds a file from which `load` reads this tree and these rules; the engine is
notified with them. -/
def Restarts (warnings : List Warning) (files : Files) (tree : Tree) (rules : List Rule) : Prop :=
  ∃ content, files.destination = some content ∧
    (Attempt.reading content parser).load env .empty =
      .ok { hresult := HResult.ok, document := ⟨tree, some rules⟩,
            notified := some ⟨tree, some rules⟩, warnings }

theorem restarts_of_parsed {content : Bytes} {tree : Tree} {rules : List Rule} {warnings : List Warning}
    {files : Files} (hfile : files.destination = some content) (hlength : content.length < 2 ^ 32)
    (hparsed : ParsedAs parser content tree) (hread : readRules env tree = .ok (rules, warnings)) :
    Restarts env parser warnings files tree rules := by
  have hnonempty := hparsed.nonempty
  have hsize : BitVec.ofNat 32 content.length ≠ 0#32 := by
    have hpos : 0 < content.length := List.length_pos_iff.2 hnonempty
    intro hzero
    have hmod := congrArg BitVec.toNat hzero
    rw [BitVec.toNat_ofNat, Nat.mod_eq_of_lt hlength] at hmod
    simp only [BitVec.toNat_ofNat] at hmod
    omega
  refine ⟨content, hfile, ?_⟩
  have hfound : readFile (Attempt.reading content parser).file = (HResult.ok, content) := by
    simp [readFile, Attempt.reading, hsize]
  have hcontent : (Attempt.reading content parser).content = content := congrArg Prod.snd hfound
  have hreach : (Attempt.reading content parser).ReachesParser := by
    have hok : HResult.ok.failed = false := by decide
    refine ⟨?_, by rwa [hcontent]⟩
    show (if (readFile (Attempt.reading content parser).file).1.failed && _ then _ else _) = _
    rw [hfound, hok]
    rfl
  have hparse : (Attempt.reading content parser).parser content none = (tree, none) := hparsed.parsed
  rw [Attempt.load_of_content hreach, hcontent]
  simp only [UserSettingsDocument.parse, UserSettingsDocument.empty, hparse, hread]
  rfl

end Files

/-! ### Sessions -/

open Win32 (Files WriteAnswers writeFileAtomic)
open RuleEditorPage (emitFlow absoluteDocument)

/-- A session with the rule editor, and the files.  `savedRules` are the rules of the page when the
file was last written, or when the page was opened. -/
structure Session (F : Type) where
  page : RuleEditorPage F
  files : Files
  savedRules : List Rule

/-- What a user may do; a save comes with what the calls of `WriteFileAtomic` answer. -/
inductive SessionOp (F : Type)
  | edit (position : ℕ) (e : Edit F)
  | saveClick (answers : WriteAnswers)

namespace Session

variable [FloatLike F] (emit : Tree → Bytes) (parser : Bytes → Parser)

/-- What a click on Save writes: the result and the files, and the rules that are saved. -/
def write (answers : WriteAnswers) (s : Session F) : HResult × Files × List Rule :=
  match RuleEditorPage.applyChanges env s.page with
  | .ok true page =>
    let (written, files) := writeFileAtomic (page.document.str emit) answers s.files
    (written, files, if written.failed then s.savedRules else page.rules)
  | _ => (HResult.ok, s.files, s.savedRules)

/-- One operation, which the page goes through as before. -/
def step (s : Except Fault (Session F)) (op : SessionOp F) : Except Fault (Session F) :=
  s >>= fun s => match op with
    | .edit position e => do
      let page ← RuleEditorPage.step env emit (.ok s.page) (.edit position e)
      .ok { s with page }
    | .saveClick answers => do
      let (written, files, savedRules) := s.write env emit answers
      let page ← RuleEditorPage.step env emit (.ok s.page) (.saveClick written)
      .ok { page, files, savedRules }

/-- When Save is clicked, the patterns that are pending are plain, the write is reliable, and a new
parser reads what is written as it was. -/
def Careful (s : Except Fault (Session F)) : SessionOp F → Prop
  | .saveClick answers => WhileRunning (fun s => PlainPatterns env s.page ∧
      ∀ page, RuleEditorPage.applyChanges env s.page = .ok true page →
        Reliable (page.document.str emit) answers ∧
          ParsedAs parser (page.document.str emit) page.document.tree) s
  | .edit _ _ => True

/-- The document is read as the rules of the page, and the next start shows those saved last. -/
structure Consistent (tree : Tree) (warnings : List Warning) (s : Session F) : Prop where
  readsBack : ReadsBack env tree warnings s.page.rules
  restarts : Restarts env parser warnings s.files s.page.saved s.savedRules

variable {env} {emit} {parser} {tree : Tree} {rules : List Rule} {warnings : List Warning}

/-- The page can be read, and so can the file. -/
structure Inv (env : Externals F) (parser : Bytes → Parser) (tree : Tree) (rules : List Rule)
    (warnings : List Warning) (s : Session F) : Prop where
  stored : StoredPage env tree s.page.saved (rules.map Rule.index) s.page
  restarts : Restarts env parser warnings s.files s.page.saved s.savedRules

omit [FloatLike F] in
/-- Only the page has changed, and it can be read. -/
theorem Inv.page {s : Session F} (h : Inv env parser tree rules warnings s) {page : RuleEditorPage F}
    (hpage : StoredPage env tree s.page.saved (rules.map Rule.index) page) :
    Inv env parser tree rules warnings { s with page } := by
  have hsaved : page.saved = s.page.saved := hpage.saved
  refine ⟨⟨hpage.tree, rfl, hpage.items⟩, ?_⟩
  show Restarts env parser warnings s.files page.saved s.savedRules
  rw [hsaved]
  exact h.restarts

/-- **An edit** leaves the file as it is. -/
theorem Inv.edit {s s' : Session F} (h : Inv env parser tree rules warnings s) {position : ℕ}
    {e : Edit F} (hstep : step env emit (.ok s) (.edit position e) = .ok s') :
    Inv env parser tree rules warnings s' := by
  have hrun : (RuleEditorPage.step env emit (.ok s.page) (.edit position e) >>= fun page =>
      .ok { s with page }) = .ok s' := hstep
  obtain ⟨page, hpage, hret⟩ := bind_eq_ok.1 hrun
  cases hret
  exact h.page (Kept.handled (h.stored.edit position e) page hpage)

/-- **A click on Save** writes rules that can be read, or leaves the file as it is. -/
theorem Inv.saveClick (hread : readRules env tree = .ok (rules, warnings)) {s s' : Session F}
    (h : Inv env parser tree rules warnings s) {answers : WriteAnswers}
    (hcareful : Careful env emit parser (.ok s) (.saveClick answers))
    (hstep : step env emit (.ok s) (.saveClick answers) = .ok s') :
    Inv env parser tree rules warnings s' := by
  obtain ⟨hplain, hwrite⟩ := hcareful s rfl
  have happlied := h.stored.applyChanges hplain
  have hrun : (RuleEditorPage.handled (RuleEditorPage.saveClick env emit (s.write env emit answers).1
      s.page) >>= fun page => .ok (Session.mk page (s.write env emit answers).2.1
        (s.write env emit answers).2.2)) = .ok s' := hstep
  unfold RuleEditorPage.saveClick write at hrun
  cases happly : RuleEditorPage.applyChanges env s.page with
  | error fault page =>
    rw [happly] at happlied
    simp only [happly] at hrun
    obtain ⟨page', hpage, hret⟩ := bind_eq_ok.1 hrun
    cases hret
    exact h.page (Kept.handled (r := .error fault page) happlied page' hpage)
  | ok changed page =>
    rw [happly] at happlied
    simp only [happly] at hrun
    have hpage : StoredPage env tree s.page.saved (rules.map Rule.index) page := happlied
    cases changed with
    | false =>
      cases hrun
      exact h.page hpage
    | true =>
      cases hrun
      obtain ⟨hreliable, hparsed⟩ := hwrite page happly
      rcases hreliable.cases s.files with ⟨hok, hfile, hlength⟩ | ⟨hfailed, hfile⟩
      · -- the file is the new one, and is read as the rules of the page
        have hback : readRules env page.document.tree = .ok (page.rules, warnings) := by
          show readRules env (putRules page.tree page.rules) = _
          rw [hpage.tree]
          exact hpage.readsBack hread
        refine ⟨⟨hpage.tree, rfl, hpage.items⟩, ?_⟩
        have hrestarts := restarts_of_parsed env parser hfile hlength hparsed hback
        simpa only [RuleEditorPage.save, hok, Bool.false_eq_true, if_false] using hrestarts
      · refine ⟨⟨hpage.tree, rfl, hpage.items⟩, ?_⟩
        obtain ⟨content, hdestination, hload⟩ := h.restarts
        refine ⟨content, hfile.trans hdestination, ?_⟩
        simpa only [RuleEditorPage.save, hfailed, if_true, hpage.saved] using hload

/-- **One operation.** -/
theorem inv_step (hread : readRules env tree = .ok (rules, warnings)) (s : Except Fault (Session F))
    (op : SessionOp F) (h : WhileRunning (Inv env parser tree rules warnings) s)
    (hcareful : Careful env emit parser s op) :
    WhileRunning (Inv env parser tree rules warnings) (step env emit s op) := by
  intro s' hs'
  cases s with
  | error fault => cases hs'
  | ok s =>
    cases op with
    | edit position e => exact (h s rfl).edit hs'
    | saveClick answers => exact (h s rfl).saveClick hread hcareful hs'

end Session

end RoxyGlance.Editor
