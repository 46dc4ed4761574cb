import RoxyGlance.App.Context
import RoxyGlance.Editor.RuleViewModel
import RoxyGlance.Lib.Run

/-!
# The rule editor

`RuleEditorPage` shows the rules of the document.  A click on Save applies what is pending and then
calls `save`, if anything was pending; what `save` returns is not looked at.

* `document_make`: a page that is opened shows the document as it is;
* `RuleEditorPage.settles`: applying the edits of all rules leaves none pending;
* `nothingLost_of_spared`: as long as no step throws away the last sign of a change, whatever has
  not reached the file is still announced as pending;
* `actionType_invalid_loses`: the choice of no action and a failed save do throw it away.
-/

namespace RoxyGlance.Editor

open Settings
open Pending (Apply Settles zoom each mapState)

/-! ### Rules in the tree -/

/-- The tree with the rules as they are now. -/
def putRules (tree : Tree) (rules : List Rule) : Tree :=
  match tree.bind fun n => n.child Key.kRules with
  | some (.seq nodes) => tree.map fun n => n.setChild Key.kRules
    (.seq (rules.foldl (fun nodes rule => nodes.set (rule.index - 1) rule.node) nodes))
  | _ => tree

section Positions

variable {F : Type} (env : Externals F)

/-- A rule is bound to the element its index says. -/
theorem getElem?_of_mem_readRulesFrom {nodes : List Node} {index : ℕ} {rules : List Rule}
    {warnings : List Warning} (h : readRulesFrom env index nodes = .ok (rules, warnings)) :
    ∀ rule ∈ rules, index ≤ rule.index ∧ nodes[rule.index - index]? = some rule.node := by
  -- an element of the rest is one place further back in the whole
  have hrest : ∀ {node : Node} {nodes : List Node} {index : ℕ} {rule : Rule},
      (index + 1 ≤ rule.index ∧ nodes[rule.index - (index + 1)]? = some rule.node) →
      index ≤ rule.index ∧ (node :: nodes)[rule.index - index]? = some rule.node := by
    rintro node nodes index rule ⟨hindex, hnode⟩
    refine ⟨by omega, ?_⟩
    rw [show rule.index - index = (rule.index - (index + 1)) + 1 by omega, List.getElem?_cons_succ]
    exact hnode
  induction nodes generalizing index rules warnings with
  | nil =>
    cases h
    simp
  | cons node nodes ih =>
    obtain ⟨rest, restWarnings, hread, ⟨rule, hrule, rfl⟩ | ⟨err, ruleName, -, -, rfl⟩⟩ :=
      readRulesFrom_cons env h
    · obtain ⟨hnode, hindex, -⟩ := Rule.ofNode_eq_ok env hrule
      intro r hr
      rcases List.mem_cons.1 hr with rfl | hr
      · simp [hnode, hindex]
      · exact hrest (ih hread r hr)
    · exact fun r hr => hrest (ih hread r hr)

/-- Rules that have just been read are in the tree already. -/
theorem putRules_readRules {tree : Tree} {rules : List Rule} {warnings : List Warning}
    (h : readRules env tree = .ok (rules, warnings)) : putRules tree rules = tree := by
  have hpositions := getElem?_of_mem_readRulesFrom env h
  have hfold : ∀ (rules : List Rule) (nodes : List Node),
      (∀ rule ∈ rules, nodes[rule.index - 1]? = some rule.node) →
      rules.foldl (fun nodes rule => nodes.set (rule.index - 1) rule.node) nodes = nodes := by
    intro rules nodes hrules
    induction rules with
    | nil => rfl
    | cons rule rules ih =>
      obtain ⟨hlt, hnode⟩ := List.getElem?_eq_some_iff.1 (hrules rule List.mem_cons_self)
      rw [List.foldl_cons, ← hnode, List.set_getElem_self]
      exact ih fun r hr => hrules r (List.mem_cons_of_mem rule hr)
  unfold putRules
  unfold ruleNodes at hpositions
  split
  · rename_i nodes hseq
    rw [hseq] at hpositions
    rw [hfold rules nodes fun rule hrule => (hpositions rule hrule).2]
    cases tree with
    | none => rfl
    | some n => exact congrArg some (setChild_child hseq)
  · rfl

end Positions

/-! ### The page -/

/-- `RuleEditorPage` and what it works on: the tree around the rules, the views of the rules, and the
file.  `saved` is the tree that was last written to the file, or the one the page was opened
with. -/
structure RuleEditorPage (F : Type) where
  tree : Tree
  items : List (RuleViewModel F)
  file : Bytes
  saved : Tree

namespace RuleEditorPage

variable {F : Type} [FloatLike F] (env : Externals F) (emit : Tree → Bytes)

/-- The constructor, given what is in the file. -/
def make (document : UserSettingsDocument) (file : Bytes) : Except Fault (RuleEditorPage F) := do
  let rules ← App.makeRuleEditorPage document
  let items ← rules.mapM (RuleViewModel.ofRule env)
  .ok { tree := document.tree, items, file, saved := document.tree }

/-- `document` -/
def document (self : RuleEditorPage F) : UserSettingsDocument :=
  let rules := self.items.map RuleViewModel.rule
  { tree := putRules self.tree rules, root := some rules }

/-- `HasPendingChanges` of the rules. -/
def hasPendingChanges (self : RuleEditorPage F) : Bool :=
  self.items.any RuleViewModel.hasPendingChanges

/-- `applyChanges` of the rules. -/
def applyChanges : Apply Fault (RuleEditorPage F) :=
  zoom (fun s => ((), s.items)) (fun s t => { s with items := t.2 })
    (each (zoom Prod.snd (fun s vm => (s.1, vm)) (RuleViewModel.applyChanges env)))

/-- `save`, given the code `WriteFileAtomic` returns. -/
def save (written : HResult) (self : RuleEditorPage F) : RuleEditorPage F :=
  { self with
    file := (Settings.save emit self.document written self.file).2
    saved := if written.failed then self.saved else self.document.tree }

/-- `SaveClick`: whether `save` was called.  Its result is dropped. -/
def saveClick (written : HResult) : Apply Fault (RuleEditorPage F) := fun self =>
  match applyChanges env self with
  | .error fault self => .error fault self
  -- nothing is pending any more, whatever becomes of the file
  | .ok true self => .ok true (self.save emit written)
  | .ok false self => .ok false self

/-- What a user may do; a rule is named by its position. -/
inductive Op (F : Type)
  | edit (position : ℕ) (e : Edit F)
  | saveClick (written : HResult)

/-- An edit of one of the rules. -/
def edit (position : ℕ) (e : Edit F) : EStateM Fault (RuleEditorPage F) Unit := fun self =>
  match self.items[position]? with
  | none => .ok () self
  | some vm => mapState (fun vm => { self with items := self.items.set position vm })
    (RuleViewModel.edit env e vm)

/-- The state a handler leaves behind.  An exception that has an `HRESULT` does not end the
program. -/
def handled {α : Type} :
    EStateM.Result Fault (RuleEditorPage F) α → Except Fault (RuleEditorPage F)
  | .ok _ self => .ok self
  | .error fault self => do
    let _ ← fault.toHResult
    .ok self

/-- One operation; nothing happens after the program has ended. -/
def step (s : Except Fault (RuleEditorPage F)) (op : Op F) : Except Fault (RuleEditorPage F) :=
  s >>= fun self => match op with
    | .edit position e => handled (edit env position e self)
    | .saveClick written => handled (saveClick env emit written self)

/-! ### What has not been saved -/

/-- The document is not the one last written to the file, or the one the page was opened with. -/
def Modified (self : RuleEditorPage F) : Prop := self.document.tree ≠ self.saved

/-- The file is not what the document is written as. -/
def Behind (self : RuleEditorPage F) : Prop := self.file ≠ self.document.str emit

/-- Something is pending, and another click on Save calls `save`, after which nothing is unsaved if it
succeeds.  A click that ends in an exception instead leaves something pending. -/
def Announced (unsaved : RuleEditorPage F → Prop) (self : RuleEditorPage F) : Prop :=
  self.hasPendingChanges = true ∧ ∀ written, match saveClick env emit written self with
    | .ok called self' => called = true ∧ (written.failed = false → ¬ unsaved self')
    | .error _ self' => self'.hasPendingChanges = true

/-- What is not saved is announced, and nothing undefined has happened. -/
def NothingLost (unsaved : RuleEditorPage F → Prop) : Except Fault (RuleEditorPage F) → Prop
  | .ok self => unsaved self → Announced env emit unsaved self
  | .error fault => fault ≠ .undefined

/-- Something in another rule is pending. -/
def pendingElsewhere (self : RuleEditorPage F) (position : ℕ) : Bool :=
  (self.items.eraseIdx position).any RuleViewModel.hasPendingChanges

/-- **The step leaves a sign of what it changes.**  Where an action is given up for none, something
else is pending; where something is to be saved, `save` succeeds; and the edit is defined. -/
def Spares (s : Except Fault (RuleEditorPage F)) (op : Op F) : Prop :=
  ∀ self, s = .ok self → match op with
    | .saveClick written => self.hasPendingChanges = false ∨ written.failed = false
    | .edit position e => ∀ vm, self.items[position]? = some vm →
      RuleViewModel.Defined vm e ∧
        (e = .actionType .invalid → vm.rule.action.type = .invalid ∨
          vm.pendingBesidesAction = true ∨ self.pendingElsewhere position = true)

/-! ### What holds along a run -/

/-- The rules can be applied, the file is what was last written if it was at first, and a change of
the document is pending. -/
structure Inv (own : Prop) (page : RuleEditorPage F) : Prop where
  good : ∀ vm ∈ page.items, RuleViewModel.Good vm
  file : own → page.file = emit page.saved
  saved : page.document.tree = page.saved ∨ page.hasPendingChanges = true

/-- **The edits of all rules are applied**, or one of them is refused and pending still; the file is
left alone. -/
theorem settles (file : Bytes) (saved : Tree) :
    Settles (fun s : RuleEditorPage F => (∀ vm ∈ s.items, RuleViewModel.Good vm) ∧ s.file = file ∧
      s.saved = saved) Reported hasPendingChanges (applyChanges env) := by
  have hone : Settles (fun t : Unit × RuleViewModel F => True ∧ RuleViewModel.Good t.2) Reported
      (fun t => t.2.hasPendingChanges)
      (zoom Prod.snd (fun s vm => (s.1, vm)) (RuleViewModel.applyChanges env)) :=
    (RuleViewModel.settles env).zoom (fun t ht => ht.2) (fun t vm _ hvm => ⟨trivial, hvm⟩)
      (fun t vm => rfl) fun t _ => rfl
  have heach := Settles.each (P := fun _ : Unit => True) (Q := RuleViewModel.Good)
    (r := RuleViewModel.hasPendingChanges) hone
  refine heach.zoom (fun s hs => ⟨trivial, hs.1⟩) ?_ (fun s t => rfl) fun s hs => rfl
  intro s t hs ht
  exact ⟨ht.2, hs.2⟩

/-- A click on Save calls `save` exactly if something is pending; an exception leaves something
pending. -/
theorem saveClick_spec {own : Prop} {self : RuleEditorPage F} (h : Inv emit own self)
    (written : HResult) : match saveClick env emit written self with
      | .ok called self' => called = self.hasPendingChanges ∧
        (self.hasPendingChanges = false ∨ written.failed = false → Inv emit own self') ∧
        (called = true → written.failed = false →
          self'.file = emit self'.saved ∧ self'.document.tree = self'.saved)
      | .error fault self' => Reported fault ∧ Inv emit own self' ∧
        self'.hasPendingChanges = true := by
  have hsettled := settles env self.file self.saved self ⟨h.good, rfl, rfl⟩
  unfold saveClick
  cases hrun : applyChanges env self with
  | error fault self' =>
    rw [hrun] at hsettled
    obtain ⟨hfault, ⟨hgood, hfile, hsaved⟩, hpending⟩ := hsettled
    refine ⟨hfault, ⟨hgood, fun hown => ?_, Or.inr hpending⟩, hpending⟩
    rw [hfile, hsaved]
    exact h.file hown
  | ok changed self' =>
    rw [hrun] at hsettled
    obtain ⟨hchanged, ⟨hgood, hfile, hsaved⟩, hnone, hsame⟩ := hsettled
    cases changed with
    | false =>
      refine ⟨hchanged, fun _ => ?_, fun hcalled => by cases hcalled⟩
      rw [hsame hchanged.symm]
      exact h
    | true =>
      have hwrite : written.failed = false → (self'.save emit written).file =
          emit (self'.save emit written).saved ∧
            (self'.save emit written).document.tree = (self'.save emit written).saved := by
        intro hok
        constructor
        · show (Settings.save emit self'.document written self'.file).2 =
            emit (if written.failed then self'.saved else self'.document.tree)
          simp only [Settings.save, hok, Bool.false_eq_true, if_false, UserSettingsDocument.str]
        · show self'.document.tree = if written.failed then self'.saved else self'.document.tree
          rw [if_neg (by rw [hok]; exact Bool.false_ne_true)]
      refine ⟨hchanged, fun hwritten => ?_, fun _ => hwrite⟩
      have hok : written.failed = false := hwritten.resolve_left (by rw [← hchanged]; decide)
      exact ⟨hgood, fun _ => (hwrite hok).1, Or.inl (hwrite hok).2⟩

/-- A rule that is replaced is pending together with the others. -/
theorem any_set {α : Type} (p : α → Bool) {l : List α} {i : ℕ} {a b : α} (h : l[i]? = some b) :
    (l.set i a).any p = (p a || (l.eraseIdx i).any p) := by
  induction l generalizing i with
  | nil => cases h
  | cons c l ih =>
    cases i with
    | zero => simp
    | succ i =>
      rw [List.getElem?_cons_succ] at h
      simp only [List.set_cons_succ, List.any_cons, ih h, List.eraseIdx_cons_succ]
      rw [Bool.or_left_comm]

/-- An edit that leaves a sign keeps the invariant. -/
theorem inv_edit {own : Prop} {self : RuleEditorPage F} (h : Inv emit own self) {position : ℕ}
    {e : Edit F} (hspares : Spares (.ok self) (.edit position e)) :
    match edit env position e self with
      | .ok _ self' => Inv emit own self'
      | .error fault self' => IsParseError fault ∨ (Reported fault ∧ self' = self) := by
  cases hposition : self.items[position]? with
  | none =>
    have hedit : edit env position e self = .ok () self := by
      unfold edit
      rw [hposition]
    rw [hedit]
    exact h
  | some vm =>
    have hedit : edit env position e self =
        mapState (fun vm => { self with items := self.items.set position vm })
          (RuleViewModel.edit env e vm) := by
      unfold edit
      rw [hposition]
    obtain ⟨hdefined, hcovered⟩ := hspares self rfl vm hposition
    have hsame : ({ self with items := self.items.set position vm } : RuleEditorPage F) = self := by
      obtain ⟨hlt, hvm⟩ := List.getElem?_eq_some_iff.1 hposition
      rw [← hvm, List.set_getElem_self]
    have hedited := RuleViewModel.edited env (h.good vm (List.mem_of_getElem? hposition)) hdefined
    rw [hedit]
    cases hrun : RuleViewModel.edit env e vm with
    | error fault vm' =>
      rw [hrun] at hedited
      rcases hedited with hparse | ⟨hreported, rfl⟩
      · exact Or.inl hparse
      · exact Or.inr ⟨hreported, hsame⟩
    | ok u vm' =>
      rw [hrun] at hedited
      obtain ⟨hgood, hchange⟩ := hedited
      show Inv emit own { self with items := self.items.set position vm' }
      have hall : ∀ v ∈ self.items.set position vm', RuleViewModel.Good v := fun v hv =>
        (List.mem_or_eq_of_mem_set hv).elim (h.good v) fun heq => heq ▸ hgood
      have hpending : (self.items.set position vm').any RuleViewModel.hasPendingChanges =
          (vm'.hasPendingChanges || self.pendingElsewhere position) := any_set _ hposition
      rcases hchange with rfl | hhere | ⟨rfl, htype, hbesides⟩
      · rw [hsame]
        exact h
      · refine ⟨hall, h.file, Or.inr ?_⟩
        unfold hasPendingChanges
        rw [hpending, hhere, Bool.true_or]
      · refine ⟨hall, h.file, Or.inr ?_⟩
        unfold hasPendingChanges
        rw [hpending]
        -- the action is given up: the sign must come from somewhere else
        rcases hcovered rfl with hinvalid | hhere | helsewhere
        · exact absurd hinvalid htype
        · rw [RuleViewModel.hasPendingChanges_of_besides (hbesides.trans hhere), Bool.true_or]
        · rw [helsewhere, Bool.or_true]

/-- The invariant, for a program that has not ended. -/
def Kept (own : Prop) : Except Fault (RuleEditorPage F) → Prop
  | .ok self => Inv emit own self
  | .error fault => fault ≠ .undefined

/-- **One step keeps the invariant** if it leaves a sign of what it changes. -/
theorem kept_step {own : Prop} (s : Except Fault (RuleEditorPage F)) (op : Op F)
    (h : Kept emit own s) (hspares : Spares s op) : Kept emit own (step env emit s op) := by
  cases s with
  | error fault => exact h
  | ok self =>
    cases op with
    | edit position e =>
      have hedit := inv_edit env emit h hspares
      show Kept emit own (handled (edit env position e self))
      cases hrun : edit env position e self with
      | ok u self' =>
        rw [hrun] at hedit
        exact hedit
      | error fault self' =>
        rw [hrun] at hedit
        rcases hedit with ⟨err, rfl⟩ | ⟨⟨hr, hhr⟩, rfl⟩
        · exact Fault.noConfusion
        · simp only [handled, hhr]
          exact h
    | saveClick written =>
      have hclick := saveClick_spec env emit h written
      show Kept emit own (handled (saveClick env emit written self))
      cases hrun : saveClick env emit written self with
      | ok called self' =>
        rw [hrun] at hclick
        exact hclick.2.1 (hspares self rfl)
      | error fault self' =>
        rw [hrun] at hclick
        obtain ⟨⟨hr, hhr⟩, hinv, -⟩ := hclick
        simp only [handled, hhr]
        exact hinv

/-- Under the invariant, whatever is not saved is announced. -/
theorem announced_of_inv {own : Prop} {unsaved : RuleEditorPage F → Prop} {self : RuleEditorPage F}
    (h : Inv emit own self) (hunsaved : ∀ page : RuleEditorPage F, unsaved page →
      page.file = emit page.saved → Modified page)
    (hmodified : Modified self) : Announced env emit unsaved self := by
  have hpending : self.hasPendingChanges = true := h.saved.resolve_left hmodified
  refine ⟨hpending, fun written => ?_⟩
  have hclick := saveClick_spec env emit h written
  cases hrun : saveClick env emit written self with
  | error fault self' =>
    rw [hrun] at hclick
    exact hclick.2.2
  | ok called self' =>
    rw [hrun] at hclick
    obtain ⟨hcalled, -, hwritten⟩ := hclick
    refine ⟨hcalled.trans hpending, fun hok hleft => ?_⟩
    obtain ⟨hfile, hsaved⟩ := hwritten (hcalled.trans hpending) hok
    exact hunsaved self' hleft hfile hsaved

omit [FloatLike F] in
/-- A file that was written from the document lacks nothing. -/
theorem modified_of_behind {self : RuleEditorPage F} (h : Behind emit self)
    (hfile : self.file = emit self.saved) : Modified self := by
  intro hsame
  refine h ?_
  rw [hfile, ← hsame]
  rfl

/-! ### A page that is opened -/

/-- The views of rules that were read show these rules and have no edits. -/
theorem items_of_rules {rules : List Rule} {items : List (RuleViewModel F)}
    (hrules : ∀ rule ∈ rules, Rule.ofNode env rule.node rule.index = .ok rule)
    (h : rules.mapM (RuleViewModel.ofRule env) = .ok items) :
    (∀ vm ∈ items, RuleViewModel.Good vm) ∧ items.map RuleViewModel.rule = rules := by
  induction rules generalizing items with
  | nil =>
    cases h
    exact ⟨fun vm hvm => absurd hvm List.not_mem_nil, rfl⟩
  | cons rule rules ih =>
    rw [List.mapM_cons] at h
    obtain ⟨vm, hvm, hrest⟩ := bind_eq_ok.1 h
    obtain ⟨rest, hmap, hret⟩ := bind_eq_ok.1 hrest
    cases hret
    obtain ⟨hgood, -, hrule⟩ := RuleViewModel.good_ofRule env (hrules rule List.mem_cons_self) hvm
    obtain ⟨hgoods, hrules'⟩ := ih (fun r hr => hrules r (List.mem_cons_of_mem rule hr)) hmap
    exact ⟨List.forall_mem_cons.2 ⟨hgood, hgoods⟩, by rw [List.map_cons, hrule, hrules']⟩

variable {document : UserSettingsDocument} {rules : List Rule} {warnings : List Warning}
  {file : Bytes} {self : RuleEditorPage F}

/-- **A page that is opened** shows the document as it is. -/
theorem document_make (hroot : document.root = some rules)
    (hread : readRules env document.tree = .ok (rules, warnings))
    (h : make env document file = .ok self) :
    self.document = document ∧ self.file = file ∧ self.saved = document.tree ∧
      ∀ vm ∈ self.items, RuleViewModel.Good vm := by
  have hpage : App.makeRuleEditorPage document = .ok rules := by
    unfold App.makeRuleEditorPage
    rw [hroot]
  obtain ⟨shown, hshown, hrest⟩ := bind_eq_ok.1 h
  rw [hpage] at hshown
  cases hshown
  obtain ⟨items, hitems, hret⟩ := bind_eq_ok.1 hrest
  cases hret
  obtain ⟨hgood, hmap⟩ := items_of_rules env (ofNode_of_mem_readRulesFrom env hread) hitems
  refine ⟨?_, rfl, rfl, hgood⟩
  obtain ⟨tree, root⟩ := document
  simp only at hroot hread
  simp only [RuleEditorPage.document, hmap, putRules_readRules env hread, hroot]

/-- **Nothing is lost as long as every step leaves a sign of what it changes**: whatever has changed
since the document was last saved is announced as pending, and so is whatever the file lacks, if
the file was in the form the program writes when the page was opened. -/
theorem nothingLost_of_spared (hroot : document.root = some rules)
    (hread : readRules env document.tree = .ok (rules, warnings))
    (h : make env document file = .ok self) {ops : List (Op F)}
    (hspares : Run.AllSteps (step env emit) Spares (.ok self) ops) :
    Run.Always (step env emit) (NothingLost env emit Modified) (.ok self) ops ∧
      (file = document.str emit →
        Run.Always (step env emit) (NothingLost env emit (Behind emit)) (.ok self) ops) := by
  obtain ⟨hdocument, hfile, hsaved, hgood⟩ := document_make env hroot hread h
  have hstart : Inv emit (file = document.str emit) self := by
    refine ⟨hgood, fun hown => ?_, Or.inl ?_⟩
    · rw [hfile, hsaved, hown]
      rfl
    · rw [hdocument, hsaved]
  have hkept : Run.Always (step env emit) (Kept emit (file = document.str emit)) (.ok self) ops :=
    Run.always_of_allSteps (s := .ok self) (kept_step env emit) hstart hspares
  refine ⟨hkept.mono fun s hs => ?_, fun hown => hkept.mono fun s hs => ?_⟩
  · cases s with
    | error fault => exact hs
    | ok self' => exact announced_of_inv env emit hs fun _ hmodified _ => hmodified
  · cases s with
    | error fault => exact hs
    | ok self' =>
      intro hbehind
      exact announced_of_inv env emit hs (fun page => modified_of_behind emit)
        (modified_of_behind emit hbehind (hs.file hown))

/-! ### A rule with an absolute action -/

/-- Nodes in flow style, down to a depth. -/
def flow : ℕ → Node → Bytes
  | _, .scalar s => s.val
  | 0, _ => []
  | depth + 1, .seq items => ascii "[" ++ (items.flatMap fun n => flow depth n ++ ascii ",") ++ ascii "]"
  | depth + 1, .map entries =>
    ascii "\x7b" ++ (entries.flatMap fun e => e.1 ++ ascii ":" ++ flow depth e.2 ++ ascii ",") ++
      ascii "\x7d"

/-- A file in flow style; four levels are enough for a rule. -/
def emitFlow : Tree → Bytes
  | none => []
  | some n => flow 4 n

/-- One rule, which places every window. -/
def absoluteRule : Node :=
  .map [(Key.kWhere, .map []),
    (Key.kThen, .map [(Key.kType, .scalar ⟨false, some (ascii "absolute_move_and_resize")⟩)])]

/-- The document with this rule. -/
def absoluteDocument : UserSettingsDocument where
  tree := some (.map [(Key.kRules, .seq [absoluteRule])])
  root := some [{
    node := absoluteRule
    name := []
    filter := Filter.matchAll
    index := 1
    triggers := .none
    action := { type := .absoluteMoveAndResize } }]

/-- Making the action relative, a quarter of the width, a title to match, and Save. -/
def relativeEdits : List (Op ℚ) :=
  [.edit 0 (.actionType .relativeMoveAndResize), .edit 0 (.relative .width (1 / 4)),
    .edit 0 (.addFilter .windowTitle), .edit 0 (.value 0 (wide "a")), .saveClick HResult.ok]

theorem nothingLost_relativeEdits :
    ∃ page, make asciiExternals absoluteDocument (absoluteDocument.str emitFlow) = .ok page ∧
      Run.Always (step asciiExternals emitFlow) (NothingLost asciiExternals emitFlow (Behind emitFlow))
        (.ok page) relativeEdits := by
  refine ⟨_, rfl, (nothingLost_of_spared asciiExternals emitFlow
    (rfl : absoluteDocument.root = some _) rfl rfl ?_).2 rfl⟩
  refine ⟨?_, ?_, ?_, ?_, ?_, trivial⟩
  · rintro self hself vm hvm
    cases hself
    cases hvm
    refine ⟨fun _ s hs => ?_, fun h => ?_⟩
    · cases hs
    · cases h
  · rintro self - vm -
    refine ⟨fun _ => by decide +kernel, fun h => ?_⟩
    cases h
  · rintro self - vm -
    refine ⟨trivial, fun h => ?_⟩
    cases h
  · rintro self - vm -
    refine ⟨show (wide "a").length < 2 ^ 31 by decide, fun h => ?_⟩
    cases h
  · exact fun self _ => Or.inr (by decide)

/-- After these operations the file lacks something, and neither is it pending nor does a click on
Save write it. -/
def Loses (ops : List (Op ℚ)) : Prop :=
  ∃ page lost, make asciiExternals absoluteDocument (absoluteDocument.str emitFlow) = .ok page ∧
    ops.foldl (step asciiExternals emitFlow) (.ok page) = .ok lost ∧
    Behind emitFlow lost ∧ lost.hasPendingChanges = false ∧
    ∀ written, saveClick asciiExternals emitFlow written lost = .ok false lost

/-- The choice of no action is not written, nor is an edit whose `save` fails. -/
theorem actionType_invalid_loses :
    Loses [.edit 0 (.actionType .invalid), .saveClick HResult.ok] ∧
      Loses [.edit 0 (.absolute .x 5), .saveClick HResult.fail] := by
  constructor
  · refine ⟨_, _, rfl, rfl, ?_, rfl, fun _ => rfl⟩
    unfold Behind
    decide
  · refine ⟨_, _, rfl, rfl, ?_, rfl, fun _ => rfl⟩
    unfold Behind
    decide

end RuleEditorPage

end RoxyGlance.Editor
