import RoxyGlance.Lib.Run
import RoxyGlance.Settings.Store

/-!
# Loading again and again

A store keeps one tree for its whole life.  `parse` writes into it without clearing it, and only a
missing or empty file clears it.

* `load_atomic_iff`: a failing load is undone exactly if the parser, where it got to run, left the
  text of the document as it was;
* `loads_fresh_of_blank`: a load does not depend on the ones before it as long as the parser only
  ever meets a cleared tree;
* `load_tree_eq_iff` and `load_keeps_rules`: over entries that are left, it does.
-/

namespace RoxyGlance.Settings

variable {F : Type} (env : Externals F) (emit : Tree → Bytes)

/-- The document after a load; a load that does not end has no next state. -/
def loadStep (document : UserSettingsDocument) (a : Attempt) : UserSettingsDocument :=
  match a.load env document with
  | .ok done => done.document
  | .error _ => document

/-! ### Failing loads -/

section Failing

/-- A load that fails leaves the rules and the text as they were and notifies nobody. -/
def AtomicOnFailure (document : UserSettingsDocument) (a : Attempt) : Prop :=
  ∀ done, a.load env document = .ok done → done.hresult.failed = true →
    done.document.root = document.root ∧ done.document.str emit = document.str emit ∧
      done.notified = none

/-- If the parser gets to run and is interrupted, it leaves a tree that is written as before. -/
def TextKept (document : UserSettingsDocument) (a : Attempt) : Prop :=
  a.ReachesParser → a.Interrupted document.tree →
    emit (a.parser a.content document.tree).1 = emit document.tree

/-- One load is atomic on failure exactly if an interrupted parser keeps the text. -/
theorem atomicOnFailure_iff (document : UserSettingsDocument) (a : Attempt) :
    AtomicOnFailure env emit document a ↔ TextKept emit document a := by
  constructor
  · intro h hreach hinterrupted
    obtain ⟨hr, hmem, hload⟩ := Attempt.load_of_interrupted env hreach hinterrupted
    exact (h _ hload (Attempt.failed_of_mem hmem).1).2.1
  · intro h done hload hfailed
    have hok : HResult.ok.failed = false := by decide
    cases hblocked : a.blocked with
    | some outcome =>
      rw [Attempt.load_of_blocked hblocked] at hload
      obtain ⟨hr, -, hdone⟩ := bind_eq_ok.1 hload
      cases hdone
      exact ⟨rfl, rfl, rfl⟩
    | none =>
      by_cases hcontent : a.content = []
      · rw [Attempt.load_of_empty hblocked hcontent] at hload
        cases hload
        rw [hok] at hfailed
        cases hfailed
      · by_cases hinterrupted : a.Interrupted document.tree
        · obtain ⟨hr, -, hload'⟩ :=
            Attempt.load_of_interrupted env ⟨hblocked, hcontent⟩ hinterrupted
          rw [hload] at hload'
          cases hload'
          exact ⟨rfl, h ⟨hblocked, hcontent⟩ hinterrupted, rfl⟩
        · obtain ⟨-, -, hresult, -⟩ :=
            Attempt.load_of_not_interrupted ⟨hblocked, hcontent⟩ hinterrupted hload
          rw [hresult, hok] at hfailed
          cases hfailed

/-- **Loading is atomic on failure** throughout a history of loads exactly if the parser keeps the
text of the document whenever it is interrupted. -/
theorem load_atomic_iff (document : UserSettingsDocument) (attempts : List Attempt) :
    Run.AllSteps (loadStep env) (AtomicOnFailure env emit) document attempts ↔
      Run.AllSteps (loadStep env) (TextKept emit) document attempts :=
  Run.allSteps_congr (atomicOnFailure_iff env emit) document attempts

/-- A load that finds a file with the given content. -/
def Attempt.reading (content : Bytes) (parser : Bytes → Parser) : Attempt where
  path := none
  path_failed := by simp
  file :=
    { opened := none, size := BitVec.ofNat 32 content.length, sizeError := 0#32, resized := none,
      read := .ok content }
  parser := parser
  allocated := true

/-- The entries of a map, appended to those a tree has. -/
def appendEntries (entries : List (Bytes × Node)) (tree : Tree) : Tree :=
  some (.map ((tree.elim [] Node.entries) ++ entries))

/-- The text of an empty tree, and of one whose only entry is an empty `rules`. -/
def sampleText : Tree → Bytes
  | none => []
  | some _ => ascii "rules: []\n"

/-- A parser that gets as far as the first entry: the failing load leaves it in the document. -/
theorem load_leaves_entry :
    ¬ Run.AllSteps (loadStep asciiExternals) (AtomicOnFailure asciiExternals sampleText) .empty
      [.reading (ascii "rules: []\nwhen: [") fun _ tree =>
        (appendEntries [(Key.kRules, .seq [])] tree, some .malformed)] := by
  rintro ⟨h, -⟩
  have hsame := (h _ rfl (by decide)).2.1
  exact absurd hsame (by decide)

end Failing

/-! ### Earlier loads -/

section Earlier

/-- What can be seen of a rule. -/
structure RuleView where
  index : ℕ
  name : Wide
  triggers : TriggerFlags
  filter : Filter
  type : ActionType
  deriving DecidableEq, Repr

/-- What a rule shows. -/
def Rule.view (rule : Rule) : RuleView :=
  { index := rule.index, name := rule.name, triggers := rule.triggers, filter := rule.filter,
    type := rule.action.type }

/-- What a document shows: its rules, if there is a root, and its text. -/
def UserSettingsDocument.observe (self : UserSettingsDocument) : Option (List RuleView) × Bytes :=
  (self.root.map fun rules => rules.map Rule.view, self.str emit)

/-- A load that succeeds shows what a new store shows after the same load. -/
def HistoryIndependent (document : UserSettingsDocument) (a : Attempt) : Prop :=
  ∀ done, a.load env document = .ok done → done.hresult = HResult.ok →
    ∃ fresh, a.load env .empty = .ok fresh ∧ fresh.hresult = HResult.ok ∧
      done.document.observe emit = fresh.document.observe emit

/-- If the parser gets to run, it meets a cleared tree. -/
def FindsBlank (document : UserSettingsDocument) (a : Attempt) : Prop :=
  a.ReachesParser → document.tree = none

/-- On a cleared tree a load that succeeds leaves the document a new store has. -/
theorem load_fresh {document : UserSettingsDocument} {a : Attempt} {done : Loaded}
    (hblank : FindsBlank document a) (hload : a.load env document = .ok done)
    (hok : done.hresult = HResult.ok) :
    ∃ fresh, a.load env .empty = .ok fresh ∧ fresh.hresult = HResult.ok ∧
      done.document = fresh.document := by
  have hblocked := Attempt.blocked_eq_none hload hok
  by_cases hcontent : a.content = []
  · rw [Attempt.load_of_empty hblocked hcontent] at hload
    cases hload
    exact ⟨_, Attempt.load_of_empty hblocked hcontent, rfl, rfl⟩
  · have hreach : a.ReachesParser := ⟨hblocked, hcontent⟩
    have htree := hblank hreach
    have hnot := Attempt.not_interrupted hreach hload hok
    obtain ⟨rules, hrules, -, hdocument, -⟩ :=
      Attempt.load_of_not_interrupted hreach hnot hload
    rw [htree] at hnot hrules hdocument
    refine ⟨⟨HResult.ok, done.document, some done.document, done.warnings⟩, ?_, rfl, rfl⟩
    simp only [Attempt.Interrupted, ne_eq, not_or, not_not, Bool.not_eq_false] at hnot
    rw [Attempt.load_of_content hreach]
    unfold UserSettingsDocument.parse
    cases hparser : a.parser a.content none with
    | mk tree stopped =>
      rw [hparser] at hnot hrules hdocument
      obtain ⟨rfl, hallocated⟩ : stopped = none ∧ a.allocated = true := hnot
      simp only [UserSettingsDocument.empty, hparser, hallocated, hrules, hdocument]
      rfl

/-- **Loading is independent of the history** in every sequence of loads in which the parser only
meets a cleared tree. -/
theorem loads_fresh_of_blank (document : UserSettingsDocument) (attempts : List Attempt)
    (h : Run.AllSteps (loadStep env) FindsBlank document attempts) :
    Run.AllSteps (loadStep env) (HistoryIndependent env emit) document attempts := by
  refine Run.AllSteps.mono (fun s a hblank done hload hok => ?_) h
  obtain ⟨fresh, hfresh, hfreshOk, hdocument⟩ := load_fresh env hblank hload hok
  exact ⟨fresh, hfresh, hfreshOk, by rw [hdocument]⟩

/-- A rule that restricts nothing and does nothing. -/
def idleRule : Node := .map [(Key.kWhere, .map []), (Key.kThen, .map [])]

/-- A file without rules, an empty file, and then a file with a rule. -/
theorem loads_fresh_reset :
    Run.AllSteps (loadStep asciiExternals) (HistoryIndependent asciiExternals sampleText) .empty
      [.reading (ascii "rules: []") fun _ tree =>
        (appendEntries [(Key.kRules, .seq [])] tree, none),
       .reading [] fun _ tree => (tree, none),
       .reading (ascii "rules: [{where: {}, then: {}}]") fun _ tree =>
        (appendEntries [(Key.kRules, .seq [idleRule])] tree, none)] :=
  loads_fresh_of_blank _ _ _ _ ⟨fun _ => rfl, fun h => absurd rfl h.2, fun _ => rfl, trivial⟩

/-- A file without rules, and then one with a rule: the store still has no rule, a new one would. -/
theorem load_depends_on_history :
    ¬ Run.AllSteps (loadStep asciiExternals) (HistoryIndependent asciiExternals sampleText) .empty
      [.reading (ascii "rules: []") fun _ tree =>
        (appendEntries [(Key.kRules, .seq [])] tree, none),
       .reading (ascii "rules: [{where: {}, then: {}}]") fun _ tree =>
        (appendEntries [(Key.kRules, .seq [idleRule])] tree, none)] := by
  rintro ⟨-, h, -⟩
  obtain ⟨fresh, hfresh, -, hsame⟩ := h _ rfl rfl
  cases hfresh
  have hcount := congrArg (fun o => o.1.map List.length) hsame
  exact absurd hcount (by decide)

/-- The documented behaviour of `parse_in_arena` on a map: new children follow those there are. -/
def Attempt.Appends (a : Attempt) (entries : List (Bytes × Node)) : Prop :=
  ∀ es, a.parser a.content (some (.map es)) = (some (.map (es ++ entries)), none)

variable {document : UserSettingsDocument} {a : Attempt} {done : Loaded}
variable {es entries : List (Bytes × Node)}

/-- A load that succeeds over a map keeps its entries. -/
theorem load_of_appends (happends : a.Appends entries) (hreach : a.ReachesParser)
    (htree : document.tree = some (.map es)) (hload : a.load env document = .ok done)
    (hok : done.hresult = HResult.ok) :
    done.document.tree = some (.map (es ++ entries)) ∧
      ∃ rules, readRules env (some (.map (es ++ entries))) = .ok (rules, done.warnings) ∧
        done.document.root = some rules := by
  have hnot := Attempt.not_interrupted hreach hload hok
  obtain ⟨rules, hrules, -, hdocument, -⟩ := Attempt.load_of_not_interrupted hreach hnot hload
  rw [htree, happends es] at hrules hdocument
  rw [hdocument]
  exact ⟨rfl, rules, hrules, rfl⟩

/-- The tree is that of a new store exactly if nothing was left in it. -/
theorem load_tree_eq_iff (happends : a.Appends entries) (hreach : a.ReachesParser)
    (htree : document.tree = some (.map es)) (hload : a.load env document = .ok done)
    (hok : done.hresult = HResult.ok) :
    done.document.tree = some (.map entries) ↔ es = [] := by
  rw [(load_of_appends env happends hreach htree hload hok).1]
  simp

/-- **A `rules` entry that was left hides the new one**: the rules after the load are those that the
old tree gives. -/
theorem load_keeps_rules (happends : a.Appends entries) (hreach : a.ReachesParser)
    (htree : document.tree = some (.map es)) (hkept : (KeyedList.lookup Key.kRules es).isSome = true)
    (hload : a.load env document = .ok done) (hok : done.hresult = HResult.ok) :
    ∃ rules, readRules env document.tree = .ok (rules, done.warnings) ∧
      done.document.root = some rules := by
  obtain ⟨-, rules, hrules, hroot⟩ := load_of_appends env happends hreach htree hload hok
  refine ⟨rules, ?_, hroot⟩
  have hnodes : ruleNodes (some (.map (es ++ entries))) = ruleNodes (some (.map es)) := by
    simp only [ruleNodes, Option.bind_some, Node.child, Node.entries_map,
      KeyedList.lookup_append hkept]
  rw [htree, ← hrules, readRules, readRules, hnodes]

end Earlier

end RoxyGlance.Settings
