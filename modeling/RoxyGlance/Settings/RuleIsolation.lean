import Mathlib.Data.List.Forall2
import RoxyGlance.Settings.Document

/-!
# Bad entries are isolated

An entry of the `rules` sequence that does not describe a rule is skipped with a warning, for which
its node is looked at once more.  The error tells whether the node is a map at all, and so whether
it may have a name.  The length of a text is passed on as an `int`; a text of `2 ^ 31` bytes has no
length then, and the release build assumes that there is none of them.

* `entryFits_iff`: an entry is taken or reported unless a text that is converted does not fit;
* `readRules_isolates_iff`: so the good entries are returned, and the others reported, exactly when
  all texts fit that are converted, and the good entries are not too far down.
-/

namespace RoxyGlance.Settings

/-! ### Which texts fit -/

/-- Nothing the release build assumes has turned out false. -/
def Defined {α : Type} (x : Except Fault α) : Prop := x ≠ .error .undefined

theorem defined_ok {α : Type} (a : α) : Defined (Except.ok a : Except Fault α) := fun h => by cases h

theorem defined_throwParse {α : Type} (reason : ParseErrorReason) (id : KeyId) :
    Defined (throwParse reason id : Except Fault α) := fun h => by cases h

/-- The second computation counts when the first one returns. -/
theorem defined_bind_iff {α β : Type} {x : Except Fault α} {f : α → Except Fault β} {q : Prop}
    (h : ∀ a, x = .ok a → (Defined (f a) ↔ q)) :
    Defined (x >>= f) ↔ Defined x ∧ (ReturnsNormally x → q) := by
  cases x with
  | error fault =>
    have hnot : ¬ ReturnsNormally (Except.error fault : Except Fault α) :=
      not_returnsNormally_error fault
    rw [and_iff_left fun hx => absurd hx hnot]
    exact not_congr ⟨fun h => by cases h; rfl, fun h => by cases h; rfl⟩
  | ok a =>
    show Defined (f a) ↔ _
    rw [h a rfl, and_iff_right (defined_ok a)]
    exact ⟨fun hq _ => hq, fun hq => hq (returnsNormally_ok a)⟩

theorem defined_bind_of {α β : Type} {x : Except Fault α} {f : α → Except Fault β}
    (h : ∀ a, Defined (f a)) : Defined (x >>= f) ↔ Defined x := by
  rw [defined_bind_iff (q := True) fun a _ => iff_true_intro (h a)]
  exact and_iff_left fun _ => trivial

/-- A text that is converted as it is: if it is not empty, its length as an `int` is positive. -/
def TextFits (child : Option Node) : Prop :=
  ∀ s, child = some (.scalar s) → s.isNull = false → s.val ≠ [] → 0 < toInt s.val.length

/-- A pattern: without its markers, its length as an `int` is not negative. -/
def PatternFits (child : Option Node) : Prop :=
  ∀ s, child = some (.scalar s) → s.isNull = false → 0 ≤ utf8Length s.val

theorem forall_scalar_iff {P : Scalar → Prop} {s : Scalar} :
    (∀ s', some (Node.scalar s) = some (.scalar s') → P s') ↔ P s := by
  constructor
  · exact fun h => h s rfl
  · intro h s' hs'
    cases hs'
    exact h

theorem textFits_scalar {s : Scalar} : TextFits (some (.scalar s)) ↔
    (s.isNull = false → s.val ≠ [] → 0 < toInt s.val.length) := forall_scalar_iff

/-- A reader of scalars is defined when it is defined on scalars. -/
theorem defined_iff_forall_scalar {α : Type} {r : Option Node → Except Fault α} {P : Scalar → Prop}
    (hnone : Defined (r none)) (hseq : ∀ items, Defined (r (some (.seq items))))
    (hmap : ∀ entries, Defined (r (some (.map entries))))
    (hscalar : ∀ s, Defined (r (some (.scalar s))) ↔ P s) (child : Option Node) :
    Defined (r child) ↔ ∀ s, child = some (.scalar s) → P s := by
  cases child with
  | none => exact iff_of_true hnone fun s hs => by cases hs
  | some n =>
    cases n with
    | seq items => exact iff_of_true (hseq items) fun s hs => by cases hs
    | map entries => exact iff_of_true (hmap entries) fun s hs => by cases hs
    | scalar s => rw [hscalar, forall_scalar_iff]

/-- A text of fewer than `2 ^ 31` bytes fits. -/
theorem textFits_of_lt {child : Option Node}
    (h : ∀ s, child = some (.scalar s) → s.val.length < 2 ^ 31) : TextFits child := by
  intro s hs _ hval
  have hpos := List.length_pos_iff.2 hval
  rw [toInt_of_lt (h s hs)]
  omega

/-- So does a pattern. -/
theorem patternFits_of_lt {child : Option Node}
    (h : ∀ s, child = some (.scalar s) → s.val.length < 2 ^ 31) : PatternFits child :=
  fun s hs _ => utf8Length_nonneg (h s hs)

section Fits

variable {F : Type} (env : Externals F)

/-- The conversion is left undefined only by the length, whatever is made of its result. -/
theorem defined_convert_iff {α : Type} (u8ptr : Bytes) (u8len : ℤ)
    {f : Except HResult Wide → Except Fault α} (hok : ∀ text, Defined (f (.ok text)))
    (hinvalid : Defined (f (.error HResult.kErrorNoUnicodeTranslation))) :
    Defined (env.convertUtf8ToUtf16 u8ptr u8len >>= f) ↔ 0 < u8len := by
  unfold TextCodec.convertUtf8ToUtf16
  by_cases hlen : u8len ≤ 0
  · rw [if_pos hlen]
    exact iff_of_false (fun h => h rfl) (not_lt.2 hlen)
  · rw [if_neg hlen]
    refine iff_of_true ?_ (not_le.1 hlen)
    cases env.decode (u8ptr.take u8len.toNat) with
    | some text => exact hok text
    | none => exact hinvalid

theorem defined_convertUtf8Value_iff (id : KeyId) (u8ptr : Bytes) (u8len : ℤ) :
    Defined (convertUtf8Value env id u8ptr u8len) ↔ 0 < u8len :=
  defined_convert_iff env u8ptr u8len (fun text => defined_ok text)
    (defined_throwParse .invalidString id)

theorem defined_readStringFromNode_iff (child : Option Node) (id : KeyId) :
    Defined (readStringFromNode env child id) ↔ TextFits child := by
  refine defined_iff_forall_scalar (r := fun child => readStringFromNode env child id)
    (defined_ok _) (fun _ => defined_throwParse _ _) (fun _ => defined_throwParse _ _)
    (fun s => ?_) child
  simp only [readStringFromNode]
  split_ifs with hnull hval
  · exact iff_of_true (defined_ok _) fun h => by rw [hnull] at h; cases h
  · exact iff_of_true (defined_ok _) fun _ h => absurd hval h
  · rw [defined_convertUtf8Value_iff]
    exact ⟨fun h _ _ => h, fun h => h (Bool.not_eq_true _ ▸ hnull) hval⟩

theorem defined_readStringAndMatchType_iff (child : Option Node) (id : KeyId) :
    Defined (readStringAndMatchTypeFromNode env child id) ↔ PatternFits child := by
  refine defined_iff_forall_scalar (r := fun child => readStringAndMatchTypeFromNode env child id)
    (defined_ok _) (fun _ => defined_throwParse _ _) (fun _ => defined_throwParse _ _)
    (fun s => ?_) child
  simp only [readStringAndMatchTypeFromNode]
  split_ifs with hnull hval hzero
  · exact iff_of_true (defined_ok _) fun h => by rw [hnull] at h; cases h
  · exact iff_of_true (defined_ok _) fun _ => by rw [hval, utf8Length_nil]
  · exact iff_of_true (defined_ok _) fun _ => hzero.ge
  · rw [defined_bind_of fun text => defined_ok _, defined_convertUtf8Value_iff]
    rw [Bool.not_eq_true] at hnull
    constructor
    · exact fun h _ => h.le
    · intro h
      have hlen := h hnull
      omega

/-- The three patterns of a filter, as far as they are read. -/
def PatternsFit (node : Node) : Prop :=
  PatternFits (node.child Key.kProcessKey) ∧ (PatternReadable env (node.child Key.kProcessKey) →
    PatternFits (node.child Key.kWindowClassKey) ∧
      (PatternReadable env (node.child Key.kWindowClassKey) →
        PatternFits (node.child Key.kWindowTitleKey)))

theorem defined_filterOfNode_iff (node : Node) :
    Defined (Filter.ofNode env node) ↔ (node.isMap = true → PatternsFit env node) := by
  unfold Filter.ofNode
  cases hmap : node.isMap with
  | false => exact iff_of_true (defined_throwParse _ _) fun h => by cases h
  | true =>
    rw [if_neg (by decide), imp_iff_right rfl, PatternsFit]
    rw [defined_bind_iff, defined_readStringAndMatchType_iff, returnsNormally_readStringAndMatchType]
    intro process _
    rw [defined_bind_iff, defined_readStringAndMatchType_iff, returnsNormally_readStringAndMatchType]
    intro windowClass _
    rw [defined_bind_of fun windowTitle => defined_ok _, defined_readStringAndMatchType_iff]

/-- A name the reader accepts: missing, null, or a text that is well-formed. -/
def NameReadable (child : Option Node) : Prop :=
  ∀ n ∈ child, ∃ s, n = .scalar s ∧ (s.isNull = true ∨
    ∃ text, env.decode (s.val.take (toInt s.val.length).toNat) = some text)

theorem returnsNormally_readStringFromNode {child : Option Node} (h : TextFits child) (id : KeyId) :
    ReturnsNormally (readStringFromNode env child id) ↔ NameReadable env child := by
  unfold NameReadable
  cases child with
  | none => simp [readStringFromNode]
  | some n =>
    cases n with
    | seq items => simp [readStringFromNode, throwParse]
    | map entries => simp [readStringFromNode, throwParse]
    | scalar s =>
      cases hnull : s.isNull with
      | true => simp [readStringFromNode, hnull]
      | false =>
        by_cases hval : s.val = []
        · simp [readStringFromNode, hnull, hval]
        · have hlen := h s rfl hnull hval
          simp only [readStringFromNode, hnull, hval, Bool.false_eq_true, if_false, ReturnsNormally,
            convertUtf8Value_eq_ok, hlen, true_and]
          simp [hnull]

/-- All texts of a rule that are converted fit: its name, even if the rule is refused, and the
patterns that are reached. -/
def EntryFits (node : Node) : Prop :=
  node.isMap = true → TextFits (node.child Key.kName) ∧
    (node.hasChild Key.kWhere = true → node.hasChild Key.kThen = true →
      NameReadable env (node.child Key.kName) → (Rule.whereNode node).isMap = true →
        PatternsFit env (Rule.whereNode node))

/-- An entry whose texts are all short fits. -/
theorem entryFits_of_lt {node : Node} (hname : ∀ s, node.child Key.kName = some (.scalar s) →
      s.val.length < 2 ^ 31)
    (hwhere : ∀ key s, (Rule.whereNode node).child key = some (.scalar s) → s.val.length < 2 ^ 31) :
    EntryFits env node :=
  fun _ => ⟨textFits_of_lt hname, fun _ _ _ _ => ⟨patternFits_of_lt (hwhere _),
    fun _ => ⟨patternFits_of_lt (hwhere _), fun _ => patternFits_of_lt (hwhere _)⟩⟩⟩

theorem defined_readTriggerFlags (node : Node) : Defined (readTriggerFlagsFromNode node) := by
  unfold readTriggerFlagsFromNode
  split_ifs
  · exact defined_throwParse _ _
  · split
    · exact defined_ok _
    · exact defined_ok _
    · exact defined_ok _
    · exact defined_throwParse _ _

theorem defined_actionOfNode (node : Node) : Defined (Action.ofNode node) := by
  unfold Action.ofNode
  split_ifs
  · exact defined_throwParse _ _
  · rw [defined_bind_of fun type => defined_ok _]
    unfold readActionTypeFromNode
    split
    · exact defined_ok _
    · exact defined_ok _
    · exact defined_throwParse _ _

/-- A map has the two keys that a rule needs. -/
theorem checkRuleNode_of_isMap {node : Node} (hmap : node.isMap = true) :
    Defined (checkRuleNode node) ∧ (ReturnsNormally (checkRuleNode node) ↔
      node.hasChild Key.kWhere = true ∧ node.hasChild Key.kThen = true) := by
  unfold checkRuleNode
  rw [hmap, if_neg (by decide)]
  cases hwhere : node.hasChild Key.kWhere with
  | false => exact ⟨defined_throwParse _ _, by simp [throwParse]⟩
  | true =>
    cases hthen : node.hasChild Key.kThen with
    | false => exact ⟨defined_throwParse _ _, by simp [throwParse]⟩
    | true => exact ⟨defined_ok (), by simp⟩

/-- **Which texts the constructor of a rule converts.** -/
theorem defined_ruleOfNode_iff {node : Node} (hmap : node.isMap = true) (index : ℕ) :
    Defined (Rule.ofNode env node index) ↔
      (node.hasChild Key.kWhere = true → node.hasChild Key.kThen = true →
        TextFits (node.child Key.kName) ∧ (NameReadable env (node.child Key.kName) →
          (Rule.whereNode node).isMap = true → PatternsFit env (Rule.whereNode node))) := by
  obtain ⟨hcheck, hreturns⟩ := checkRuleNode_of_isMap hmap
  have hrest : Defined (do
        let name ← readStringFromNode env (node.child Key.kName) .name
        let filter ← Filter.ofNode env (Rule.whereNode node)
        let triggers ← readTriggerFlagsFromNode node
        let action ← Action.ofNode (Rule.thenNode node)
        Except.ok ({ node, name, filter, index, triggers, action } : Rule)) ↔
      TextFits (node.child Key.kName) ∧ (NameReadable env (node.child Key.kName) →
        (Rule.whereNode node).isMap = true → PatternsFit env (Rule.whereNode node)) := by
    rw [defined_bind_iff, defined_readStringFromNode_iff]
    · refine and_congr_right fun hfits => ?_
      rw [returnsNormally_readStringFromNode env hfits]
    · intro name _
      rw [← defined_filterOfNode_iff]
      refine defined_bind_of fun filter => ?_
      rw [defined_bind_of fun triggers => ?_]
      · exact defined_readTriggerFlags node
      · rw [defined_bind_of fun action => defined_ok _]
        exact defined_actionOfNode _
  unfold Rule.ofNode
  rw [defined_bind_iff fun _ _ => hrest, hreturns, and_iff_right hcheck, and_imp]

end Fits

/-! ### Taking or reporting one entry -/

section Entry

variable {F : Type} (env : Externals F)

/-- The child under a key; rapidyaml assumes of the node that it is a map. -/
def mapChild (n : Node) (key : Bytes) : Except Fault (Option Node) :=
  if n.isMap then .ok (n.child key) else .error .undefined

/-- `makeRuleDisplayName`, with the assumption about the node it looks at. -/
def makeRuleDisplayNameChecked (rule : Node) (err : ParseError) (index : ℕ) : Except Fault Wide :=
  let position := wide "#" ++ wide (toString index)
  if err.keyId = .rule then .ok position
  else do
    match ← mapChild rule Key.kName with
    | some (.scalar s) =>
      if s.isNull then .ok position
      else do
        match ← convertString env s.val with
        | .ok name => .ok (wide "\"" ++ name ++ wide "\"")
        | .error hr =>
          if hr = HResult.kErrorNoUnicodeTranslation then .ok position
          else .error (throwHResult hr)
    | _ => .ok position

/-- The assumption holds when the error tells a map from anything else. -/
theorem makeRuleDisplayNameChecked_eq {rule : Node} {err : ParseError}
    (h : err.keyId ≠ .rule → rule.isMap = true) (index : ℕ) :
    makeRuleDisplayNameChecked env rule err index = makeRuleDisplayName env rule err index := by
  unfold makeRuleDisplayNameChecked makeRuleDisplayName
  by_cases hkey : err.keyId = .rule
  · simp only [hkey, if_true]
  · simp only [hkey, if_false, mapChild, h hkey, if_true]
    rfl

/-- A name is shown unless it is looked at and does not fit. -/
theorem returnsNormally_makeRuleDisplayName (rule : Node) (err : ParseError) (index : ℕ) :
    ReturnsNormally (makeRuleDisplayName env rule err index) ↔
      (err.keyId ≠ .rule → TextFits (rule.child Key.kName)) := by
  -- the function throws nothing, so the only way not to return is to be undefined
  have hread : ReturnsNormally (makeRuleDisplayName env rule err index) ↔
      Defined (makeRuleDisplayName env rule err index) := by
    have honly := makeRuleDisplayName_throwsOnly env rule err index
    cases hrun : makeRuleDisplayName env rule err index with
    | ok name => exact iff_of_true (returnsNormally_ok name) (defined_ok name)
    | error fault =>
      rw [honly fault hrun]
      exact iff_of_false (not_returnsNormally_error _) fun h => h rfl
  rw [hread]
  unfold makeRuleDisplayName
  by_cases hkey : err.keyId = .rule
  · rw [if_pos hkey]
    exact iff_of_true (defined_ok _) fun h => absurd hkey h
  · rw [if_neg hkey, imp_iff_right hkey]
    cases hchild : rule.child Key.kName with
    | none => exact iff_of_true (defined_ok _) fun s hs => by cases hs
    | some n =>
      cases n with
      | seq items => exact iff_of_true (defined_ok _) fun s hs => by cases hs
      | map entries => exact iff_of_true (defined_ok _) fun s hs => by cases hs
      | scalar s =>
        rw [textFits_scalar]
        dsimp only
        by_cases hnull : s.isNull = true
        · rw [if_pos hnull]
          exact iff_of_true (defined_ok _) fun h => by rw [hnull] at h; cases h
        · rw [if_neg hnull, imp_iff_right (Bool.eq_false_of_not_eq_true hnull), convertString]
          by_cases hval : s.val = []
          · rw [if_pos hval]
            exact iff_of_true (defined_ok _) fun h => absurd hval h
          · rw [if_neg hval, imp_iff_right hval]
            exact defined_convert_iff env _ _ (fun name => defined_ok _) (defined_ok _)

/-- An entry at a position is refused, and this is the warning. -/
def Reports (e : Node × ℕ) (warning : Warning) : Prop :=
  ∃ err name, Rule.ofNode env e.1 e.2 = .error (.parseError err) ∧
    makeRuleDisplayNameChecked env e.1 err (e.2 % 2 ^ 32) = .ok name ∧
    makeParseErrorMessage env err name = .ok warning.message ∧
    warning.hresult = HResult.invalidArg

/-- The error of a refused entry tells whether it is a map, and is not about a number. -/
theorem parseError_of_ofNode {node : Node} {index : ℕ} {err : ParseError}
    (h : Rule.ofNode env node index = .error (.parseError err)) :
    (err.keyId ≠ .rule ↔ node.isMap = true) ∧ err.reason ≠ .numberOutOfRange := by
  refine ⟨?_, Rule.ofNode_throwsOnly env node index _ h⟩
  cases hmap : node.isMap with
  | false =>
    cases (Rule.ofNode_of_not_isMap env hmap index).symm.trans h
    exact iff_of_false (fun h => h rfl) Bool.false_ne_true
  | true =>
    have hnames : err.keyId ∈ ruleIds := (Rule.ofNode_refuses env hmap index _ h).2
    refine iff_of_true (fun hkey => ?_) rfl
    rw [hkey] at hnames
    exact absurd hnames (by decide)

/-- A refused entry is reported when its name can be shown. -/
theorem exists_reports_iff {node : Node} {index : ℕ} {err : ParseError}
    (h : Rule.ofNode env node index = .error (.parseError err)) :
    (∃ warning, Reports env (node, index) warning) ↔
      (node.isMap = true → TextFits (node.child Key.kName)) := by
  obtain ⟨hmap, hreason⟩ := parseError_of_ofNode env h
  have hname := returnsNormally_makeRuleDisplayName env node err (index % 2 ^ 32)
  rw [hmap] at hname
  rw [← hname]
  have hchecked := makeRuleDisplayNameChecked_eq env hmap.1 (index % 2 ^ 32)
  constructor
  · rintro ⟨warning, err', name, herr, hshown, -⟩
    cases h.symm.trans herr
    exact ⟨name, hchecked.symm.trans hshown⟩
  · rintro ⟨name, hshown⟩
    have hmessage := makeParseErrorMessage_throwsOnly env hreason name fun _ => False
    cases hrun : makeParseErrorMessage env err name with
    | error fault => exact (hmessage fault hrun).elim
    | ok message =>
      exact ⟨⟨message, HResult.invalidArg⟩, err, name, h, hchecked.trans hshown, hrun, rfl⟩

/-- **An entry is taken or reported exactly when its texts fit.** -/
theorem entryFits_iff (node : Node) (index : ℕ) :
    EntryFits env node ↔ ReturnsNormally (Rule.ofNode env node index) ∨
      ∃ warning, Reports env (node, index) warning := by
  have hdefined := fun hmap : node.isMap = true => defined_ruleOfNode_iff env hmap index
  have hthrows := Rule.ofNode_throwsOnly env node index
  cases hrun : Rule.ofNode env node index with
  | ok rule =>
    refine iff_of_true (fun hmap => ?_) (.inl (returnsNormally_ok rule))
    -- the constructor has read the name, and all patterns
    have hok : Defined (Rule.ofNode env node index) := by
      rw [hrun]
      exact defined_ok rule
    obtain ⟨⟨⟩, hkeys, -⟩ := bind_eq_ok.1 hrun
    have hboth := (checkRuleNode_of_isMap hmap).2.1 ⟨(), hkeys⟩
    obtain ⟨hname, hpatterns⟩ := (hdefined hmap).1 hok hboth.1 hboth.2
    exact ⟨hname, fun _ _ => hpatterns⟩
  | error fault =>
    rw [or_iff_right (not_returnsNormally_error fault)]
    have hfault := hthrows fault hrun
    cases fault with
    | parseError err =>
      rw [exists_reports_iff env hrun]
      have hok : Defined (Rule.ofNode env node index) := by
        rw [hrun]
        exact fun h => by cases h
      refine forall_congr' fun hmap => and_iff_left_of_imp fun _ hwhere hthen => ?_
      exact ((hdefined hmap).1 hok hwhere hthen).2
    | undefined =>
      refine iff_of_false (fun hfits => ?_) ?_
      · have hmap : node.isMap = true := by
          by_contra hmap
          rw [Bool.not_eq_true] at hmap
          cases (Rule.ofNode_of_not_isMap env hmap index).symm.trans hrun
        obtain ⟨hname, hpatterns⟩ := hfits hmap
        exact (hdefined hmap).2 (fun hwhere hthen => ⟨hname, hpatterns hwhere hthen⟩) hrun
      · rintro ⟨warning, err, name, herr, -⟩
        cases hrun.symm.trans herr
    | hresultError hr => cases hfault
    | badAlloc => cases hfault
    | exception => cases hfault

end Entry

/-! ### The whole sequence -/

section Rules

variable {F : Type} (env : Externals F)

/-- `index()`: the position of the rule, as counted by a `uint32_t`. -/
def Rule.counted (rule : Rule) : ℕ := rule.index % 2 ^ 32

/-- The constructor of a rule succeeds on the node. -/
def accepts (node : Node) : Bool :=
  match Rule.ofNode env node 1 with
  | .ok _ => true
  | .error _ => false

/-- Whether it does so does not depend on the position. -/
theorem accepts_iff (node : Node) (index : ℕ) :
    accepts env node = true ↔ ReturnsNormally (Rule.ofNode env node index) := by
  have hindex : ReturnsNormally (Rule.ofNode env node index) ↔
      ReturnsNormally (Rule.ofNode env node 1) := by
    simp only [Rule.ofNode, returnsNormally_bind, returnsNormally_ok]
  rw [hindex, accepts]
  cases hrun : Rule.ofNode env node 1 with
  | ok rule => exact iff_of_true rfl (returnsNormally_ok rule)
  | error fault => exact iff_of_false Bool.false_ne_true (not_returnsNormally_error fault)

/-- What reading the elements from a position on should return. -/
structure Isolated (start : ℕ) (nodes : List Node) (rules : List Rule) (warnings : List Warning) :
    Prop where
  /-- The rules are the good entries, in order and with their positions. -/
  good : rules.map (fun rule => (rule.node, rule.counted)) =
    (nodes.zipIdx start).filter fun e => accepts env e.1
  /-- They are what the constructor makes of them. -/
  built : ∀ rule ∈ rules, Rule.ofNode env rule.node rule.index = .ok rule
  /-- Each of the other entries is reported. -/
  bad : List.Forall₂ (Reports env) ((nodes.zipIdx start).filter fun e => !accepts env e.1) warnings

/-- The loop returns only if all entries fit. -/
theorem entryFits_of_readRulesFrom {nodes : List Node} {index : ℕ} {rules : List Rule}
    {warnings : List Warning} (h : readRulesFrom env index nodes = .ok (rules, warnings)) :
    ∀ node ∈ nodes, EntryFits env node := by
  induction nodes generalizing index rules warnings with
  | nil => exact List.forall_mem_nil _
  | cons node nodes ih =>
    rw [List.forall_mem_cons, entryFits_iff env node index]
    obtain ⟨rest, restWarnings, hrest, ⟨rule, hrule, -⟩ | ⟨err, name, hrule, hname, -⟩⟩ :=
      readRulesFrom_cons env h
    · exact ⟨.inl ⟨rule, hrule⟩, ih hrest⟩
    · refine ⟨.inr ((exists_reports_iff env hrule).2 fun hmap => ?_), ih hrest⟩
      exact (returnsNormally_makeRuleDisplayName env node err _).1 ⟨name, hname⟩
        ((parseError_of_ofNode env hrule).1.2 hmap)

/-- What the loop returns. -/
theorem readRulesFrom_spec {nodes : List Node} (h : ∀ node ∈ nodes, EntryFits env node)
    (index : ℕ) : ∃ rules warnings, readRulesFrom env index nodes = .ok (rules, warnings) ∧
      rules.map (fun rule => (rule.node, rule.index)) =
        ((nodes.zipIdx index).filter fun e => accepts env e.1) ∧
      List.Forall₂ (Reports env) ((nodes.zipIdx index).filter fun e => !accepts env e.1)
        warnings := by
  induction nodes generalizing index with
  | nil => exact ⟨[], [], rfl, rfl, List.Forall₂.nil⟩
  | cons node nodes ih =>
    obtain ⟨hnode, hnodes⟩ := List.forall_mem_cons.1 h
    obtain ⟨rules, warnings, hrest, hgood, hbad⟩ := ih hnodes (index + 1)
    have haccepts := accepts_iff env node index
    rw [readRulesFrom, List.zipIdx_cons]
    rcases (entryFits_iff env node index).1 hnode with ⟨rule, hrule⟩ | ⟨warning, hwarning⟩
    · have hyes : accepts env node = true := haccepts.2 ⟨rule, hrule⟩
      obtain ⟨hrulenode, hindex, -⟩ := Rule.ofNode_eq_ok env hrule
      refine ⟨rule :: rules, warnings, ?_, ?_, ?_⟩
      · rw [hrule, hrest]
        rfl
      · simp only [List.filter_cons, hyes, if_true, List.map_cons, hgood, hrulenode, hindex]
      · simpa only [List.filter_cons, hyes, Bool.not_true, Bool.false_eq_true, if_false] using hbad
    · obtain ⟨err, name, herr, hname, hmessage, hhresult⟩ := hwarning
      have hno : accepts env node = false := by
        rw [← Bool.not_eq_true, haccepts, herr]
        exact not_returnsNormally_error _
      have hshown := (makeRuleDisplayNameChecked_eq env (parseError_of_ofNode env herr).1.1
        (index % 2 ^ 32)).symm.trans hname
      refine ⟨rules, warning :: warnings, ?_, ?_, ?_⟩
      · rw [herr]
        dsimp only
        rw [hshown, hrest]
        show (makeParseErrorMessage env err name >>= fun content => _) = _
        rw [hmessage, ← hhresult]
        rfl
      · simp only [List.filter_cons, hno, Bool.false_eq_true, if_false, hgood]
      · simp only [List.filter_cons, hno, Bool.not_false, if_true]
        exact List.Forall₂.cons ⟨err, name, herr, hname, hmessage, hhresult⟩ hbad

/-- **Bad entries are isolated, exactly** when the texts that are converted fit, and the good
entries are not further down than a `uint32_t` can count. -/
theorem readRules_isolates_iff (env : Externals F) (tree : Tree) :
    (∃ rules warnings, readRules env tree = .ok (rules, warnings) ∧
        Isolated env 1 (ruleNodes tree) rules warnings) ↔
      (∀ node ∈ ruleNodes tree, EntryFits env node) ∧
        ∀ e ∈ (ruleNodes tree).zipIdx 1, accepts env e.1 = true → e.2 < 2 ^ 32 := by
  constructor
  · rintro ⟨rules, warnings, hrun, hisolated⟩
    have hfits := entryFits_of_readRulesFrom env hrun
    refine ⟨hfits, fun e he haccepts => ?_⟩
    obtain ⟨rules', warnings', hrun', hgood, -⟩ := readRulesFrom_spec env hfits 1
    cases hrun.symm.trans hrun'
    -- the entry is one of the rules, and its position has been counted right
    have hmem : e ∈ rules.map fun rule => (rule.node, rule.index) := by
      rw [hgood]
      exact List.mem_filter.2 ⟨he, haccepts⟩
    obtain ⟨rule, hrule, rfl⟩ := List.mem_map.1 hmem
    have hcounted := List.map_inj_left.1 (hisolated.good.trans hgood.symm) rule hrule
    have hindex : rule.index % 2 ^ 32 = rule.index := congrArg Prod.snd hcounted
    omega
  · rintro ⟨hfits, hpositions⟩
    obtain ⟨rules, warnings, hrun, hgood, hbad⟩ := readRulesFrom_spec env hfits 1
    refine ⟨rules, warnings, hrun, ?_, ofNode_of_mem_readRulesFrom env hrun, hbad⟩
    rw [← hgood]
    refine List.map_congr_left fun rule hrule => ?_
    have hmem : (rule.node, rule.index) ∈ ((ruleNodes tree).zipIdx 1).filter
        fun e => accepts env e.1 := by
      rw [← hgood]
      exact List.mem_map_of_mem hrule
    obtain ⟨he, haccepts⟩ := List.mem_filter.1 hmem
    have hindex : rule.index < 2 ^ 32 := hpositions _ he haccepts
    rw [Rule.counted, Nat.mod_eq_of_lt hindex]

/-- A rule with a name. -/
def namedRule (name : Bytes) : Node :=
  .map [(Key.kName, .scalar ⟨false, some name⟩), (Key.kWhere, .map []), (Key.kThen, .map [])]

theorem not_entryFits_namedRule {name : Bytes} (h : 2 ^ 31 ≤ name.length)
    (h' : name.length < 2 ^ 32) : ¬ EntryFits env (namedRule name) := by
  intro hfits
  have hnull : name ∉ Scalar.nullSpellings := by
    intro hmem
    have hshort : ∀ spelling ∈ Scalar.nullSpellings, spelling.length ≤ 4 := by decide
    have hname := hshort name hmem
    omega
  have hval : name ≠ [] := List.length_pos_iff.1 (by omega)
  have hlen := (hfits rfl).1 ⟨false, some name⟩ rfl (by simp [Scalar.isNull, hnull]) hval
  have htoInt := toInt_of_ge h h'
  have hpos : 0 < toInt name.length := hlen
  omega

/-- A name of `2 ^ 31` bytes keeps all rules from being read. -/
theorem longName_notIsolated :
    let tree : Tree := some (.map [(Key.kRules,
      .seq [namedRule (List.replicate (2 ^ 31) 97), namedRule (ascii "short")])])
    ¬ ∃ rules warnings, readRules asciiExternals tree = .ok (rules, warnings) ∧
      Isolated asciiExternals 1 (ruleNodes tree) rules warnings := by
  rintro tree ⟨rules, warnings, hrun, -⟩
  have hfits := entryFits_of_readRulesFrom asciiExternals hrun
  refine not_entryFits_namedRule asciiExternals ?_ ?_ (hfits _ List.mem_cons_self)
  · rw [List.length_replicate]
  · rw [List.length_replicate]
    norm_num

end Rules

end RoxyGlance.Settings
