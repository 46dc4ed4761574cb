import RoxyGlance.Settings.Rule

/-!
# The settings document

`UserSettingsDocument` owns a tree and, once something has been parsed, the rules read from it.
Parsing adds to the tree there is; it is `reset` that clears it.

* `readRules_throwsOnly`: reading the rules throws no exception, whatever the tree.
-/

namespace RoxyGlance.Settings

/-- `UserSettingsDocument`.  The `UserSettings` a root points to are its rules. -/
structure UserSettingsDocument where
  tree : Tree
  root : Option (List Rule)

/-- Why rapidyaml stops. -/
inductive ParseFailure
  | malformed
  | outOfMemory
  deriving DecidableEq, Repr

/-- The exception rapidyaml is set up to throw. -/
def ParseFailure.fault : ParseFailure → Fault
  | malformed => .exception
  | outOfMemory => .badAlloc

/-- What happens to the tree that `parse_in_arena` is given: the tree it leaves behind, and the
reason if it has stopped there. -/
abbrev Parser := Tree → Tree × Option ParseFailure

namespace UserSettingsDocument

/-- A default constructed document. -/
def empty : UserSettingsDocument := { tree := none, root := none }

/-- `reset` -/
def reset (_ : UserSettingsDocument) : UserSettingsDocument := empty

/-- `str`, given `emitrs_yaml`. -/
def str (emit : Tree → Bytes) (self : UserSettingsDocument) : Bytes := emit self.tree

/-- How `parse` ends: the document it leaves behind, and the warnings or the exception. -/
structure Parsed where
  document : UserSettingsDocument
  outcome : Except Fault (List Warning)

variable {F : Type} (env : Externals F)

/-- `parse`.  `allocated` is whether there is memory for the `UserSettings`. -/
def parse (self : UserSettingsDocument) (parser : Parser) (allocated : Bool) : Parsed :=
  match parser self.tree with
  | (tree, some failure) => ⟨{ self with tree }, .error failure.fault⟩
  | (tree, none) =>
    if !allocated then ⟨{ self with tree }, .error .badAlloc⟩
    else match readRules env tree with
      | .error fault => ⟨{ self with tree }, .error fault⟩
      | .ok (rules, warnings) => ⟨{ tree, root := some rules }, .ok warnings⟩

end UserSettingsDocument

/-! ### Reading the rules does not throw -/

section Throws

variable {F : Type} (env : Externals F)

/-- A `ParseError` about anything but a number, or a string longer than an `int` can tell. -/
def RefusesRule : Fault → Prop
  | .parseError err => err.reason ≠ .numberOutOfRange
  | .undefined => True
  | _ => False

/-- One that names one of these keys. -/
def Refuses (ids : List KeyId) : Fault → Prop
  | .parseError err => err.reason ≠ .numberOutOfRange ∧ err.keyId ∈ ids
  | .undefined => True
  | _ => False

theorem Refuses.mono {ids ids' : List KeyId} (h : ids ⊆ ids') (fault : Fault)
    (hfault : Refuses ids fault) : Refuses ids' fault := by
  cases fault with
  | parseError err => exact hfault.imp_right fun hid => h hid
  | undefined => trivial
  | hresultError hr => exact hfault
  | badAlloc => exact hfault
  | exception => exact hfault

theorem Refuses.refusesRule {ids : List KeyId} (fault : Fault) (hfault : Refuses ids fault) :
    RefusesRule fault := by
  cases fault with
  | parseError err => exact hfault.1
  | undefined => trivial
  | hresultError hr => exact hfault
  | badAlloc => exact hfault
  | exception => exact hfault

theorem throwParse_refuses {α : Type} {reason : ParseErrorReason} {id : KeyId} {ids : List KeyId}
    (h : reason ≠ .numberOutOfRange ∧ id ∈ ids) :
    ThrowsOnly (Refuses ids) (throwParse reason id : Except Fault α) := throwsOnly_error.2 h

theorem convertUtf8ToUtf16_throwsOnly (utf8 : Bytes) (utf8len : ℤ) :
    ThrowsOnly (fun fault => fault = .undefined) (env.convertUtf8ToUtf16 utf8 utf8len) := by
  unfold TextCodec.convertUtf8ToUtf16
  split_ifs
  · exact throwsOnly_error.2 rfl
  · cases env.decode (utf8.take utf8len.toNat) <;> exact throwsOnly_ok _

/-- The conversion fails for ill-formed text only. -/
theorem convertUtf8ToUtf16_eq_error {utf8 : Bytes} {utf8len : ℤ} {hr : HResult}
    (h : env.convertUtf8ToUtf16 utf8 utf8len = .ok (.error hr)) :
    hr = HResult.kErrorNoUnicodeTranslation := by
  unfold TextCodec.convertUtf8ToUtf16 at h
  split_ifs at h
  cases hdec : env.decode (utf8.take utf8len.toNat) with
  | some w => simp [hdec] at h
  | none => simpa [hdec] using h.symm

theorem convertUtf8Value_refuses (id : KeyId) (u8ptr : Bytes) (u8len : ℤ) :
    ThrowsOnly (Refuses [id]) (convertUtf8Value env id u8ptr u8len) := by
  have hconvert := convertUtf8ToUtf16_throwsOnly env u8ptr u8len
  refine (hconvert.mono fun fault h => by rw [h]; trivial).bind fun r hr => ?_
  cases r with
  | ok u16str => exact throwsOnly_ok _
  | error code =>
    simp only [convertUtf8ToUtf16_eq_error env hr, if_true]
    exact throwParse_refuses ⟨by decide, List.mem_singleton_self id⟩

theorem readStringFromNode_refuses (node : Option Node) (id : KeyId) :
    ThrowsOnly (Refuses [id]) (readStringFromNode env node id) := by
  unfold readStringFromNode
  split
  · exact throwsOnly_ok _
  · split_ifs
    · exact throwsOnly_ok _
    · exact throwsOnly_ok _
    · exact convertUtf8Value_refuses env id _ _
  · exact throwParse_refuses ⟨by decide, List.mem_singleton_self id⟩

theorem readStringAndMatchTypeFromNode_refuses (node : Option Node) (id : KeyId) :
    ThrowsOnly (Refuses [id]) (readStringAndMatchTypeFromNode env node id) := by
  cases node with
  | none => exact throwsOnly_ok _
  | some n =>
    cases n with
    | seq items => exact throwParse_refuses ⟨by decide, List.mem_singleton_self id⟩
    | map entries => exact throwParse_refuses ⟨by decide, List.mem_singleton_self id⟩
    | scalar s =>
      simp only [readStringAndMatchTypeFromNode]
      by_cases hnull : s.isNull = true
      · rw [if_pos hnull]
        exact throwsOnly_ok _
      rw [if_neg hnull]
      by_cases hval : s.val = []
      · rw [if_pos hval]
        exact throwsOnly_ok _
      rw [if_neg hval]
      by_cases hlen : utf8Length s.val = 0
      · rw [if_pos hlen]
        exact throwsOnly_ok _
      rw [if_neg hlen]
      exact (convertUtf8Value_refuses env id _ _).bind fun _ _ => throwsOnly_ok _

/-- The keys of a filter. -/
def filterIds : List KeyId := [.where, .processImageName, .windowClass, .windowTitle]

theorem Filter.ofNode_refuses (node : Node) :
    ThrowsOnly (Refuses filterIds) (Filter.ofNode env node) := by
  have hread : ∀ (child : Option Node) (id : KeyId), id ∈ filterIds →
      ThrowsOnly (Refuses filterIds) (readStringAndMatchTypeFromNode env child id) :=
    fun child id hid => (readStringAndMatchTypeFromNode_refuses env child id).mono
      (Refuses.mono (List.cons_subset.2 ⟨hid, List.nil_subset _⟩))
  unfold Filter.ofNode
  split_ifs
  · exact throwParse_refuses (by decide)
  · refine (hread _ _ (by decide)).bind fun _ _ => ?_
    refine (hread _ _ (by decide)).bind fun _ _ => ?_
    exact (hread _ _ (by decide)).bind fun _ _ => throwsOnly_ok _

theorem readTriggerFlagsFromNode_refuses {n : Node} (hmap : n.isMap = true) :
    ThrowsOnly (Refuses [.when]) (readTriggerFlagsFromNode n) := by
  unfold readTriggerFlagsFromNode
  rw [hmap, if_neg (by decide)]
  split
  · exact throwsOnly_ok _
  · exact throwsOnly_ok _
  · exact throwsOnly_ok _
  · exact throwParse_refuses (by decide)

theorem Action.ofNode_refuses (node : Node) :
    ThrowsOnly (Refuses [.then, .actionType]) (Action.ofNode node) := by
  unfold Action.ofNode
  split_ifs
  · exact throwParse_refuses (by decide)
  · refine ThrowsOnly.bind ?_ fun _ _ => throwsOnly_ok _
    unfold readActionTypeFromNode
    split
    · exact throwsOnly_ok _
    · exact throwsOnly_ok _
    · exact throwParse_refuses (by decide)

/-- The keys of a rule that is a map. -/
def ruleIds : List KeyId :=
  [.name, .where, .when, .then, .processImageName, .windowClass, .windowTitle, .actionType]

/-- Of a map, no error names the whole rule. -/
theorem Rule.ofNode_refuses {node : Node} (hmap : node.isMap = true) (index : ℕ) :
    ThrowsOnly (Refuses ruleIds) (Rule.ofNode env node index) := by
  have hcheck : ThrowsOnly (Refuses ruleIds) (checkRuleNode node) := by
    unfold checkRuleNode
    rw [hmap, if_neg (by decide)]
    split_ifs
    · exact throwParse_refuses (by decide)
    · exact throwParse_refuses (by decide)
    · exact throwsOnly_ok _
  unfold Rule.ofNode
  refine hcheck.bind fun _ _ => ?_
  refine ((readStringFromNode_refuses env _ _).mono (Refuses.mono (by decide))).bind fun _ _ => ?_
  refine ((Filter.ofNode_refuses env _).mono (Refuses.mono (by decide))).bind fun _ _ => ?_
  refine ((readTriggerFlagsFromNode_refuses hmap).mono (Refuses.mono (by decide))).bind
    fun _ _ => ?_
  exact ((Action.ofNode_refuses _).mono (Refuses.mono (by decide))).bind fun _ _ => throwsOnly_ok _

/-- What is not a map is refused as a whole. -/
theorem Rule.ofNode_of_not_isMap {node : Node} (hmap : node.isMap = false) (index : ℕ) :
    Rule.ofNode env node index = .error (.parseError ⟨.expectedMap, .rule, []⟩) := by
  unfold Rule.ofNode checkRuleNode
  rw [hmap]
  rfl

/-- A rule is refused with a `ParseError`, and never because of a number. -/
theorem Rule.ofNode_throwsOnly (node : Node) (index : ℕ) :
    ThrowsOnly RefusesRule (Rule.ofNode env node index) := by
  cases hmap : node.isMap with
  | true => exact (Rule.ofNode_refuses env hmap index).mono Refuses.refusesRule
  | false =>
    rw [Rule.ofNode_of_not_isMap env hmap index]
    exact throwsOnly_error.2 fun h => by cases h

theorem makeRuleDisplayName_throwsOnly (rule : Node) (err : ParseError) (index : ℕ) :
    ThrowsOnly (fun fault => fault = .undefined) (makeRuleDisplayName env rule err index) := by
  unfold makeRuleDisplayName
  split_ifs
  · exact throwsOnly_ok _
  · split
    · rename_i s hname
      split_ifs
      · exact throwsOnly_ok _
      · by_cases hval : s.val = []
        · simp only [convertString, if_pos hval]
          exact throwsOnly_ok _
        · simp only [convertString, if_neg hval]
          refine (convertUtf8ToUtf16_throwsOnly env _ _).bind fun r hr => ?_
          cases r with
          | ok name => exact throwsOnly_ok _
          | error code =>
            simp only [convertUtf8ToUtf16_eq_error env hr, if_true]
            exact throwsOnly_ok _
    · exact throwsOnly_ok _

theorem makeParseErrorMessage_throwsOnly {err : ParseError} (h : err.reason ≠ .numberOutOfRange)
    (ruleName : Wide) (P : Fault → Prop) :
    ThrowsOnly P (makeParseErrorMessage env err ruleName) := by
  obtain ⟨reason, keyId, content⟩ := err
  cases reason with
  | numberOutOfRange => exact absurd rfl h
  | missingRequiredKey => exact throwsOnly_ok _
  | expectedString => exact throwsOnly_ok _
  | expectedNumber => exact throwsOnly_ok _
  | expectedMap => exact throwsOnly_ok _
  | expectedSequence => exact throwsOnly_ok _
  | invalidString => exact throwsOnly_ok _
  | invalidNumber => exact throwsOnly_ok _

/-- Every refusal of a rule becomes a warning. -/
theorem readRulesFrom_throwsOnly (nodes : List Node) (index : ℕ) :
    ThrowsOnly (fun fault => fault = .undefined) (readRulesFrom env index nodes) := by
  induction nodes generalizing index with
  | nil => exact throwsOnly_ok _
  | cons node nodes ih =>
    have hrefused := Rule.ofNode_throwsOnly env node index
    simp only [readRulesFrom]
    cases hrule : Rule.ofNode env node index with
    | ok rule => exact (ih (index + 1)).bind fun _ _ => throwsOnly_ok _
    | error fault =>
      have hfault := hrefused fault hrule
      cases fault with
      | parseError err =>
        refine (makeRuleDisplayName_throwsOnly env node err _).bind fun _ _ => ?_
        refine (makeParseErrorMessage_throwsOnly env hfault _ _).bind fun _ _ => ?_
        exact (ih (index + 1)).bind fun _ _ => throwsOnly_ok _
      | undefined => exact throwsOnly_error.2 rfl
      | hresultError hr => cases hfault
      | badAlloc => cases hfault
      | exception => cases hfault

/-- **Reading the rules throws no exception**, short of a string that is too long for an `int`. -/
theorem readRules_throwsOnly (tree : Tree) :
    ThrowsOnly (fun fault => fault = .undefined) (readRules env tree) :=
  readRulesFrom_throwsOnly env (ruleNodes tree) 1

end Throws

end RoxyGlance.Settings
