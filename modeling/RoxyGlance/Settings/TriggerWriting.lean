import RoxyGlance.Settings.Trigger

/-!
# Writing triggers and reading them back

* `visitMatchingTriggers`: the loop over the elements of `when`, which saves the next sibling before
  it lets the visitor remove the child;
* `removeTriggers` and `appendTriggers` are runs of that loop, and together they keep every element
  but those that name a trigger not requested, in their order, and add the triggers that are missing;
* `writeTriggerFlagsToNode_spec`: what is written is what is read, the rest of the rule stays, and
  writing again changes nothing.
-/

namespace RoxyGlance.Settings

theorem Trigger.mem_all (t : Trigger) : t ∈ Trigger.all := by cases t <;> decide

theorem TriggerFlags.ext_test {flags flags' : TriggerFlags} (h : ∀ t, flags.test t = flags'.test t) :
    flags = flags' := by
  obtain ⟨a, b, c⟩ := flags
  obtain ⟨a', b', c'⟩ := flags'
  obtain rfl : a = a' := h .applicationStart
  obtain rfl : b = b' := h .windowFocus
  obtain rfl : c = c' := h .windowShow
  rfl

/-! ### The loop -/

/-- What a visitor does with the child it is called for. -/
inductive Visit
  /-- It removes the child and returns true. -/
  | remove
  /-- It returns false, which ends the loop. -/
  | stop
  deriving DecidableEq

/-- The loop of `visitMatchingTriggers`, which has got past `before`; the child is the first of the
rest, and what follows it is where the saved next sibling points.  The results are the elements
afterwards and the value returned. -/
def visitMatchingTriggers (t : Trigger) (visit : Visit) (before : List Node) :
    List Node → List Node × Bool
  | [] => (before, true)
  | child :: next =>
    if triggerOf child = some t then
      match visit with
      | .remove => visitMatchingTriggers t visit before next
      | .stop => (before ++ child :: next, false)
    else visitMatchingTriggers t visit (before ++ [child]) next

/-- `containsTriggerFlag` -/
def containsTriggerFlag (seq : List Node) (t : Trigger) : Bool :=
  !(visitMatchingTriggers t .stop [] seq).2

/-- The loop with the removing visitor visits every match and leaves the others in place. -/
theorem visitMatchingTriggers_remove (t : Trigger) (before rest : List Node) :
    visitMatchingTriggers t .remove before rest =
      (before ++ rest.filter fun n => triggerOf n ≠ some t, true) := by
  induction rest generalizing before with
  | nil => simp [visitMatchingTriggers]
  | cons child next ih =>
    by_cases h : triggerOf child = some t
    · simp [visitMatchingTriggers, h, ih]
    · simp [visitMatchingTriggers, h, ih]

theorem containsTriggerFlag_eq (seq : List Node) (t : Trigger) :
    containsTriggerFlag seq t = seq.any fun n => triggerOf n = some t := by
  have hloop : ∀ before, (visitMatchingTriggers t .stop before seq).2 =
      !seq.any fun n => triggerOf n = some t := by
    induction seq with
    | nil => simp [visitMatchingTriggers]
    | cons child next ih =>
      intro before
      by_cases h : triggerOf child = some t
      · simp [visitMatchingTriggers, h]
      · simp [visitMatchingTriggers, h, ih]
  rw [containsTriggerFlag, hloop, Bool.not_not]

/-- The triggers that are not requested are removed by the loop, one after the other. -/
theorem removeTriggers_eq_visit (value : TriggerFlags) (items : List Node) :
    removeTriggers value items = Trigger.all.foldl (fun seq t =>
      if value.test t then seq else (visitMatchingTriggers t .remove [] seq).1) items := by
  unfold removeTriggers
  congr 1
  funext seq t
  rw [visitMatchingTriggers_remove, List.nil_append]

/-- The triggers that are requested are appended unless the loop finds them. -/
theorem appendTriggers_eq_visit (value : TriggerFlags) (items : List Node) :
    appendTriggers value items = Trigger.all.foldl (fun seq t =>
      if !value.test t then seq
      else if containsTriggerFlag seq t then seq
      else seq ++ [.scalar { quoted := false, text := some t.name }]) items := by
  unfold appendTriggers
  congr 1
  funext seq t
  rw [containsTriggerFlag_eq]
  cases value.test t <;> cases seq.any fun n => triggerOf n = some t <;> rfl

/-! ### What is kept and what is added -/

/-- The element stays: it names no trigger, or one that is requested. -/
def keeps (value : TriggerFlags) (n : Node) : Bool :=
  match triggerOf n with
  | none => true
  | some t => value.test t

/-- The element that names a trigger. -/
def nameNode (t : Trigger) : Node := .scalar { quoted := false, text := some t.name }

/-- An element names the trigger. -/
def names (t : Trigger) (items : List Node) : Bool := items.any fun n => triggerOf n = some t

/-- The requested triggers that no element names. -/
def missing (value : TriggerFlags) (items : List Node) : List Trigger :=
  Trigger.all.filter fun t => value.test t && !names t items

@[simp] theorem triggerOf_nameNode (t : Trigger) : triggerOf (nameNode t) = some t := by
  cases t <;> decide

theorem names_iff {t : Trigger} {items : List Node} :
    names t items = true ↔ ∃ n ∈ items, triggerOf n = some t := by
  simp [names]

theorem removeTriggers_eq_filter (value : TriggerFlags) (items : List Node) :
    removeTriggers value items = items.filter (keeps value) := by
  have hloop : ∀ (ts : List Trigger) (items : List Node),
      ts.foldl (fun items t =>
        if value.test t then items else items.filter fun n => triggerOf n ≠ some t) items =
      items.filter fun n => ts.all fun t => value.test t || triggerOf n ≠ some t := by
    intro ts
    induction ts with
    | nil => intro items; simp
    | cons t ts ih =>
      intro items
      rw [List.foldl_cons, ih]
      cases hvalue : value.test t
      · simp [List.filter_filter, hvalue, Bool.and_comm]
      · simp [hvalue]
  rw [removeTriggers, hloop]
  apply List.filter_congr
  intro n _
  unfold keeps
  cases triggerOf n with
  | none => simp
  | some t => cases t <;> simp [Trigger.all]

theorem names_append_nameNode {t t' : Trigger} (h : t' ≠ t) (items : List Node) :
    names t' (items ++ [nameNode t]) = names t' items := by
  simp [names, Ne.symm h]

theorem appendTriggers_eq_append (value : TriggerFlags) (items : List Node) :
    appendTriggers value items = items ++ (missing value items).map nameNode := by
  have hloop : ∀ (ts : List Trigger) (items : List Node), ts.Nodup →
      ts.foldl (fun items t =>
        if value.test t && !items.any (fun n => triggerOf n = some t) then
          items ++ [.scalar { quoted := false, text := some t.name }]
        else items) items =
      items ++ (ts.filter fun t => value.test t && !names t items).map nameNode := by
    intro ts
    induction ts with
    | nil => intro items _; simp
    | cons t ts ih =>
      intro items hnodup
      obtain ⟨hnot, hnodup⟩ := List.nodup_cons.1 hnodup
      rw [List.foldl_cons, ih _ hnodup, List.filter_cons]
      by_cases hadd : (value.test t && !names t items) = true
      · have hadd' : (value.test t && !items.any fun n => triggerOf n = some t) = true := hadd
        have hsame : (ts.filter fun t' => value.test t' && !names t' (items ++ [nameNode t])) =
            ts.filter fun t' => value.test t' && !names t' items := by
          apply List.filter_congr
          intro t' ht'
          rw [names_append_nameNode]
          rintro rfl
          exact hnot ht'
        rw [if_pos hadd, if_pos hadd', List.map_cons, ← hsame, List.append_assoc]
        rfl
      · have hadd' : ¬ (value.test t && !items.any fun n => triggerOf n = some t) = true := hadd
        rw [if_neg hadd, if_neg hadd']
  exact hloop Trigger.all items (by decide)

/-- The elements after a write. -/
def rewritten (value : TriggerFlags) (items : List Node) : List Node :=
  items.filter (keeps value) ++ (missing value items).map nameNode

theorem appendTriggers_removeTriggers (value : TriggerFlags) (items : List Node) :
    appendTriggers value (removeTriggers value items) = rewritten value items := by
  rw [appendTriggers_eq_append, removeTriggers_eq_filter, rewritten]
  congr 2
  unfold missing
  apply List.filter_congr
  intro t _
  cases hvalue : value.test t
  · rfl
  · have hnames : names t (items.filter (keeps value)) = names t items := by
      rw [Bool.eq_iff_iff, names_iff, names_iff]
      constructor
      · rintro ⟨n, hn, ht⟩
        exact ⟨n, (List.mem_filter.1 hn).1, ht⟩
      · rintro ⟨n, hn, ht⟩
        refine ⟨n, List.mem_filter.2 ⟨hn, ?_⟩, ht⟩
        rw [keeps, ht]
        exact hvalue
    rw [hnames]

/-- The elements after a write name the triggers that are requested, and no others. -/
theorem names_rewritten (value : TriggerFlags) (items : List Node) (t : Trigger) :
    names t (rewritten value items) = value.test t := by
  rw [Bool.eq_iff_iff, names_iff]
  constructor
  · rintro ⟨n, hn, ht⟩
    rcases List.mem_append.1 hn with hn | hn
    · have hkeeps := (List.mem_filter.1 hn).2
      rw [keeps, ht] at hkeeps
      exact hkeeps
    · obtain ⟨t', ht', rfl⟩ := List.mem_map.1 hn
      obtain rfl : t' = t := by simpa using ht
      exact (Bool.and_eq_true_iff.1 (List.mem_filter.1 ht').2).1
  · intro hvalue
    by_cases hnames : names t items = true
    · obtain ⟨n, hn, ht⟩ := names_iff.1 hnames
      refine ⟨n, List.mem_append_left _ (List.mem_filter.2 ⟨hn, ?_⟩), ht⟩
      rw [keeps, ht]
      exact hvalue
    · refine ⟨nameNode t, List.mem_append_right _ (List.mem_map_of_mem ?_), triggerOf_nameNode t⟩
      apply List.mem_filter.2
      exact ⟨t.mem_all, by simp [hvalue, hnames]⟩

/-- Writing again keeps every element and misses none. -/
theorem rewritten_rewritten (value : TriggerFlags) (items : List Node) :
    rewritten value (rewritten value items) = rewritten value items := by
  have hmissing : missing value (rewritten value items) = [] := by
    apply List.filter_eq_nil_iff.2
    intro t _
    rw [names_rewritten]
    simp
  have hkeeps : (rewritten value items).filter (keeps value) = rewritten value items := by
    apply List.filter_eq_self.2
    intro n hn
    unfold keeps
    cases ht : triggerOf n with
    | none => rfl
    | some t =>
      show value.test t = true
      rw [← names_rewritten value items t]
      exact names_iff.2 ⟨n, hn, ht⟩
  conv_lhs => rw [rewritten]
  rw [hmissing, hkeeps, List.map_nil, List.append_nil]

/-! ### The value of `when` -/

/-- The elements of `when`; a scalar counts as one element, with its text and without quotes. -/
def elements : Node → List Node
  | .seq items => items
  | .scalar s => [.scalar { quoted := false, text := some s.val }]
  | .map _ => []

/-- The scalars that a write produces: not quoted, and not without text. -/
def Plain (n : Node) : Prop := ∃ text, n = .scalar { quoted := false, text := some text }

theorem plain_rewritten {value : TriggerFlags} {items : List Node} (h : ∀ n ∈ items, Plain n) :
    ∀ n ∈ rewritten value items, Plain n := by
  intro n hn
  rcases List.mem_append.1 hn with hn | hn
  · exact h n (List.mem_filter.1 hn).1
  · obtain ⟨t, -, rfl⟩ := List.mem_map.1 hn
    exact ⟨t.name, rfl⟩

/-- What a scalar has become once its elements have been rewritten. -/
def collapse : List Node → Node
  | [.scalar s] => .scalar { quoted := false, text := some s.val }
  | items => .seq items

theorem elements_collapse {items : List Node} (h : ∀ n ∈ items, Plain n) :
    elements (collapse items) = items := by
  unfold collapse
  split
  · rename_i s
    obtain ⟨text, htext⟩ := h _ List.mem_cons_self
    cases htext
    rfl
  · rfl

theorem updateWhen_seq (value : TriggerFlags) (items : List Node) :
    updateWhen value (.seq items) = .seq (rewritten value items) := by
  rw [updateWhen, appendTriggers_removeTriggers]

theorem updateWhen_scalar (value : TriggerFlags) (s : Scalar) :
    updateWhen value (.scalar s) = collapse (rewritten value (elements (.scalar s))) := by
  simp only [updateWhen, appendTriggers_removeTriggers, elements]
  rfl

theorem elements_updateWhen (value : TriggerFlags) {w : Node} (h : w.isMap = false) :
    elements (updateWhen value w) = rewritten value (elements w) := by
  cases w with
  | seq items => rw [updateWhen_seq, elements, elements]
  | scalar s =>
    rw [updateWhen_scalar]
    apply elements_collapse
    apply plain_rewritten
    exact fun n hn => ⟨s.val, List.mem_singleton.1 hn⟩
  | map es => cases h

theorem isMap_updateWhen (value : TriggerFlags) {w : Node} (h : w.isMap = false) :
    (updateWhen value w).isMap = false := by
  cases w with
  | seq items =>
    rw [updateWhen_seq]
    rfl
  | scalar s =>
    rw [updateWhen_scalar]
    unfold collapse
    split <;> rfl
  | map es => cases h

/-- A second write finds nothing to do. -/
theorem updateWhen_updateWhen (value : TriggerFlags) {w : Node} (h : w.isMap = false) :
    updateWhen value (updateWhen value w) = updateWhen value w := by
  cases w with
  | seq items => rw [updateWhen_seq, updateWhen_seq, rewritten_rewritten]
  | scalar s =>
    have helements := elements_updateWhen value h
    rw [updateWhen_scalar] at helements ⊢
    cases hform : collapse (rewritten value (elements (.scalar s))) with
    | seq items =>
      rw [hform] at helements
      rw [updateWhen_seq, show items = _ from helements, rewritten_rewritten]
    | scalar s' =>
      rw [hform] at helements
      rw [updateWhen_scalar, helements, rewritten_rewritten, hform]
    | map es =>
      unfold collapse at hform
      split at hform <;> cases hform
  | map es => cases h

/-! ### Reading -/

theorem test_addTriggerFlags (flags : TriggerFlags) (str : Bytes) (t : Trigger) :
    (addTriggerFlags flags str).test t =
      (decide (toOptionalTriggerFlags str = some t) || flags.test t) := by
  unfold addTriggerFlags
  cases toOptionalTriggerFlags str with
  | none => simp
  | some t' => simp [TriggerFlags.test_insert]

/-- Reading a sequence collects the triggers its elements name. -/
theorem test_readSeq (items : List Node) (t : Trigger) :
    (items.foldl (fun flags v => match v with
        | .scalar s => addTriggerFlags flags s.val
        | _ => flags) TriggerFlags.none).test t = names t items := by
  have hloop : ∀ flags : TriggerFlags, (items.foldl (fun flags v => match v with
        | .scalar s => addTriggerFlags flags s.val
        | _ => flags) flags).test t = (flags.test t || names t items) := by
    induction items with
    | nil => intro flags; simp [names]
    | cons v items ih =>
      intro flags
      rw [List.foldl_cons, ih]
      cases v with
      | scalar s =>
        rw [test_addTriggerFlags, Bool.or_comm (decide _), Bool.or_assoc]
        rfl
      | seq items' => simp [names, triggerOf]
      | map es => simp [names, triggerOf]
  rw [hloop, TriggerFlags.test_none, Bool.false_or]

/-- What is read are the triggers that the elements of `when` name. -/
theorem readTriggerFlagsFromNode_eq_ok {n : Node} (hmap : n.isMap = true) {w : Node}
    (hchild : n.child Key.kWhen = some w) (hw : w.isMap = false) {value : TriggerFlags}
    (h : ∀ t, names t (elements w) = value.test t) : readTriggerFlagsFromNode n = .ok value := by
  unfold readTriggerFlagsFromNode
  simp only [hmap, hchild, Bool.not_true, Bool.false_eq_true, if_false]
  cases w with
  | seq items =>
    refine congrArg Except.ok (TriggerFlags.ext_test fun t => ?_)
    exact (test_readSeq items t).trans (h t)
  | scalar s =>
    refine congrArg Except.ok (TriggerFlags.ext_test fun t => ?_)
    have hnames : names t (elements (.scalar s)) =
        (decide (toOptionalTriggerFlags s.val = some t) || false) := rfl
    rw [test_addTriggerFlags, TriggerFlags.test_none, ← h t, hnames]
  | map es => cases hw

/-! ### The law -/

/-- The elements of the `when` of a rule; none if there is no such key. -/
def whenElements (n : Node) : List Node :=
  match n.child Key.kWhen with
  | none => []
  | some w => elements w

/-- `n'` is `n` with `w` under `when`: in its place if there is one, else directly before `where`. -/
def WhenPut (n : Node) (w : Node) (n' : Node) : Prop :=
  (∃ l₁ old l₂, n.entries = l₁ ++ (Key.kWhen, old) :: l₂ ∧ Key.kWhen ∉ l₁.map Prod.fst ∧
    n' = .map (l₁ ++ (Key.kWhen, w) :: l₂)) ∨
  (n.hasChild Key.kWhen = false ∧ ∃ l₁ c l₂, n.entries = l₁ ++ (Key.kWhere, c) :: l₂ ∧
    Key.kWhere ∉ l₁.map Prod.fst ∧
    n' = .map (l₁ ++ (Key.kWhen, w) :: (Key.kWhere, c) :: l₂))

theorem insertBefore_split {key : Bytes} {l₁ l₂ : List (Bytes × Node)} {c : Node}
    (h : key ∉ l₁.map Prod.fst) (e : Bytes × Node) :
    insertBefore key e (l₁ ++ (key, c) :: l₂) = l₁ ++ e :: (key, c) :: l₂ := by
  induction l₁ with
  | nil => simp [insertBefore]
  | cons e' l₁ ih =>
    obtain ⟨hne, hnot⟩ := not_or.1 (mt List.mem_cons.2 h)
    rw [List.cons_append, insertBefore, if_neg (Ne.symm hne), ih hnot]
    rfl

/-- What `WriteTriggerFlagsToNode` puts under `when`, and where. -/
theorem writeTriggerFlagsToNode_put {n : Node} (hwhere : n.hasChild Key.kWhere = true)
    (value : TriggerFlags) :
    WhenPut n (updateWhen value ((n.child Key.kWhen).getD (.seq [])))
      (writeTriggerFlagsToNode n value) := by
  unfold writeTriggerFlagsToNode
  cases hchild : n.child Key.kWhen with
  | some w =>
    obtain ⟨l₁, l₂, hl, hnot, hset⟩ := KeyedList.exists_split_of_lookup hchild
    refine .inl ⟨l₁, w, l₂, hl, hnot, ?_⟩
    show n.setChild Key.kWhen (updateWhen value w) = _
    unfold Node.setChild
    rw [hset]
    rfl
  | none =>
    obtain ⟨c, hc⟩ := Option.isSome_iff_exists.1 hwhere
    obtain ⟨l₁, l₂, hl, hnot, -⟩ := KeyedList.exists_split_of_lookup hc
    refine .inr ⟨?_, l₁, c, l₂, hl, hnot, ?_⟩
    · rw [Node.hasChild, hchild]
      rfl
    · rw [hl, insertBefore_split hnot]
      rfl

theorem WhenPut.child {n w n' : Node} (h : WhenPut n w n') : n'.child Key.kWhen = some w := by
  rcases h with ⟨l₁, old, l₂, -, hnot, rfl⟩ | ⟨habsent, l₁, c, l₂, hl, -, rfl⟩
  · exact KeyedList.lookup_append_cons hnot
  · apply KeyedList.lookup_append_cons
    have hlookup : n.child Key.kWhen = none := by simpa [Node.hasChild] using habsent
    have hkeys := KeyedList.lookup_eq_none_iff.1 hlookup
    rw [hl, List.map_append, List.mem_append, not_or] at hkeys
    exact hkeys.1

/-- **The law of writing triggers.**  What was written is read; the elements kept are those that
name no trigger or one that is requested, and the requested triggers that were not named follow
them; nothing else in the rule changes; and a second write changes nothing. -/
theorem writeTriggerFlagsToNode_spec {n : Node} (hwhere : n.hasChild Key.kWhere = true)
    (hwhen : ∀ w, n.child Key.kWhen = some w → w.isMap = false) (value : TriggerFlags) :
    let n' := writeTriggerFlagsToNode n value
    readTriggerFlagsFromNode n' = .ok value ∧
      whenElements n' = (whenElements n).filter (keeps value) ++
        (missing value (whenElements n)).map nameNode ∧
      (∃ w, WhenPut n w n') ∧
      writeTriggerFlagsToNode n' value = n' := by
  intro n'
  let w := (n.child Key.kWhen).getD (.seq [])
  have hw : w.isMap = false := by
    cases hchild : n.child Key.kWhen with
    | none => simp [w, hchild, Node.isMap]
    | some w' => simpa [w, hchild] using hwhen w' hchild
  have helements : elements w = whenElements n := by
    unfold whenElements
    cases hchild : n.child Key.kWhen <;> simp [w, hchild, elements]
  have hput : WhenPut n (updateWhen value w) n' := writeTriggerFlagsToNode_put hwhere value
  have hchild : n'.child Key.kWhen = some (updateWhen value w) := hput.child
  have hupdated : elements (updateWhen value w) = rewritten value (elements w) :=
    elements_updateWhen value hw
  -- writing is idempotent only in a map, and the entry has just been put into one
  have hmap' : n'.isMap = true := by
    rcases hput with ⟨l₁, old, l₂, -, -, heq⟩ | ⟨-, l₁, c, l₂, -, -, heq⟩ <;> rw [heq] <;> rfl
  refine ⟨?_, ?_, ⟨_, hput⟩, ?_⟩
  · apply readTriggerFlagsFromNode_eq_ok hmap' hchild (isMap_updateWhen value hw)
    intro t
    rw [hupdated, names_rewritten]
  · rw [← helements]
    unfold whenElements
    rw [hchild]
    exact hupdated
  · unfold writeTriggerFlagsToNode
    simp only [hchild, updateWhen_updateWhen value hw]
    unfold Node.setChild
    rw [KeyedList.set_of_lookup hchild]
    cases hn' : n' with
    | map es => rfl
    | scalar s => rw [hn'] at hmap'; cases hmap'
    | seq items => rw [hn'] at hmap'; cases hmap'

/-- `when: SHOW` in a rule that is to react to the focus: the name is replaced. -/
theorem writeTriggerFlagsToNode_spec_scalar :
    let n : Node := .map [(Key.kWhen, .scalar ⟨false, some (ascii "SHOW")⟩), (Key.kWhere, .map [])]
    let value : TriggerFlags := { windowFocus := true }
    readTriggerFlagsFromNode (writeTriggerFlagsToNode n value) = .ok value ∧
      whenElements (writeTriggerFlagsToNode n value) = [nameNode .windowFocus] := by
  intro n value
  have hwhen : ∀ w, n.child Key.kWhen = some w → w.isMap = false := by
    intro w hw
    obtain rfl : Node.scalar ⟨false, some (ascii "SHOW")⟩ = w := Option.some.inj hw
    rfl
  obtain ⟨hread, helements, -, -⟩ := writeTriggerFlagsToNode_spec (n := n) rfl hwhen value
  refine ⟨hread, helements.trans ?_⟩
  rfl

/-! ### Beside the law -/

/-- Triggers that were read are not those of a map. -/
theorem isMap_of_readTriggerFlags {n w : Node} {flags : TriggerFlags}
    (h : readTriggerFlagsFromNode n = .ok flags) (hw : n.child Key.kWhen = some w) :
    w.isMap = false := by
  unfold readTriggerFlagsFromNode at h
  rw [hw] at h
  split_ifs at h
  · cases h
  · cases w with
    | scalar s => rfl
    | seq items => rfl
    | map entries => cases h

/-- What was written is read. -/
theorem readTriggerFlagsFromNode_write {n : Node} (hwhere : n.hasChild Key.kWhere = true)
    (hwhen : ∀ w, n.child Key.kWhen = some w → w.isMap = false) (value : TriggerFlags) :
    readTriggerFlagsFromNode (writeTriggerFlagsToNode n value) = .ok value := by
  have hput := writeTriggerFlagsToNode_put hwhere value
  have hw : ((n.child Key.kWhen).getD (.seq [])).isMap = false := by
    cases hchild : n.child Key.kWhen with
    | none => rfl
    | some w => exact hwhen w hchild
  have hmap : (writeTriggerFlagsToNode n value).isMap = true := by
    rcases hput with ⟨l₁, old, l₂, -, -, heq⟩ | ⟨-, l₁, c, l₂, -, -, heq⟩
    · rw [heq]
      rfl
    · rw [heq]
      rfl
  refine readTriggerFlagsFromNode_eq_ok hmap hput.child (isMap_updateWhen value hw) fun t => ?_
  rw [elements_updateWhen value hw, names_rewritten]

end RoxyGlance.Settings
