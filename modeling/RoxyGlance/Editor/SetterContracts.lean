import RoxyGlance.Lib.Run
import RoxyGlance.Settings.RangeSoundness
import RoxyGlance.Editor.ActionSetters

/-!
# What the editor hands to the setters of an action

The view models of the placements refuse values that lie outside a range, and the setters of the
actions assume values that lie inside.  Between the two, edited fields wait for `applyChanges`.
Here the calls that `applyChanges` makes are recorded, and floats may be infinite or a NaN.

* `handOver`: the fields one after the other, with the calls that are made;
* `editor_meetsContracts_iff`: along every run of edits and applications, the calls for an absolute
  placement meet the assumptions, and those for a relative placement do so exactly as long as no
  field is handed over that holds a NaN.
-/

namespace RoxyGlance.Editor

open Settings Settings.NumericLimit
open Pending (Keeps)

/-! ### The calls -/

namespace MoveAndResizeViewModel

variable {A α : Type}

/-- The fields handed over in this order: the calls that are made, and how it ends. -/
def handOver (set : Lane → Node → A → α → Except Fault (Node × A)) :
    List Lane → Node × MoveAndResizeViewModel A α →
      List (Lane × α) × EStateM.Result Fault (Node × MoveAndResizeViewModel A α) Unit
  | [], s => ([], .ok () s)
  | lane :: lanes, s =>
    if lane.get s.2.dirty then
      match applyField (set lane) lane s with
      | .ok () s' =>
        ((lane, lane.get s.2.bounds) :: (handOver set lanes s').1, (handOver set lanes s').2)
      | .error fault s' => ([(lane, lane.get s.2.bounds)], .error fault s')
    else handOver set lanes s

variable {set : Lane → Node → A → α → Except Fault (Node × A)}

/-- Handing over a field keeps what the setters of the action keep about the node. -/
theorem keeps_applyField_of {accepts : Lane → α → Bool} {W : Node → Prop} {lane : Lane}
    (hset : ∀ node action val node' action', W node →
      set lane node action val = .ok (node', action') → W node') :
    Keeps (fun s : Node × MoveAndResizeViewModel A α => W s.1 ∧ s.2.Accepted accepts)
      (fun _ => True) (applyField (set lane) lane) := by
  rintro ⟨node, self⟩ ⟨hW, hself⟩
  simp only [applyField]
  split_ifs with hdirty
  · cases hrun : set lane node self.action (lane.get self.bounds) with
    | ok done => exact ⟨hset _ _ _ _ _ hW hrun, hself.clear lane⟩
    | error fault => exact ⟨trivial, hW, hself.clear lane⟩
  · exact ⟨hW, hself⟩

theorem keeps_applyFields_of {accepts : Lane → α → Bool} {W : Node → Prop}
    (hset : ∀ lane node action val node' action', W node →
      set lane node action val = .ok (node', action') → W node') :
    Keeps (fun s : Node × MoveAndResizeViewModel A α => W s.1 ∧ s.2.Accepted accepts)
      (fun _ => True) (applyFields set) :=
  (keeps_applyField_of (hset .x)).bind fun _ =>
    (keeps_applyField_of (hset .y)).bind fun _ =>
      (keeps_applyField_of (hset .width)).bind fun _ => keeps_applyField_of (hset .height)

theorem applyField_of_clean {lane : Lane} {s : Node × MoveAndResizeViewModel A α}
    (h : ¬ lane.get s.2.dirty = true) : applyField (set lane) lane s = .ok () s := by
  rw [applyField, if_neg h]

/-- The first field, then the others. -/
theorem handOver_cons (lane : Lane) (lanes : List Lane) (s : Node × MoveAndResizeViewModel A α) :
    (handOver set (lane :: lanes) s).2 =
      match applyField (set lane) lane s with
      | .ok () s' => (handOver set lanes s').2
      | .error fault s' => .error fault s' := by
  rw [handOver]
  by_cases hdirty : lane.get s.2.dirty = true
  · rw [if_pos hdirty]
    cases applyField (set lane) lane s <;> rfl
  · rw [if_neg hdirty, applyField_of_clean hdirty]

/-- The fields one after the other, as a computation. -/
def applyInOrder (set : Lane → Node → A → α → Except Fault (Node × A)) :
    List Lane → EStateM Fault (Node × MoveAndResizeViewModel A α) Unit
  | [] => pure ()
  | lane :: lanes => do
    applyField (set lane) lane
    applyInOrder set lanes

theorem handOver_eq_applyInOrder (lanes : List Lane) (s : Node × MoveAndResizeViewModel A α) :
    (handOver set lanes s).2 = applyInOrder set lanes s := by
  induction lanes generalizing s with
  | nil => rfl
  | cons lane lanes ih =>
    rw [handOver_cons]
    show _ = EStateM.bind (applyField (set lane) lane) (fun _ => applyInOrder set lanes) s
    unfold EStateM.bind
    cases applyField (set lane) lane s with
    | error fault s' => rfl
    | ok _ s' => exact ih s'

/-- Handing over the four fields is what `applyChanges` does. -/
theorem handOver_eq_applyFields (s : Node × MoveAndResizeViewModel A α) :
    (handOver set [.x, .y, .width, .height] s).2 = applyFields set s := by
  rw [handOver_eq_applyInOrder]
  simp only [applyInOrder, applyFields, bind_pure_unit]

/-- The calls get edited values. -/
theorem handOver_accepted {accepts : Lane → α → Bool} (lanes : List Lane)
    {s : Node × MoveAndResizeViewModel A α} (h : s.2.Accepted accepts) :
    ∀ c ∈ (handOver set lanes s).1, accepts c.1 c.2 = true := by
  induction lanes generalizing s with
  | nil => exact fun c hc => by cases hc
  | cons lane lanes ih =>
    rw [handOver]
    by_cases hdirty : lane.get s.2.dirty = true
    · rw [if_pos hdirty]
      have hcall := h lane hdirty
      have hkept : Pending.Kept (fun s => True ∧ s.2.Accepted accepts) (fun _ => True)
          (applyField (set lane) lane s) :=
        keeps_applyField_of (W := fun _ => True) (fun _ _ _ _ _ _ _ => trivial) s ⟨trivial, h⟩
      cases hrun : applyField (set lane) lane s with
      | error fault s' => exact List.forall_mem_singleton.2 hcall
      | ok _ s' =>
        rw [hrun] at hkept
        exact List.forall_mem_cons.2 ⟨hcall, ih hkept.2⟩
    · rw [if_neg hdirty]
      exact ih h

/-- When the action takes every value it accepts, as it does for nodes in `W`, all edited fields are
handed over, and so one that is not accepted gets its call. -/
theorem handOver_accepted_iff {accepts : Lane → α → Bool} {W : Node → Prop}
    (hset : ∀ lane node action val, W node → accepts lane val = true →
      ∃ node' action', set lane node action val = .ok (node', action') ∧ W node')
    {lanes : List Lane} (hnodup : lanes.Nodup) {s : Node × MoveAndResizeViewModel A α}
    (hW : W s.1) :
    (∀ c ∈ (handOver set lanes s).1, accepts c.1 c.2 = true) ↔
      ∀ lane ∈ lanes, lane.get s.2.dirty = true → accepts lane (lane.get s.2.bounds) = true := by
  induction lanes generalizing s with
  | nil => exact iff_of_true (fun c hc => by cases hc) fun lane hlane => by cases hlane
  | cons lane lanes ih =>
    obtain ⟨hnot, hnodup⟩ := List.nodup_cons.1 hnodup
    rw [handOver, List.forall_mem_cons]
    -- a call that is refused ends the list, but it is itself in the list
    by_cases hdirty : lane.get s.2.dirty = true
    · rw [if_pos hdirty]
      by_cases hcall : accepts lane (lane.get s.2.bounds) = true
      · obtain ⟨node', action', hrun, hW'⟩ := hset lane s.1 s.2.action _ hW hcall
        have happly : applyField (set lane) lane s = .ok () (node', { s.2 with
            dirty := lane.put s.2.dirty false, action := action' }) := by
          simp only [applyField, hdirty, if_true, hrun]
        simp only [happly, List.forall_mem_cons, hcall, true_and, imp_true_iff]
        rw [ih hnodup hW']
        apply forall₂_congr
        intro lane' hlane'
        have hne : lane' ≠ lane := fun heq => hnot (heq ▸ hlane')
        simp only [Lane.get_put_of_ne hne]
      · refine iff_of_false (fun h => hcall ?_) fun h => hcall (h.1 hdirty)
        cases hrun : applyField (set lane) lane s with
        | error fault s' =>
          rw [hrun] at h
          exact h _ List.mem_cons_self
        | ok _ s' =>
          rw [hrun] at h
          exact h _ List.mem_cons_self
    · rw [if_neg hdirty, ih hnodup hW]
      exact ⟨fun h => ⟨fun hd => absurd hd hdirty, h⟩, fun h => h.2⟩

end MoveAndResizeViewModel

open MoveAndResizeViewModel (Accepted applyFields handOver handOver_accepted handOver_accepted_iff
  handOver_eq_applyFields keeps_applyFields_of)

/-- The state a computation ends in, by a return or by an exception. -/
def stateAfter {ε σ β : Type} : EStateM.Result ε σ β → σ
  | .ok _ s => s
  | .error _ s => s

theorem stateAfter_of_kept {ε σ β : Type} {P : σ → Prop} {E : ε → Prop} {r : EStateM.Result ε σ β}
    (h : Pending.Kept P E r) : P (stateAfter r) := by
  cases r with
  | ok _ s => exact h
  | error _ s => exact h.2

/-! ### Absolute placement -/

/-- The order in which fields are handed over. -/
def order : List Lane := [.x, .y, .width, .height]

theorem mem_order (lane : Lane) : lane ∈ order := by cases lane <;> decide

namespace AbsoluteMoveAndResizeViewModel

variable {F : Type} (env : Externals F)

/-- An action of an absolute placement in the editor, with its node. -/
abbrev Held := Node × AbsoluteMoveAndResizeViewModel

/-- What the editor does with it. -/
inductive Event
  /-- The setter of a field. -/
  | edit (lane : Lane) (val : ℤ)
  /-- `applyChanges` -/
  | apply

/-- One event; a setter that throws leaves everything as it is. -/
def step (s : Held) : Event → Held
  | .edit lane val =>
    match set lane s.2 val with
    | .ok vm => (s.1, vm)
    | .error _ => s
  | .apply => stateAfter (applyChanges env s)

/-- The calls of the setters of the action that an event leads to. -/
def calls (s : Held) : Event → List (Lane × ℤ)
  | .edit _ _ => []
  | .apply => if s.2.hasPendingChanges then (handOver (setAction env) order s).1 else []

/-- The calls are those of `applyChanges`. -/
theorem applyChanges_eq_handOver :
    applyChanges env = Pending.whenPending (fun s => s.2.hasPendingChanges)
      (fun s => (s.1, { s.2 with hasPendingChanges := false }))
      fun s => (handOver (setAction env) order s).2 := by
  unfold applyChanges
  apply congrArg
  funext s
  exact (handOver_eq_applyFields s).symm

theorem accepted_step {s : Held} (hs : s.2.Accepted accepts) (e : Event) :
    (step env s e).2.Accepted accepts := by
  cases e with
  | edit lane val =>
    simp only [step]
    cases hset : set lane s.2 val with
    | ok vm => exact accepted_set hs hset
    | error fault => exact hs
  | apply =>
    have hkeeps : Keeps (fun s : Held => True ∧ s.2.Accepted accepts) (fun _ => True)
        (applyFields (setAction env)) :=
      keeps_applyFields_of fun _ _ _ _ _ _ _ _ => trivial
    exact (stateAfter_of_kept (hkeeps.whenPending (fun s => s.2.hasPendingChanges)
      (fun s => (s.1, { s.2 with hasPendingChanges := false })) (fun _ hs => hs) s
      ⟨trivial, hs⟩)).2

/-- **The editor keeps to the assumptions of an absolute placement.** -/
theorem calls_accepted (action : AbsoluteMoveAndResize) (node : Node) (changeType : Bool)
    (es : List Event) :
    Run.AllSteps (step env) (fun s e => ∀ c ∈ calls env s e, accepts c.1 c.2 = true)
      (node, ofAction action changeType) es := by
  refine Run.allSteps_of_preserved (P := fun s => s.2.Accepted accepts)
    (fun s e hs => accepted_step env hs e) (fun s e hs => ?_)
    (MoveAndResizeViewModel.accepted_ofAction accepts action action.windowBounds changeType) es
  cases e with
  | edit lane val => exact List.forall_mem_nil _
  | apply =>
    unfold calls
    split_ifs
    · exact handOver_accepted order hs
    · exact List.forall_mem_nil _

end AbsoluteMoveAndResizeViewModel

/-! ### Relative placement -/

/-- A number can be written over the child: it is missing or a scalar. -/
def Overwritable (child : Option Node) : Prop := ∀ n ∈ child, ∃ s, n = .scalar s

theorem writeField_of_writable {F : Type} (env : Externals F) {node : Node} {key : Bytes}
    (h : Overwritable (node.child key)) (text : Bytes) :
    ∃ s, writeField node key (fun child => writeScalar env child text)
      = .ok (node.setChild key (.scalar s)) := by
  unfold writeField
  cases hchild : node.child key with
  | none => exact ⟨_, rfl⟩
  | some n =>
    obtain ⟨s, rfl⟩ := h n hchild
    exact ⟨_, rfl⟩

theorem writeField_of_not_writable {F : Type} (env : Externals F) {node : Node} {key : Bytes}
    (h : ¬ Overwritable (node.child key)) (text : Bytes) :
    ∃ fault, writeField node key (fun child => writeScalar env child text) = .error fault := by
  unfold writeField
  cases hchild : node.child key with
  | none => exact absurd (fun n hn => by rw [hchild] at hn; cases hn) h
  | some n =>
    cases n with
    | scalar s =>
      refine absurd (fun n hn => ⟨s, ?_⟩) h
      rw [hchild] at hn
      cases hn
      rfl
    | seq items => exact ⟨_, rfl⟩
    | map entries => exact ⟨_, rfl⟩

/-- A child a number has been read from can be written over. -/
theorem writable_of_read {α : Type} {read : Bytes → Except Fault α} {child : Option Node}
    {id : KeyId} {defVal old : α} (h : readNumberOrDefault read child id defVal = .ok old) :
    Overwritable child := by
  intro n hn
  cases hn
  cases n with
  | scalar s => exact ⟨s, rfl⟩
  | seq items => cases h
  | map entries => cases h

/-- The fields of the node can be written over. -/
def LanesWritable (node : Node) : Prop := ∀ lane : Lane, Overwritable (node.child lane.key)

theorem LanesWritable.setChild {node : Node} (h : LanesWritable node) (lane : Lane) (s : Scalar) :
    LanesWritable (node.setChild lane.key (.scalar s)) := by
  intro lane'
  by_cases hlane : lane' = lane
  · subst hlane
    rw [Node.child_setChild_self]
    intro n hn
    cases hn
    exact ⟨s, rfl⟩
  · rw [Node.child_setChild_of_ne node (Lane.key_injective hlane)]
    exact h lane'

namespace RelativeMoveAndResizeViewModel

section Setters

variable {F : Type} [FloatLike F] (env : Externals F)

/-- The setter of a field takes what it accepts. -/
theorem setAction_of_accepts {lane : Lane} {node : Node} (h : LanesWritable node)
    (action : RelativeMoveAndResize F) {val : F} (haccepts : accepts val = true) :
    ∃ node' action', setAction env lane node action val = .ok (node', action') ∧
      LanesWritable node' := by
  have hassert : uncheckedAssert (FloatLike.le kRelativeCoordinateMin val &&
      FloatLike.le val kRelativeCoordinateMax) = .ok () := if_pos haccepts
  rw [setAction_relative_eq, RelativeMoveAndResize.setLane, hassert]
  by_cases hne : FloatLike.ne (lane.get action.windowBounds) val = true
  · obtain ⟨s, hwrite⟩ := writeField_of_writable env (h lane) (env.showFloat val)
    have hwrite : writeField node lane.key (fun child => writeFloatToNode env child val)
        = .ok (node.setChild lane.key (.scalar s)) := hwrite
    refine ⟨_, { action with windowBounds := lane.put action.windowBounds val }, ?_,
      h.setChild lane s⟩
    show (if FloatLike.ne (lane.get action.windowBounds) val = true then _ else _) = _
    rw [if_pos hne, hwrite]
    rfl
  · exact ⟨node, action, if_neg hne, h⟩

/-- What the setter of a field returns can be written over again. -/
theorem lanesWritable_setAction {lane : Lane} {node node' : Node}
    {action action' : RelativeMoveAndResize F} {val : F} (h : LanesWritable node)
    (hrun : setAction env lane node action val = .ok (node', action')) : LanesWritable node' := by
  by_cases haccepts : accepts val = true
  · have htaken : ∃ node₁ action₁, setAction env lane node action val = .ok (node₁, action₁) ∧
        LanesWritable node₁ := setAction_of_accepts env h action haccepts
    obtain ⟨node₁, action₁, hrun₁, h₁⟩ := htaken
    cases hrun.symm.trans hrun₁
    exact h₁
  · rw [setAction_relative_eq, RelativeMoveAndResize.setLane] at hrun
    obtain ⟨u, hassert, -⟩ := bind_eq_ok.1 hrun
    cases (if_neg haccepts).symm.trans hassert

/-- The id has to be written where the node has something else than a number. -/
def RefusesId (node : Node) (action : RelativeMoveAndResize F) (val : ℤ) : Prop :=
  val ≠ kRelativeMonitorIdUnset ∧ action.id ≠ val ∧ ¬ Overwritable (node.child Key.kMonitorId)

omit [FloatLike F] in
/-- The setter of the id takes what it accepts and leaves the other children alone, unless the node
refuses. -/
theorem setId_of_acceptsId (node : Node) (action : RelativeMoveAndResize F) {val : ℤ}
    (haccepts : acceptsId val = true) :
    (RefusesId node action val ∧ ∃ fault, action.setId env node val = .error fault) ∨
      (¬ RefusesId node action val ∧
        ∃ node' action', action.setId env node val = .ok (node', action') ∧
          ∀ key : Bytes, key ≠ Key.kMonitorId → node'.child key = node.child key) := by
  unfold RelativeMoveAndResize.setId
  by_cases hunset : val = kRelativeMonitorIdUnset
  · exact .inr ⟨fun h => h.1 hunset, _, _, if_pos hunset,
      fun key hkey => child_removeField_of_ne node hkey⟩
  · rw [if_neg hunset]
    have hassert : uncheckedAssert (decide (kRelativeMonitorIdMin ≤ val) &&
        decide (val ≤ kRelativeMonitorIdMax)) = .ok () := by
      rw [acceptsId, decide_eq_false hunset, Bool.false_or] at haccepts
      exact if_pos haccepts
    rw [hassert]
    by_cases hsame : action.id = val
    · exact .inr ⟨fun h => h.2.1 hsame, _, _, if_neg (not_not.2 hsame), fun key _ => rfl⟩
    · by_cases hwritable : Overwritable (node.child Key.kMonitorId)
      · obtain ⟨s, hwrite⟩ := writeField_of_writable env hwritable (env.showLong val)
        have hwrite : writeField node Key.kMonitorId (fun child => writeLongToNode env child val)
            = .ok (node.setChild Key.kMonitorId (.scalar s)) := hwrite
        refine .inr ⟨fun h => h.2.2 hwritable, node.setChild Key.kMonitorId (.scalar s),
          { action with id := val }, ?_, fun key hkey => Node.child_setChild_of_ne node hkey _⟩
        show (if action.id ≠ val then _ else _) = _
        rw [if_pos hsame, hwrite]
        rfl
      · obtain ⟨fault, hwrite⟩ := writeField_of_not_writable env hwritable (env.showLong val)
        have hwrite : writeField node Key.kMonitorId (fun child => writeLongToNode env child val)
            = .error fault := hwrite
        refine .inl ⟨⟨hunset, hsame, hwritable⟩, fault, ?_⟩
        show (if action.id ≠ val then _ else _) = _
        rw [if_pos hsame, hwrite]
        rfl

end Setters

section Runs

variable (env : Externals (Ieee ℚ))

/-- An action of a relative placement in the editor, with its node. -/
abbrev Held := Node × RelativeMoveAndResizeViewModel (Ieee ℚ)

/-- What the editor does with it. -/
inductive Event
  /-- The setter of a field. -/
  | edit (lane : Lane) (value : Ieee ℚ)
  /-- The setter of the id. -/
  | editId (value : ℤ)
  /-- `applyChanges` -/
  | apply

/-- One event; a setter that throws leaves everything as it is. -/
def step (s : Held) : Event → Held
  | .edit lane value =>
    match set lane s.2 value with
    | .ok vm => (s.1, vm)
    | .error _ => s
  | .editId value =>
    match setId s.2 value with
    | .ok vm => (s.1, vm)
    | .error _ => s
  | .apply => stateAfter (applyChanges env s)

/-- The calls for the fields, once the id has been handed over. -/
def fieldCalls (s : Held) : List (RelativeCall (Ieee ℚ)) :=
  match applyId env s with
  | .ok _ s => (handOver (setAction env) order (s.1, s.2.fields)).1.map fun c => .field c.1 c.2
  | .error _ _ => []

/-- The calls of the setters of the action that an event leads to. -/
def calls (s : Held) : Event → List (RelativeCall (Ieee ℚ))
  | .edit _ _ | .editId _ => []
  | .apply =>
    if s.2.hasPendingChanges then
      (if s.2.idDirty then [.id s.2.id] else []) ++ fieldCalls env s
    else []

/-- The calls are those of `applyChanges`. -/
theorem applyChanges_eq_handOver :
    applyChanges env = Pending.whenPending (fun s => s.2.hasPendingChanges)
      (fun s => (s.1, { s.2 with fields := { s.2.fields with hasPendingChanges := false } }))
      (applyId env >>= fun _ => Pending.zoom (fun s => (s.1, s.2.fields))
        (fun s t => (t.1, { s.2 with fields := t.2 }))
        fun s => (handOver (setAction env) order s).2) := by
  unfold applyChanges
  have hfields : applyFields (setAction env) = fun s => (handOver (setAction env) order s).2 := by
    funext s
    exact (handOver_eq_applyFields s).symm
  rw [hfields]

/-- What a field may hold that has been edited: a value the action accepts, or a NaN. -/
def acceptsOrNaN (_ : Lane) (value : Ieee ℚ) : Bool := accepts value || decide (value = .nan)

/-- A value that is not refused is in the range, or a NaN. -/
theorem acceptsOrNaN_of_not_outside (lane : Lane) {value : Ieee ℚ}
    (h : (FloatLike.lt value kRelativeCoordinateMin || FloatLike.lt kRelativeCoordinateMax value)
      = false) : acceptsOrNaN lane value = true := by
  rw [acceptsOrNaN, Bool.or_eq_true, decide_eq_true_eq, or_iff_not_imp_right]
  intro hvalue
  obtain ⟨hlo, hhi⟩ := Bool.or_eq_false_iff.1 h
  have hmin : (kRelativeCoordinateMin : Ieee ℚ) ≠ .nan := fun h => by cases h
  have hmax : (kRelativeCoordinateMax : Ieee ℚ) ≠ .nan := fun h => by cases h
  exact accepts_relative.2 ((Ieee.mem_iff_not_outside hmin hmax).2 ⟨hvalue, hlo, hhi⟩)

/-- What holds along every run. -/
structure Sound (s : Held) : Prop where
  writable : LanesWritable s.1
  fields : s.2.fields.Accepted acceptsOrNaN
  id : s.2.idDirty = true → acceptsId s.2.id = true

theorem sound_ofAction {node : Node} {action : RelativeMoveAndResize (Ieee ℚ)}
    (h : RelativeMoveAndResize.ofNode env node = .ok action) (changeType : Bool) :
    Sound (node, ofAction action changeType) where
  writable lane := by
    have hread := ((ofNode_relative_eq_ok env).1 h).2.1 lane
    unfold readRelativeLane readRelative readFloatFromNodeOrDefault at hread
    exact writable_of_read hread
  fields := MoveAndResizeViewModel.accepted_ofAction _ action action.windowBounds changeType
  id := by
    intro h
    cases h

theorem sound_set {lane : Lane} {s : Held} (hs : Sound s) {value : Ieee ℚ}
    {vm : RelativeMoveAndResizeViewModel (Ieee ℚ)} (h : set lane s.2 value = .ok vm) :
    Sound (s.1, vm) := by
  rw [set_eq_setRelative] at h
  obtain ⟨fields, hfields, hvm⟩ := bind_eq_ok.1 h
  cases hvm
  exact ⟨hs.writable, MoveAndResizeViewModel.accepted_setField hs.fields
    (acceptsOrNaN_of_not_outside lane) hfields, hs.id⟩

theorem sound_setId {s : Held} (hs : Sound s) {value : ℤ}
    {vm : RelativeMoveAndResizeViewModel (Ieee ℚ)} (h : setId s.2 value = .ok vm) :
    Sound (s.1, vm) := by
  rcases setId_cases h with rfl | ⟨hvalue, rfl⟩
  · exact hs
  · exact ⟨hs.writable, hs.fields, fun _ => hvalue⟩

/-- The node refuses the id that is to be handed over. -/
def IdRefused (s : Held) : Prop :=
  s.2.idDirty = true ∧ RefusesId s.1 s.2.fields.action s.2.id

/-- Handing over the id fails, or it goes well and leaves the fields to be handed over. -/
theorem applyId_cases {s : Held} (hs : Sound s) :
    (IdRefused s ∧ ∃ fault, applyId env s = .error fault (s.1, { s.2 with idDirty := false })) ∨
      (¬ IdRefused s ∧ ∃ s', applyId env s = .ok () s' ∧ Sound s' ∧
        s'.2.fields.dirty = s.2.fields.dirty ∧ s'.2.fields.bounds = s.2.fields.bounds) := by
  by_cases hdirty : s.2.idDirty = true
  · rcases setId_of_acceptsId env s.1 s.2.fields.action (hs.id hdirty) with
      ⟨hrefuses, fault, hrun⟩ | ⟨hrefuses, node', action', hrun, hothers⟩
    · refine .inl ⟨⟨hdirty, hrefuses⟩, fault, ?_⟩
      simp only [applyId, hdirty, if_true, hrun]
    · refine .inr ⟨fun h => hrefuses h.2, (node', { s.2 with
        idDirty := false, fields := { s.2.fields with action := action' } }), ?_,
        ⟨fun lane => ?_, hs.fields, fun h => by cases h⟩, rfl, rfl⟩
      · simp only [applyId, hdirty, if_true, hrun]
      · rw [hothers lane.key (by cases lane <;> decide)]
        exact hs.writable lane
  · refine .inr ⟨fun h => hdirty h.1, s, ?_, hs, rfl, rfl⟩
    simp only [applyId, if_neg hdirty]

theorem keeps_applyId_sound : Keeps Sound (fun _ => True) (applyId env) := by
  intro s hs
  rcases applyId_cases env hs with ⟨-, fault, hrun⟩ | ⟨-, s', hrun, hs', -⟩
  · rw [hrun]
    exact ⟨trivial, hs.writable, hs.fields, fun h => by cases h⟩
  · rw [hrun]
    exact hs'

/-- **Every event keeps it.** -/
theorem sound_step {s : Held} (hs : Sound s) (e : Event) : Sound (step env s e) := by
  cases e with
  | edit lane value =>
    simp only [step]
    cases hset : set lane s.2 value with
    | ok vm => exact sound_set hs hset
    | error fault => exact hs
  | editId value =>
    simp only [step]
    cases hset : setId s.2 value with
    | ok vm => exact sound_setId hs hset
    | error fault => exact hs
  | apply =>
    have hfields : Keeps (fun t => LanesWritable t.1 ∧ t.2.Accepted acceptsOrNaN) (fun _ => True)
        (applyFields (setAction env)) :=
      keeps_applyFields_of fun _ _ _ _ _ _ => lanesWritable_setAction env
    have hzoom : Keeps Sound (fun _ => True) (Pending.zoom (fun s : Held => (s.1, s.2.fields))
        (fun s t => (t.1, { s.2 with fields := t.2 })) (applyFields (setAction env))) :=
      hfields.zoom (fun s hs => ⟨hs.writable, hs.fields⟩) fun s t hs ht => ⟨ht.1, ht.2, hs.id⟩
    have hparts : Keeps Sound (fun _ => True) (applyId env >>= fun _ => Pending.zoom
        (fun s : Held => (s.1, s.2.fields)) (fun s t => (t.1, { s.2 with fields := t.2 }))
        (applyFields (setAction env))) := (keeps_applyId_sound env).bind fun _ => hzoom
    exact stateAfter_of_kept (hparts.whenPending (fun s => s.2.hasPendingChanges)
      (fun s => (s.1, { s.2 with fields := { s.2.fields with hasPendingChanges := false } }))
      (fun s hs => ⟨hs.writable, hs.fields, hs.id⟩) s hs)

/-- No field that is to be handed over holds a NaN. -/
def NoNaN (s : Held) : Prop :=
  ∀ lane : Lane, lane.get s.2.fields.dirty = true → lane.get s.2.fields.bounds ≠ .nan

/-- When pending changes are applied, no NaN is handed over: no edited field holds one, or the id is
refused before. -/
def HandsOverNoNaN (s : Held) : Event → Prop
  | .edit _ _ | .editId _ => True
  | .apply => s.2.hasPendingChanges = true → IdRefused s ∨ NoNaN s

theorem fieldCalls_accepted_iff {s : Held} (hs : Sound s) :
    (∀ c ∈ fieldCalls env s, c.Accepted) ↔ IdRefused s ∨ NoNaN s := by
  unfold fieldCalls
  rcases applyId_cases env hs with ⟨hrefused, fault, hrun⟩ | ⟨hrefused, s', hrun, hs', hdirty, hbounds⟩
  · rw [hrun]
    exact iff_of_true (List.forall_mem_nil _) (.inl hrefused)
  · rw [hrun, or_iff_right hrefused]
    have hset : ∀ (lane : Lane) (node : Node) (action : RelativeMoveAndResize (Ieee ℚ))
        (val : Ieee ℚ), LanesWritable node → accepts val = true →
        ∃ node' action', setAction env lane node action val = .ok (node', action') ∧
          LanesWritable node' := fun lane node action val hnode => setAction_of_accepts env hnode action
    simp only [List.forall_mem_map, RelativeCall.Accepted]
    rw [handOver_accepted_iff hset (by decide) hs'.writable, hdirty, hbounds]
    constructor
    · intro h lane hlane hnan
      have hval := h lane (mem_order lane) hlane
      rw [hnan] at hval
      cases hval
    · intro h lane _ hlane
      have hval := hs.fields lane hlane
      rw [acceptsOrNaN, Bool.or_eq_true, decide_eq_true_eq] at hval
      exact hval.resolve_right (h lane hlane)

/-- The calls of an event meet the assumptions exactly when it hands over no NaN. -/
theorem calls_accepted_iff {s : Held} (hs : Sound s) (e : Event) :
    (∀ c ∈ calls env s e, c.Accepted) ↔ HandsOverNoNaN s e := by
  cases e with
  | edit lane value => exact iff_of_true (List.forall_mem_nil _) trivial
  | editId value => exact iff_of_true (List.forall_mem_nil _) trivial
  | apply =>
    unfold calls HandsOverNoNaN
    by_cases hpending : s.2.hasPendingChanges = true
    · have hid : ∀ c ∈ (if s.2.idDirty then [RelativeCall.id s.2.id] else [] :
          List (RelativeCall (Ieee ℚ))), c.Accepted := by
        split_ifs with hdirty
        · exact List.forall_mem_singleton.2 (hs.id hdirty)
        · exact List.forall_mem_nil _
      simp only [hpending, if_true, true_imp_iff, List.forall_mem_append, and_iff_right hid,
        fieldCalls_accepted_iff env hs]
    · rw [if_neg hpending]
      exact iff_of_true (List.forall_mem_nil _) fun h => absurd h hpending

end Runs

end RelativeMoveAndResizeViewModel

/-! ### Both of them -/

/-- **The editor meets the assumptions of the setters, unless it hands over a NaN.** -/
theorem editor_meetsContracts_iff (env : Externals (Ieee ℚ)) :
    (∀ (node : Node) (action : AbsoluteMoveAndResize) (changeType : Bool)
        (es : List AbsoluteMoveAndResizeViewModel.Event),
      Run.AllSteps (AbsoluteMoveAndResizeViewModel.step env)
        (fun s e => ∀ c ∈ AbsoluteMoveAndResizeViewModel.calls env s e,
          AbsoluteMoveAndResizeViewModel.accepts c.1 c.2 = true)
        (node, AbsoluteMoveAndResizeViewModel.ofAction action changeType) es) ∧
    ∀ (node : Node) (action : RelativeMoveAndResize (Ieee ℚ)) (changeType : Bool)
        (es : List RelativeMoveAndResizeViewModel.Event),
      RelativeMoveAndResize.ofNode env node = .ok action →
      (Run.AllSteps (RelativeMoveAndResizeViewModel.step env)
          (fun s e => ∀ c ∈ RelativeMoveAndResizeViewModel.calls env s e, c.Accepted)
          (node, RelativeMoveAndResizeViewModel.ofAction action changeType) es ↔
        Run.AllSteps (RelativeMoveAndResizeViewModel.step env)
          RelativeMoveAndResizeViewModel.HandsOverNoNaN
          (node, RelativeMoveAndResizeViewModel.ofAction action changeType) es) := by
  constructor
  · exact fun node action => AbsoluteMoveAndResizeViewModel.calls_accepted env action node
  · intro node action changeType es h
    exact Run.allSteps_iff_of_invariant (P := RelativeMoveAndResizeViewModel.Sound)
      (fun s e hs _ => RelativeMoveAndResizeViewModel.sound_step env hs e)
      (fun s e hs => RelativeMoveAndResizeViewModel.calls_accepted_iff env hs e)
      (RelativeMoveAndResizeViewModel.sound_ofAction env h changeType) es

/-- A relative placement with the defaults. -/
def defaultPlacement : RelativeMoveAndResize (Ieee ℚ) :=
  ⟨(.contains, []), ⟨.finite (1 / 2), .finite (1 / 2), .finite 1, .finite 1⟩, 0⟩

/-- A NaN is edited, replaced by a fraction, and only then handed over. -/
theorem editor_meetsContracts_replaced :
    Run.AllSteps (RelativeMoveAndResizeViewModel.step ieeeExternals)
      (fun s e => ∀ c ∈ RelativeMoveAndResizeViewModel.calls ieeeExternals s e, c.Accepted)
      (.map [], RelativeMoveAndResizeViewModel.ofAction defaultPlacement false)
      [.edit .x .nan, .edit .x (.finite 0), .apply] := by
  refine ((editor_meetsContracts_iff ieeeExternals).2 (.map []) defaultPlacement false _ rfl).2 ?_
  refine ⟨trivial, trivial, fun _ => .inr fun lane _ => ?_, trivial⟩
  cases lane <;> decide

/-- A NaN is edited and handed over. -/
theorem nan_breaksContract :
    RelativeMoveAndResize.ofNode ieeeExternals (.map []) = .ok defaultPlacement ∧
    ¬ Run.AllSteps (RelativeMoveAndResizeViewModel.step ieeeExternals)
      (fun s e => ∀ c ∈ RelativeMoveAndResizeViewModel.calls ieeeExternals s e, c.Accepted)
      (.map [], RelativeMoveAndResizeViewModel.ofAction defaultPlacement false)
      [.edit .x .nan, .apply] := by
  refine ⟨rfl, fun h => ?_⟩
  have hcall : RelativeCall.field .x .nan ∈ RelativeMoveAndResizeViewModel.calls ieeeExternals
      (RelativeMoveAndResizeViewModel.step ieeeExternals
        (.map [], RelativeMoveAndResizeViewModel.ofAction defaultPlacement false)
        (.edit .x .nan)) .apply := List.mem_cons_self
  cases h.2.1 _ hcall

end RoxyGlance.Editor
