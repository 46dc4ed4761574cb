import Mathlib.Data.List.Basic

/-!
# Invariants along guarded runs

A deterministic system is a state type, an event type and a step function.  A run is a list of
events from a start state.  `AllSteps` says that a guard holds of every event in the state in
which it happens, `Always` that a property holds in every state the run passes through, the first
and the last included.

* `always_of_allSteps`: a property preserved by guarded steps holds throughout a guarded run;
* `allSteps_of_preserved`: so does what it implies of each step;
* `AllSteps.imp_of_invariant`: along a guarded run an invariant turns one guard into another;
* `always_iff_allSteps`: when the guard is exactly what a step needs to keep the property, the
  property holds throughout exactly when every step is guarded;
* `always_iff_of_invariant`: the same for a property that is weaker than the invariant carried;
* `last_iff_of_trap`: the same for the last state, when an unguarded step is never made good;
  `last_iff_of_trap_along` for runs of which more is known;
* `always_iff_of_debt`: the same when an unguarded step breaks the property only later;
* `allSteps_iff_of_invariant`: the same for what is asked of each step rather than of each state.

A step that may have no outcome is a function into `Option`, and its runs are `List.foldlM`:
`foldlM_of_preserved`, `foldlM_total`, `exists_foldlM_iff` and `foldlM_rel` are the rules for them.
-/

namespace Run

variable {σ ε : Type*} (step : σ → ε → σ)

/-- The guard holds of each event in the state it happens in. -/
def AllSteps (guard : σ → ε → Prop) : σ → List ε → Prop
  | _, [] => True
  | s, e :: es => guard s e ∧ AllSteps guard (step s e) es

/-- The property holds in every state passed through. -/
def Always (P : σ → Prop) : σ → List ε → Prop
  | s, [] => P s
  | s, e :: es => P s ∧ Always P (step s e) es

variable {step} {guard : σ → ε → Prop} {P Q : σ → Prop}

theorem Always.head {s : σ} {es : List ε} (h : Always step P s es) : P s := by
  cases es with
  | nil => exact h
  | cons e es => exact h.1

/-- The last state is one of those passed through. -/
theorem Always.last {s : σ} {es : List ε} (h : Always step P s es) : P (es.foldl step s) := by
  induction es generalizing s with
  | nil => exact h
  | cons e es ih => exact ih h.2

theorem Always.mono (hPQ : ∀ s, P s → Q s) {s : σ} {es : List ε} (h : Always step P s es) :
    Always step Q s es := by
  induction es generalizing s with
  | nil => exact hPQ s h
  | cons e es ih => exact ⟨hPQ s h.1, ih h.2⟩

/-- **Invariant rule for guarded runs.** -/
theorem always_of_allSteps (hstep : ∀ s e, P s → guard s e → P (step s e)) {s : σ} (hs : P s)
    {es : List ε} (hg : AllSteps step guard s es) : Always step P s es := by
  induction es generalizing s with
  | nil => exact hs
  | cons e es ih => exact ⟨hs, ih (hstep s e hs hg.1) hg.2⟩

/-- **Invariant rule**: what every step preserves holds throughout every run. -/
theorem always_of_preserved (hstep : ∀ s e, P s → P (step s e)) {s : σ} (hs : P s) (es : List ε) :
    Always step P s es := by
  induction es generalizing s with
  | nil => exact hs
  | cons e es ih => exact ⟨hs, ih (hstep s e hs)⟩

/-- **Consequence rule**: under an invariant that guarded steps preserve, a guard may be replaced by
what it implies there. -/
theorem AllSteps.imp_of_invariant {goal : σ → ε → Prop}
    (hstep : ∀ s e, P s → guard s e → P (step s e)) (himp : ∀ s e, P s → guard s e → goal s e)
    {s : σ} (hs : P s) {es : List ε} (hg : AllSteps step guard s es) :
    AllSteps step goal s es := by
  induction es generalizing s with
  | nil => exact trivial
  | cons e es ih => exact ⟨himp s e hs hg.1, ih (hstep s e hs hg.1) hg.2⟩

/-- **Invariant rule for guards**: what an invariant of all steps implies holds of every step. -/
theorem allSteps_of_preserved {goal : σ → ε → Prop} (hstep : ∀ s e, P s → P (step s e))
    (himp : ∀ s e, P s → goal s e) {s : σ} (hs : P s) (es : List ε) : AllSteps step goal s es := by
  induction es generalizing s with
  | nil => exact trivial
  | cons e es ih => exact ⟨himp s e hs, ih (hstep s e hs)⟩

/-- **Exactness rule with an invariant**: `P` is carried along guarded steps and implies `Q`, and a
step from `P` that leaves `Q` intact was guarded. -/
theorem always_iff_of_invariant (hstep : ∀ s e, P s → guard s e → P (step s e))
    (hPQ : ∀ s, P s → Q s) (hneed : ∀ s e, P s → Q (step s e) → guard s e) {s : σ} (hs : P s)
    (es : List ε) : Always step Q s es ↔ AllSteps step guard s es := by
  refine ⟨fun h => ?_, fun hg => (always_of_allSteps hstep hs hg).mono hPQ⟩
  induction es generalizing s with
  | nil => exact trivial
  | cons e es ih =>
    have hg : guard s e := hneed s e hs h.2.head
    exact ⟨hg, ih (hstep s e hs hg) h.2⟩

/-- **Exactness rule**: the guard is the weakest one that keeps the property. -/
theorem always_iff_allSteps (hstep : ∀ s e, P s → (P (step s e) ↔ guard s e)) {s : σ} (hs : P s)
    (es : List ε) : Always step P s es ↔ AllSteps step guard s es :=
  always_iff_of_invariant (fun s e hP hg => (hstep s e hP).2 hg) (fun _ hP => hP)
    (fun s e hP => (hstep s e hP).1) hs es

theorem AllSteps.mono {goal : σ → ε → Prop} (h : ∀ s e, guard s e → goal s e) {s : σ} {es : List ε}
    (hg : AllSteps step guard s es) : AllSteps step goal s es := by
  induction es generalizing s with
  | nil => exact trivial
  | cons e es ih => exact ⟨h s e hg.1, ih hg.2⟩

/-- A guard that looks at the event alone. -/
theorem AllSteps.of_forall {good : ε → Prop} {es : List ε} (h : ∀ e ∈ es, good e) (s : σ) :
    AllSteps step (fun _ e => good e) s es := by
  induction es generalizing s with
  | nil => exact trivial
  | cons e es ih =>
    exact ⟨h e List.mem_cons_self, ih (fun e he => h e (List.mem_cons_of_mem _ he)) _⟩

/-- What holds of every event may be added to a guard. -/
theorem AllSteps.and_forall {good : ε → Prop} {s : σ} {es : List ε} (hg : AllSteps step guard s es)
    (h : ∀ e ∈ es, good e) : AllSteps step (fun s e => guard s e ∧ good e) s es := by
  induction es generalizing s with
  | nil => exact trivial
  | cons e es ih =>
    exact ⟨⟨hg.1, h e List.mem_cons_self⟩, ih hg.2 fun e he => h e (List.mem_cons_of_mem _ he)⟩

/-- **Exactness rule for the last state**: along a run of steps that are `ok`, guarded steps keep the
property, and a step that is not guarded leads to what no step undoes and the property excludes. -/
theorem last_iff_of_trap_along {ok : σ → ε → Prop} {trap : σ → Prop}
    (hstep : ∀ s e, P s → ok s e → guard s e → P (step s e))
    (hleave : ∀ s e, P s → ok s e → ¬ guard s e → trap (step s e))
    (htrap : ∀ s e, trap s → ok s e → trap (step s e)) (hPQ : ∀ s, P s → Q s)
    (hno : ∀ s, trap s → ¬ Q s) {s : σ} (hs : P s) {es : List ε} (hok : AllSteps step ok s es) :
    Q (es.foldl step s) ↔ AllSteps step guard s es := by
  induction es generalizing s with
  | nil => exact iff_of_true (hPQ s hs) trivial
  | cons e es ih =>
    rw [List.foldl_cons]
    by_cases hg : guard s e
    · rw [ih (hstep s e hs hok.1 hg) hok.2]
      exact (and_iff_right hg).symm
    · refine iff_of_false (hno _ ?_) fun h => hg h.1
      exact (always_of_allSteps htrap (hleave s e hs hok.1 hg) hok.2).last

/-- The same for runs of any steps. -/
theorem last_iff_of_trap {trap : σ → Prop} (hstep : ∀ s e, P s → guard s e → P (step s e))
    (hleave : ∀ s e, P s → ¬ guard s e → trap (step s e))
    (htrap : ∀ s e, trap s → trap (step s e)) (hPQ : ∀ s, P s → Q s) (hno : ∀ s, trap s → ¬ Q s)
    {s : σ} (hs : P s) (es : List ε) : Q (es.foldl step s) ↔ AllSteps step guard s es := by
  have hany : AllSteps step (fun _ _ => True) s es := .of_forall (fun _ _ => trivial) s
  exact last_iff_of_trap_along (fun s e hP _ => hstep s e hP) (fun s e hP _ => hleave s e hP)
    (fun s e ht _ => htrap s e ht) hPQ hno hs hany

/-- **Exactness rule with a debt**: a step that is not guarded leaves a debt, which stays until a step
breaks the property, and which no run ends with. -/
theorem always_iff_of_debt {debt done : σ → Prop}
    (hstep : ∀ s e, P s → guard s e → P (step s e)) (hPQ : ∀ s, P s → Q s)
    (hleave : ∀ s e, P s → ¬ guard s e → debt (step s e))
    (hdebt : ∀ s e, debt s → debt (step s e) ∨ ¬ Q (step s e)) (hdone : ∀ s, debt s → ¬ done s)
    {s : σ} (hs : P s) {es : List ε} (hend : done (es.foldl step s)) :
    Always step Q s es ↔ AllSteps step guard s es := by
  have hbroken : ∀ (es : List ε) (s : σ), debt s → done (es.foldl step s) →
      ¬ Always step Q s es := by
    intro es
    induction es with
    | nil => exact fun s hs hend _ => hdone s hs hend
    | cons e es ih =>
      intro s hs hend hQ
      rcases hdebt s e hs with hnext | hno
      · exact ih (step s e) hnext hend hQ.2
      · exact hno hQ.2.head
  refine ⟨fun h => ?_, fun hg => (always_of_allSteps hstep hs hg).mono hPQ⟩
  induction es generalizing s with
  | nil => exact trivial
  | cons e es ih =>
    by_cases hg : guard s e
    · exact ⟨hg, ih (hstep s e hs hg) hend h.2⟩
    · exact absurd h.2 (hbroken es _ (hleave s e hs hg) hend)

/-- Guards that are equivalent in every state are equivalent along every run. -/
theorem allSteps_congr {goal : σ → ε → Prop} (h : ∀ s e, guard s e ↔ goal s e) (s : σ)
    (es : List ε) : AllSteps step guard s es ↔ AllSteps step goal s es :=
  ⟨AllSteps.mono fun s e => (h s e).1, AllSteps.mono fun s e => (h s e).2⟩

/-- **Exactness rule for guards**: an invariant that guarded steps keep and under which the guard is
what a step needs makes the two agree along every run. -/
theorem allSteps_iff_of_invariant {goal : σ → ε → Prop}
    (hstep : ∀ s e, P s → guard s e → P (step s e)) (hiff : ∀ s e, P s → (goal s e ↔ guard s e))
    {s : σ} (hs : P s) (es : List ε) : AllSteps step goal s es ↔ AllSteps step guard s es := by
  induction es generalizing s with
  | nil => exact Iff.rfl
  | cons e es ih =>
    simp only [AllSteps, hiff s e hs]
    exact and_congr_right fun hg => ih (hstep s e hs hg)

/-! ### Steps that may have no outcome -/

section Partial

variable {pstep : σ → ε → Option σ}

/-- **Invariant rule for partial steps**: what every outcome of a step keeps holds of every outcome of
a run. -/
theorem foldlM_of_preserved (hstep : ∀ s e s', P s → pstep s e = some s' → P s') {s s' : σ}
    (hs : P s) {es : List ε} (h : es.foldlM pstep s = some s') : P s' := by
  induction es generalizing s with
  | nil =>
    cases h
    exact hs
  | cons e es ih =>
    rw [List.foldlM_cons] at h
    obtain ⟨s₁, hs₁, hrest⟩ := Option.bind_eq_some_iff.1 h
    exact ih (hstep s e s₁ hs hs₁) hrest

/-- **Totality rule**: when every step from an invariant has an outcome that keeps it, so does every
run. -/
theorem foldlM_total (hstep : ∀ s e, P s → ∃ s', pstep s e = some s' ∧ P s') {s : σ} (hs : P s)
    (es : List ε) : ∃ s', es.foldlM pstep s = some s' ∧ P s' := by
  induction es generalizing s with
  | nil => exact ⟨s, rfl, hs⟩
  | cons e es ih =>
    obtain ⟨s₁, hs₁, hP⟩ := hstep s e hs
    obtain ⟨s', hrest, hP'⟩ := ih hP
    refine ⟨s', ?_, hP'⟩
    rw [List.foldlM_cons, hs₁]
    exact hrest

/-- The guard holds of each event in the state it happens in, as far as the run gets. -/
def Guarded (pstep : σ → ε → Option σ) (guard : σ → ε → Prop) : σ → List ε → Prop
  | _, [] => True
  | s, e :: es => guard s e ∧ ∀ s', pstep s e = some s' → Guarded pstep guard s' es

/-- **Definedness rule**: when the guard says which steps have an outcome, a run has one exactly if all
its steps are guarded. -/
theorem exists_foldlM_iff (hstep : ∀ s e s', P s → pstep s e = some s' → P s')
    (hdefined : ∀ s e, P s → ((∃ s', pstep s e = some s') ↔ guard s e)) {s : σ} (hs : P s)
    (es : List ε) : (∃ s', es.foldlM pstep s = some s') ↔ Guarded pstep guard s es := by
  induction es generalizing s with
  | nil => exact iff_of_true ⟨s, rfl⟩ trivial
  | cons e es ih =>
    rw [List.foldlM_cons, Guarded, ← hdefined s e hs]
    cases hfirst : pstep s e with
    | none =>
      refine iff_of_false ?_ fun h => ?_
      · rintro ⟨s', h⟩
        cases h
      · obtain ⟨s', h⟩ := h.1
        cases h
    | some s₁ =>
      rw [Option.bind_eq_bind, Option.bind_some, ih (hstep s e s₁ hs hfirst)]
      constructor
      · intro h
        refine ⟨⟨s₁, rfl⟩, fun s' hs' => ?_⟩
        cases hs'
        exact h
      · exact fun h => h.2 s₁ rfl

/-- **Simulation rule**: steps from related states that have related outcomes, or none, make related
runs. -/
theorem foldlM_rel {τ : Type*} {pstep' : τ → ε → Option τ} {R : σ → τ → Prop}
    (hstep : ∀ s t e, R s t → Option.Rel R (pstep s e) (pstep' t e)) {s : σ} {t : τ} (h : R s t)
    (es : List ε) : Option.Rel R (es.foldlM pstep s) (es.foldlM pstep' t) := by
  induction es generalizing s t with
  | nil => exact .some h
  | cons e es ih =>
    rw [List.foldlM_cons, List.foldlM_cons]
    have hfirst := hstep s t e h
    cases hs : pstep s e with
    | none =>
      rw [hs] at hfirst
      cases ht : pstep' t e with
      | none => exact .none
      | some t₁ =>
        rw [ht] at hfirst
        cases hfirst
    | some s₁ =>
      rw [hs] at hfirst
      cases ht : pstep' t e with
      | none =>
        rw [ht] at hfirst
        cases hfirst
      | some t₁ =>
        rw [ht] at hfirst
        cases hfirst with
        | some hrel => exact ih hrel

end Partial

end Run
