import RoxyGlance.Engine.RuleSet
import RoxyGlance.Lib.Counted

/-!
# Compiling filters

Each pattern of a filter that restricts anything becomes a predicate.  There are three patterns
and room for two predicates.

* `compileFilter_result`: with enough memory, compiling a filter appends `predicatesOf` it;
* `returnsNormally_compileFilter`: which filters fit.
-/

namespace RoxyGlance.Compiler

open Settings (Filter StringAndMatchType)
open Engine (Predicate PredicateSet Field)

/-- `CompileProcessImageName`, `CompileWindowClass` and `CompileWindowTitle`, for the three fields:
the match function for the match type, and a copy of the text. -/
def compilePattern (field : Field) (conf : StringAndMatchType) : Counted Fault Predicate := do
  Counted.request
  pure { field, type := conf.1, data := conf.2 }

/-- A part of `CompileFilter`: append the predicate of a pattern that restricts something.
`overflow` is what appending to a full `static_vector` throws. -/
def emplacePattern (overflow : Fault) (present : Prop) [Decidable present] (field : Field)
    (conf : StringAndMatchType) (condition : PredicateSet) : Counted Fault PredicateSet :=
  if present then do
    let p ← compilePattern field conf
    Counted.lift (condition.emplaceBack overflow p)
  else pure condition

/-- `CompileFilter` -/
def compileFilter (overflow : Fault) (filter : Filter) : Counted Fault PredicateSet := do
  let processImageName := filter.processImageName
  let condition ← emplacePattern overflow (processImageName.2 ≠ []) .processImageName
    processImageName BoundedVector.empty
  let windowClass := filter.windowClass
  let condition ← emplacePattern overflow (windowClass.2 ≠ [] ∨ windowClass.1 = .equals)
    .windowClass windowClass condition
  let windowTitle := filter.windowTitle
  emplacePattern overflow (windowTitle.2 ≠ [] ∨ windowTitle.1 = .equals) .windowTitle windowTitle
    condition

/-! ### The predicates of a filter -/

/-- The predicate of a pattern, if it has one. -/
def predicateOf (field : Field) (present : Prop) [Decidable present] (conf : StringAndMatchType) :
    List Predicate :=
  if present then [{ field, type := conf.1, data := conf.2 }] else []

/-- The process pattern counts when it has a text. -/
def ProcessPresent (filter : Filter) : Prop := filter.processImageName.2 ≠ []

/-- The class pattern counts when it has a text or asks for equality. -/
def ClassPresent (filter : Filter) : Prop :=
  filter.windowClass.2 ≠ [] ∨ filter.windowClass.1 = .equals

/-- The title pattern counts when it has a text or asks for equality. -/
def TitlePresent (filter : Filter) : Prop :=
  filter.windowTitle.2 ≠ [] ∨ filter.windowTitle.1 = .equals

instance (filter : Filter) : Decidable (ProcessPresent filter) := inferInstanceAs (Decidable (_ ≠ _))
instance (filter : Filter) : Decidable (ClassPresent filter) := inferInstanceAs (Decidable (_ ∨ _))
instance (filter : Filter) : Decidable (TitlePresent filter) := inferInstanceAs (Decidable (_ ∨ _))

/-- The predicates of a filter, in the order in which they are appended. -/
def predicatesOf (filter : Filter) : List Predicate :=
  predicateOf .processImageName (ProcessPresent filter) filter.processImageName ++
  predicateOf .windowClass (ClassPresent filter) filter.windowClass ++
  predicateOf .windowTitle (TitlePresent filter) filter.windowTitle

theorem emplacePattern_result (overflow : Fault) (field : Field) (present : Prop)
    [Decidable present] (conf : StringAndMatchType) (condition : PredicateSet) :
    (emplacePattern overflow present field conf condition).result =
      condition.emplaceAll overflow (predicateOf field present conf) := by
  unfold emplacePattern predicateOf
  by_cases h : present
  · simp only [if_pos h, compilePattern, Counted.result_bind, Counted.result_request,
      Counted.result_pure, Counted.result_lift, BoundedVector.emplaceAll]
    exact (bind_pure _).symm
  · simp only [if_neg h, Counted.result_pure, BoundedVector.emplaceAll]

/-- **With enough memory, compiling a filter appends its predicates.** -/
theorem compileFilter_result (overflow : Fault) (filter : Filter) :
    (compileFilter overflow filter).result =
      BoundedVector.empty.emplaceAll overflow (predicatesOf filter) := by
  unfold compileFilter predicatesOf
  simp only [Counted.result_bind, emplacePattern_result]
  rw [BoundedVector.emplaceAll_append, BoundedVector.emplaceAll_append, bind_assoc]
  rfl

theorem length_predicatesOf (filter : Filter) :
    (predicatesOf filter).length =
      (decide (ProcessPresent filter)).toNat + (decide (ClassPresent filter)).toNat +
        (decide (TitlePresent filter)).toNat := by
  have hone : ∀ (field : Field) (present : Prop) [Decidable present] (conf : StringAndMatchType),
      (predicateOf field present conf).length = (decide present).toNat := by
    intro field present _ conf
    unfold predicateOf
    by_cases h : present <;> simp [h]
  unfold predicatesOf
  simp only [List.length_append, hone]

/-- A filter fits when it does not restrict all three properties. -/
theorem returnsNormally_compileFilter (overflow : Fault) (filter : Filter) :
    ReturnsNormally (compileFilter overflow filter).result ↔
      ¬ (ProcessPresent filter ∧ ClassPresent filter ∧ TitlePresent filter) := by
  rw [compileFilter_result, ReturnsNormally, BoundedVector.exists_emplaceAll_eq_ok,
    length_predicatesOf]
  by_cases hp : ProcessPresent filter <;> by_cases hc : ClassPresent filter <;>
    by_cases ht : TitlePresent filter <;>
    simp [hp, hc, ht, BoundedVector.empty, Engine.predicateCapacity]

/-- **A filter fits the predicate set exactly when it does not restrict all three properties**:
then every predicate it asks for is there, whatever a full vector would do. -/
theorem compileFilter_fits_iff (filter : Filter) :
    (∀ overflow, ∃ condition, (compileFilter overflow filter).result = .ok condition ∧
      condition.toList = predicatesOf filter) ↔
      ¬ (filter.processImageName.2 ≠ [] ∧
        (filter.windowClass.2 ≠ [] ∨ filter.windowClass.1 = .equals) ∧
        (filter.windowTitle.2 ≠ [] ∨ filter.windowTitle.1 = .equals)) := by
  constructor
  · intro h
    obtain ⟨condition, hresult, -⟩ := h .exception
    exact (returnsNormally_compileFilter .exception filter).1 ⟨condition, hresult⟩
  · intro h overflow
    obtain ⟨condition, hresult⟩ := (returnsNormally_compileFilter overflow filter).2 h
    refine ⟨condition, hresult, ?_⟩
    rw [compileFilter_result] at hresult
    exact BoundedVector.emplaceAll_eq_ok.1 hresult

/-- A `where` with all three keys, as the documentation's example has them. -/
def threeConditions : Node :=
  .map [(ascii "process", .scalar ⟨true, some (ascii "^C:\\Editor\\editor.exe$")⟩),
    (ascii "class", .scalar ⟨false, some (ascii "^Editor")⟩),
    (ascii "title", .scalar ⟨false, some (ascii "Untitled")⟩)]

/-- It is read as a filter that overflows the predicate set. -/
theorem compileFilter_threeConditions :
    Filter.ofNode asciiExternals threeConditions =
      .ok ⟨(.equals, wide "C:\\Editor\\editor.exe"), (.startsWith, wide "Editor"),
        (.contains, wide "Untitled")⟩ ∧
    ∀ overflow, (compileFilter overflow
      ⟨(.equals, wide "C:\\Editor\\editor.exe"), (.startsWith, wide "Editor"),
        (.contains, wide "Untitled")⟩).result = .error overflow :=
  ⟨by decide, fun _ => rfl⟩

end RoxyGlance.Compiler
