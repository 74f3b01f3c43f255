import Mathlib.Algebra.Order.Group.Multiset
import Mathlib.Tactic.Abel
import MatchPlanner.Proofs.Construction
import MatchPlanner.Proofs.Validity

/-! The steps of one repetition in the order in which a loop takes them. -/

namespace MatchPlanner

inductive Walk : String → List TrailStep → String → Prop where
  | done {node : String} : Walk node [] node
  | step {relationship start middle finish : String} {direction : Direction} {types : List String} {rest : List TrailStep}
    (further : Walk middle rest finish) : Walk start (⟨relationship, ⟨start, middle, direction, types⟩⟩ :: rest) finish

namespace Walk

variable {start middle finish : String} {steps rest : List TrailStep}

theorem append (former : Walk start steps middle) (latter : Walk middle rest finish) : Walk start (steps ++ rest) finish := by
  induction former with
  | done => exact latter
  | step _ further => exact .step (further latter)

theorem reverse (walk : Walk start steps finish) : Walk finish (steps.reverse.map TrailStep.reversed) start := by
  induction walk with
  | done => exact .done
  | step _ further =>
    rw [List.reverse_cons, List.map_append]
    exact further.append (.step .done)

theorem of_chain {relationships : List PatternRelationship} (chain : Chain start relationships finish) :
    Walk start (relationships.map fun relationship =>
      ⟨relationship.name, ⟨relationship.left, relationship.right, relationship.direction, relationship.types⟩⟩) finish := by
  induction chain with
  | done => exact .done
  | step _ further => exact .step further

end Walk

namespace QuantifiedPattern

variable {pattern : QuantifiedPattern}

theorem WellFormed.walk (formed : pattern.WellFormed) (direction : TraversalDirection) :
    Walk (pattern.near direction).inner (pattern.steps direction) (pattern.far direction).inner := by
  cases direction with
  | forward => exact .of_chain formed.chain
  | reversed => exact (Walk.of_chain formed.chain).reverse

/-- Every relationship is traversed by a step, between its two nodes. -/
theorem step_of_relationship {relationship : PatternRelationship} (direction : TraversalDirection)
    (member : relationship ∈ pattern.relationships) : ∃ step ∈ pattern.steps direction, step.relationship = relationship.name ∧
      step.hop.types = relationship.types ∧ (step.hop.target = relationship.right ∨ step.hop.source = relationship.right) := by
  have forward : ∃ step ∈ pattern.forwardSteps, step.relationship = relationship.name ∧ step.hop.types = relationship.types ∧
      step.hop.target = relationship.right := ⟨_, List.mem_map_of_mem member, rfl, rfl, rfl⟩
  obtain ⟨step, among, name, types, target⟩ := forward
  cases direction with
  | forward => exact ⟨step, among, name, types, .inl target⟩
  | reversed =>
    exact ⟨step.reversed, List.mem_map_of_mem (List.mem_reverse.mpr among), name, types, .inr target⟩

theorem relationship_of_step {direction : TraversalDirection} {step : TrailStep} (member : step ∈ pattern.steps direction) :
    ∃ relationship ∈ pattern.relationships, step.relationship = relationship.name ∧ step.hop.types = relationship.types := by
  have forward : ∀ step ∈ pattern.forwardSteps, ∃ relationship ∈ pattern.relationships,
      step.relationship = relationship.name ∧ step.hop.types = relationship.types := by
    intro step among
    obtain ⟨relationship, inside, rfl⟩ := List.mem_map.mp among
    exact ⟨relationship, inside, rfl, rfl⟩
  cases direction with
  | forward => exact forward step member
  | reversed =>
    obtain ⟨original, among, rfl⟩ := List.mem_map.mp member
    exact forward original (List.mem_reverse.mp among)

end QuantifiedPattern

/-! Progress within a repetition. -/

variable {siblings : List RelationshipProducer}

@[simp] theorem InnerProgress.mem_scope_expand {progress : InnerProgress} {id : PlanId} {step : TrailStep} {name : String} :
    name ∈ (progress.expand id step).scope ↔ name = step.hop.target ∨ name = step.relationship ∨ name ∈ progress.scope := by
  simp only [InnerProgress.expand, NameSet.mem_insert]

/-- A check stands in the filter right above the expansion of a step. -/
def Plan.FiltersStep (plan : Plan) (step : TrailStep) (check : Expression) : Prop :=
  ∃ filterId predicates expandId mode below, .step filterId (.filter predicates)
    (.step expandId (.expand step.hop step.relationship mode) below) ∈ plan.subtrees ∧ check ∈ predicates

theorem Filtered.subtrees_subset {input plan : Plan} {predicates : List Expression} (filtered : Filtered input predicates plan) :
    input.subtrees ⊆ plan.subtrees := by
  cases filtered with
  | untouched => exact List.Subset.refl _
  | filter => exact List.subset_cons_self ..

theorem Filtered.step {input plan : Plan} {predicates : List Expression} (filtered : Filtered input predicates plan)
    (some : predicates ≠ []) : ∃ id, plan = .step id (.filter predicates) input := by
  cases filtered with
  | untouched => exact absurd rfl some
  | @filter id => exact ⟨id, rfl⟩

theorem InnerSteps.subtrees_subset {earlier steps : List TrailStep} {progress last : InnerProgress}
    (stepped : InnerSteps siblings earlier progress steps last) : progress.plan.subtrees ⊆ last.plan.subtrees := by
  induction stepped with
  | done => exact List.Subset.refl _
  | step expanded _ further =>
    exact List.Subset.trans (List.Subset.trans (List.subset_cons_self ..) expanded.filtered.subtrees_subset) further

/-- Every step is checked against the siblings right where it is taken. -/
theorem InnerSteps.filters {earlier steps : List TrailStep} {progress last : InnerProgress}
    (stepped : InnerSteps siblings earlier progress steps last) : ∀ step ∈ steps, ∀ check ∈ step.checksAgainstSiblings siblings,
      last.plan.FiltersStep step check := by
  induction stepped with
  | done =>
    intro _ impossible
    exact absurd impossible List.not_mem_nil
  | @step earlier rest step progress placed last id expanded onward further =>
    intro other member check made
    rcases List.mem_cons.mp member with rfl | later
    · have among : check ∈ progress.pending.filter (isReadyIn (progress.expand id other).scope) ++
          other.uniquenessChecks earlier siblings :=
        List.mem_append_right _ (List.mem_append_right _ made)
      obtain ⟨filterId, placedHere⟩ := expanded.filtered.step (List.ne_nil_of_mem among)
      refine ⟨filterId, _, id, if other.hop.target ∈ progress.scope then .into else .all, progress.plan,
        onward.subtrees_subset ?_, among⟩
      rw [placedHere]
      exact List.mem_cons_self
    · exact further other later check made

theorem InnerBuilt.filters {pending : List Expression} {arguments : NameSet} {steps : List TrailStep} {plan : Plan}
    (built : InnerBuilt pending arguments steps siblings plan) : ∀ step ∈ steps, ∀ check ∈ step.checksAgainstSiblings siblings,
      plan.FiltersStep step check := by
  cases built with
  | built begun stepped complete => exact stepped.filters

/-! What an inner plan filters by. -/

/-- The checks that the steps of a repetition give rise to. -/
def TrailStep.generated (siblings : List RelationshipProducer) : List TrailStep → List TrailStep → List Expression
  | _, [] => []
  | earlier, step :: rest => step.uniquenessChecks earlier siblings ++ generated siblings (earlier ++ [step]) rest

theorem Filtered.filterPredicates {input plan : Plan} {predicates : List Expression} (filtered : Filtered input predicates plan) :
    plan.filterPredicates = predicates ++ input.filterPredicates := by
  cases filtered with
  | untouched => rfl
  | filter => rfl

/-- The predicates a repetition has placed or still has to place. -/
def InnerProgress.contents (progress : InnerProgress) : Multiset Expression := progress.plan.filterPredicates + progress.pending

theorem InnerPlaced.contents {progress placed : InnerProgress} {checks : List Expression}
    (above : InnerPlaced progress checks placed) : placed.contents = progress.contents + checks := by
  have split : (progress.pending : Multiset Expression) = (progress.pending.filter (isReadyIn progress.scope) : List Expression) +
      (progress.pending.filter fun predicate => !isReadyIn progress.scope predicate : List Expression) :=
    Multiset.coe_eq_coe.mpr (List.filter_append_perm _ _).symm
  rw [InnerProgress.contents, InnerProgress.contents, above.filtered.filterPredicates, above.pending, split,
    ← Multiset.coe_add, ← Multiset.coe_add]
  abel

theorem InnerSteps.contents {earlier steps : List TrailStep} {progress last : InnerProgress}
    (stepped : InnerSteps siblings earlier progress steps last) :
    last.contents = progress.contents + TrailStep.generated siblings earlier steps := by
  induction stepped with
  | done => exact (add_zero _).symm
  | step expanded _ further =>
    rw [further, expanded.contents, TrailStep.generated, ← Multiset.coe_add, ← add_assoc]
    rfl

/-- An inner plan filters by the predicates it was given and by the checks of its steps. -/
theorem InnerBuilt.filterPredicates {pending : List Expression} {arguments : NameSet} {steps : List TrailStep} {plan : Plan}
    (built : InnerBuilt pending arguments steps siblings plan) :
    plan.filterPredicates.Perm (pending ++ TrailStep.generated siblings [] steps) := by
  cases built with
  | @built id started last begun stepped complete =>
    have contents := stepped.contents
    rw [begun.contents, InnerProgress.contents, InnerProgress.contents, complete] at contents
    apply Multiset.coe_eq_coe.mp
    simpa [InnerProgress.initial, Plan.filterPredicates, Plan.subtrees] using contents

end MatchPlanner
