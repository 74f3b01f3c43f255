import MatchPlanner.Proofs.Freshness
import MatchPlanner.Proofs.Scoping
import MatchPlanner.Proofs.Settlement

/-! The variables an operator binds itself. The operator of a connection introduces what the connection exposes, an endpoint that
is still free, or the fresh end of a loop, and nothing else becomes available above it. -/

namespace MatchPlanner

def Leaf.introduces : Leaf → List String
  | .argument _ => []
  | .allNodesScan node => [node]
  | .labelScan node _ => [node]
  | .indexSeek node _ _ _ _ => [node]

theorem Leaf.introduces_subset (leaf : Leaf) : leaf.introduces ⊆ leaf.binds := by
  cases leaf <;> first | exact List.nil_subset _ | exact List.Subset.refl _

/-- A target that is only checked was bound before. -/
def Hop.introduces (hop : Hop) : ExpansionMode → List String
  | .all => [hop.target]
  | .into => []

def Step.introduces : Step → List String
  | .expand hop relationship mode => relationship :: hop.introduces mode
  | .varLengthExpand hop relationship _ _ _ mode => relationship :: hop.introduces mode
  | .pruningVarExpand hop _ _ _ _ => [hop.target]
  | .bfsPruningVarExpand hop _ _ _ _ => [hop.target]
  | .filter _ => []
  | .eager _ => []

/-- A connection whose own names are told apart from one another, from its endpoints and from the ends of loops. -/
structure Connection.Proper (connection : Connection) : Prop where
  exposed : connection.exposed.Nodup
  apart : ∀ name ∈ connection.exposed, name ≠ connection.left ∧ name ≠ connection.right ∧ isReserved name = false

namespace Plan

/-- What the root of a plan binds, besides what its inputs bring and the arguments it carries. -/
def introduces : Plan → List String
  | .leaf _ operator => operator.introduces
  | .step _ operator _ => operator.introduces
  | .trail _ parameters _ _ => parameters.finish :: parameters.groups
  | .join _ _ _ _ => []

/-- A plan with one operator on top of it, the inner plan of a loop left aside. -/
inductive Beneath (input : Plan) : Plan → Prop where
  | step {id : PlanId} {operator : Step} : Beneath input (.step id operator input)
  | trail {id : PlanId} {parameters : TrailParameters} {inner : Plan} : Beneath input (.trail id parameters input inner)

namespace Beneath

variable {input operator : Plan}

theorem outer (beneath : input.Beneath operator) : operator.outer = operator :: input.outer := by
  cases beneath <;> rfl

theorem freshEnds_subset (beneath : input.Beneath operator) : input.freshEnds ⊆ operator.freshEnds := by
  cases beneath with
  | step => exact List.Subset.refl _
  | @trail id parameters inner =>
    cases fresh : isReserved parameters.finish with
    | true => exact freshEnds_trail fresh ▸ List.subset_cons_self _ _
    | false => exact freshEnds_trail_named fresh ▸ List.Subset.refl _

end Beneath

/-- The operator above a plan binds what a connection brings with it. -/
structure Introduces (connection : Connection) (input operator : Plan) : Prop where
  beneath : input.Beneath operator
  distinct : connection.Proper → operator.introduces.Nodup
  introduces : ∀ name ∈ operator.introduces, name ∈ connection.exposed ∨
    name ∉ input.available ∧ (name = connection.left ∨ name = connection.right) ∨
    isReserved name = true ∧ operator.freshEnds = name :: input.freshEnds
  available : ∀ name ∈ operator.available, name ∈ input.available ∨ name ∈ operator.introduces

end Plan

/-! Steps over a hop. -/

/-- A step that introduces the variable of what it follows and its target, the target only when it is free. -/
structure Step.Reaches (hop : Hop) (follows : String) (bound : NameSet) (operator : Step) : Prop where
  distinct : follows ≠ hop.target → operator.introduces.Nodup
  introduces : ∀ name ∈ operator.introduces, name = follows ∨ name = hop.target ∧ name ∉ bound
  binds : ∀ name ∈ operator.binds, name ∈ bound ∨ name ∈ operator.introduces

namespace Step.Reaches

variable {hop : Hop} {follows : String} {bound : NameSet} {operator : Step}

/-- A target is checked when it is bound. -/
theorem binding (source : hop.source ∈ bound) (binds : operator.binds = [hop.source, follows, hop.target])
    (introduces : operator.introduces = follows :: hop.introduces (if hop.target ∈ bound then .into else .all)) :
    operator.Reaches hop follows bound := by
  by_cases taken : hop.target ∈ bound
  · rw [if_pos taken, Hop.introduces] at introduces
    constructor
    · rw [introduces]
      exact fun _ => List.nodup_singleton _
    · rw [introduces]
      exact fun name member => .inl (List.mem_singleton.mp member)
    · rw [introduces, binds]
      simp [source, taken]
  · rw [if_neg taken, Hop.introduces] at introduces
    constructor
    · simp [introduces]
    · rw [introduces]
      simp [taken]
    · rw [introduces, binds]
      simp [source]

theorem pruning (source : hop.source ∈ bound) (free : hop.target ∉ bound) (binds : operator.binds = [hop.source, hop.target])
    (introduces : operator.introduces = [hop.target]) : operator.Reaches hop follows bound := by
  constructor
  · rw [introduces]
    exact fun _ => List.nodup_singleton _
  · rw [introduces]
    simp [free]
  · rw [introduces, binds]
    simp [source]

theorem above {input : Plan} {connection : Connection} (reaches : operator.Reaches hop follows input.available)
    (exposed : follows ∈ connection.exposed) (target : hop.target = connection.left ∨ hop.target = connection.right)
    (id : PlanId) : input.Introduces connection (.step id operator input) where
  beneath := .step
  distinct proper := by
    obtain ⟨left, right, -⟩ := proper.apart follows exposed
    refine reaches.distinct fun called => ?_
    rcases target with same | same
    exacts [left (called.trans same), right (called.trans same)]
  introduces name member := by
    rcases reaches.introduces name member with rfl | ⟨rfl, free⟩
    exacts [.inl exposed, .inr (.inl ⟨free, target⟩)]
  available name member := by
    rcases Plan.mem_available_step.mp member with below | here
    exacts [.inl below, reaches.binds name here]

end Step.Reaches

namespace PatternRelationship

variable {relationship : PatternRelationship}

theorem reaches_step (hop : Hop) {bound : NameSet} (source : hop.source ∈ bound) :
    (relationship.step hop (if hop.target ∈ bound then .into else .all)).Reaches hop relationship.name bound := by
  refine .binding source ?_ ?_ <;>
  · unfold step
    split <;> rfl

theorem introduces_expandAbove {input : Plan}
    (touches : relationship.left ∈ input.available ∨ relationship.right ∈ input.available) (id : PlanId) :
    input.Introduces (.relationship relationship) (relationship.expandAbove id input) := by
  unfold expandAbove
  rcases relationship.mem_orientation input.available with ⟨same, bound⟩ | ⟨same, free⟩
  · rw [same]
    exact (reaches_step (relationship.hop relationship.left relationship.right) bound).above (List.mem_singleton_self _) (.inr rfl) id
  · rw [same]
    exact (reaches_step (relationship.hop relationship.right relationship.left) (touches.resolve_left free)).above
      (List.mem_singleton_self _) (.inl rfl) id

end PatternRelationship

/-! Quantified patterns. -/

theorem QuantifiedRequest.reaches_expansion {request : QuantifiedRequest} {config : PlannerConfig} {hop : Hop} {group : String}
    {predicates : List VariablePredicate} {needed bound : NameSet} (source : hop.source ∈ bound) :
    (request.expansion config hop group predicates (request.prunes config needed group (decide (hop.target ∈ bound)))
      (decide (hop.target ∈ bound))).Reaches hop group bound := by
  rcases request.expansion_cases config hop group predicates (request.prunes config needed group (decide (hop.target ∈ bound)))
    (decide (hop.target ∈ bound)) with full | ⟨needless, pruned⟩
  · rw [full]
    refine .binding source rfl ?_
    simp only [Step.introduces, decide_eq_true_eq]
  · have free : hop.target ∉ bound := by
      simp only [prunes, Bool.and_eq_true, Bool.not_eq_true', decide_eq_false_iff_not] at needless
      exact needless.2
    obtain ⟨most, -, same⟩ | ⟨-, same⟩ := pruned
    · rw [same]
      exact .pruning source free rfl rfl
    · rw [same]
      exact .pruning source free rfl rfl

theorem TrailRequest.introduces_trail (request : TrailRequest) {input : Plan} {finish : String}
    (ends : finish = request.far.outer ∧ finish ∉ input.available ∨ isReserved finish = true) (id : PlanId) (inner : Plan) :
    input.Introduces (.quantified request.pattern) (.trail id (request.parameters finish) input inner) where
  beneath := .trail
  distinct proper := by
    refine List.nodup_cons.mpr ⟨fun member => ?_, (request.groups_sublist finish).nodup proper.exposed⟩
    obtain ⟨left, right, plain⟩ := proper.apart finish (request.groups_subset finish member)
    rcases ends with ⟨same, -⟩ | reserved
    · rcases request.pattern.far_outer request.direction with here | here
      exacts [left (same.trans here), right (same.trans here)]
    · exact Bool.false_ne_true (plain.symm.trans reserved)
  introduces name member := by
    rcases List.mem_cons.mp member with rfl | group
    · rcases ends with ⟨same, free⟩ | reserved
      · refine .inr (.inl ⟨free, ?_⟩)
        exact (request.pattern.far_outer request.direction).imp same.trans same.trans
      · exact .inr (.inr ⟨reserved, Plan.freshEnds_trail reserved⟩)
    · exact .inl (request.groups_subset finish group)
  available name member := (Plan.mem_available_trail.mp member).imp_right fun either => List.mem_cons.mpr either

section

variable {ν : Type} {environment : Environment ν} {arena : Arena ν} {graph : MatchGraph} {before after : Ledger} {plan : Plan}

/-- The operator of a pattern stands on the plan it starts from; above it there is at most a filter. -/
theorem PatternPlanned.introduces {source operator : Plan} {request : QuantifiedRequest} {discharged : Bool}
    (planned : PatternPlanned environment arena source request operator plan discharged) :
    source.Introduces (.quantified request.pattern) operator ∧ ∃ predicates, Filtered operator predicates plan := by
  cases planned with
  | @collapsed direction relationship others group id collapses possible relationships grouped recorded =>
    have exposed : group ∈ (Connection.quantified request.pattern).exposed :=
      QuantifiedPattern.mem_groups_of_relationshipGroup? grouped
    have source : (request.hop relationship direction).source ∈ source.available := request.near_bound possible
    have far := request.pattern.far_outer direction
    exact ⟨(QuantifiedRequest.reaches_expansion source).above exposed far id, [], .untouched⟩
  | @looped direction finish id inner _ kept possible built recorded ended =>
    refine ⟨TrailRequest.introduces_trail (request.trail source direction) ?_ id inner, ?_⟩
    · cases ended with
      | reached free => exact .inl ⟨rfl, free⟩
      | closed taken reserved => exact .inr reserved
    · cases ended with
      | reached free => exact ⟨[], .untouched⟩
      | closed taken reserved => exact ⟨_, .filter (List.cons_ne_nil _ _)⟩

/-- One connection more: its operator stands on the plan so far and is topped by filters alone. -/
theorem Extended.introduces {index : Nat} {connection : Connection} {input operator : Plan}
    (touches : connection.left ∈ input.available ∨ connection.right ∈ input.available)
    (extended : Extended environment arena graph index input before connection operator plan after) :
    input.Introduces connection operator ∧
      ∃ middle former latter, Filtered operator former middle ∧ Filtered middle latter plan := by
  cases extended with
  | relationship recorded placed =>
    exact ⟨PatternRelationship.introduces_expandAbove touches _, _, [], _, .untouched, placed.filtered⟩
  | quantified chosen placed =>
    obtain ⟨introduces, predicates, filtered⟩ := chosen.introduces
    exact ⟨introduces, _, _, _, filtered, placed.filtered⟩

end

end MatchPlanner
