import MatchPlanner.Proofs.Advance
import MatchPlanner.Proofs.Binding
import MatchPlanner.Proofs.Capture

/-! What earlier clauses bind is not bound again. No operator outside the loops looks for an argument anew, but for the far side of a
join, whose rows are compared with the argument; a loop binds variables of its own scope; and an operator carries the arguments
into the plan. -/

namespace MatchPlanner

/-- An argument that no connection exposes again and whose name is not kept for the ends of loops. -/
structure MatchGraph.Inherits (graph : MatchGraph) (name : String) : Prop where
  given : name ∈ graph.arguments
  plain : isReserved name = false
  apart : ∀ connection ∈ graph.connections, name ∉ connection.exposed

namespace Plan

/-- The node expands to a variable on which its rows are joined with those of a plan that binds it already. -/
def Rejoins (plan node : Plan) (name : String) : Prop :=
  ∃ joinId nodes left id hop relationship input, node = .step id (.expand hop relationship .all) input ∧ hop.target = name ∧
    .join joinId (.nodeHashJoin nodes) left node ∈ plan.outer ∧ name ∈ nodes ∧ name ∈ left.available

/-- What a clause inherits is not looked for again, but to be compared. -/
def Preserves (graph : MatchGraph) (plan : Plan) : Prop :=
  ∀ node ∈ plan.outer, ∀ name ∈ node.introduces, graph.Inherits name → plan.Rejoins node name

variable {graph : MatchGraph} {input operator left right plan : Plan}

theorem Rejoins.mono {node : Plan} {name : String} (rejoins : input.Rejoins node name) (subset : input.outer ⊆ plan.outer) :
    plan.Rejoins node name := by
  obtain ⟨joinId, nodes, left, id, hop, relationship, source, same, target, member, keyed, bound⟩ := rejoins
  exact ⟨joinId, nodes, left, id, hop, relationship, source, same, target, subset member, keyed, bound⟩

namespace Preserves

theorem leaf {operator : Leaf} (outside : ∀ name ∈ operator.introduces, name ∉ graph.arguments) (id : PlanId) :
    (Plan.leaf id operator).Preserves graph := by
  intro node member name introduced inherits
  rw [List.mem_singleton.mp member] at introduced
  exact absurd inherits.given (outside name introduced)

theorem filtered {predicates : List Expression} (preserves : input.Preserves graph) (filtered : Filtered input predicates plan) :
    plan.Preserves graph := by
  intro node member name introduced inherits
  refine Rejoins.mono ?_ filtered.outer_subset
  cases filtered with
  | untouched => exact preserves node member name introduced inherits
  | filter =>
    rcases List.mem_cons.mp member with rfl | below
    · exact absurd introduced List.not_mem_nil
    · exact preserves node below name introduced inherits

/-- A connection is added where its endpoints are bound as far as they are arguments. -/
theorem introduce {connection : Connection} (preserves : input.Preserves graph) (introduces : input.Introduces connection operator)
    (declared : connection ∈ graph.connections)
    (given : ∀ name, name = connection.left ∨ name = connection.right → name ∈ graph.arguments → name ∈ input.available) :
    operator.Preserves graph := by
  intro node member name introduced inherits
  rw [introduces.beneath.outer] at member
  rcases List.mem_cons.mp member with rfl | below
  · rcases introduces.introduces name introduced with exposed | ⟨free, endpoint⟩ | ⟨reserved, -⟩
    · exact absurd exposed (inherits.apart connection declared)
    · exact absurd (given name endpoint inherits.given) free
    · exact absurd (inherits.plain.symm.trans reserved) Bool.false_ne_true
  · exact (preserves node below name introduced inherits).mono (introduces.beneath.outer ▸ List.subset_cons_self _ _)

theorem join {id : PlanId} {operator : Join} (former : left.Preserves graph)
    (latter : ∀ node ∈ right.outer, ∀ name ∈ node.introduces, graph.Inherits name →
      right.Rejoins node name ∨ (Plan.join id operator left right).Rejoins node name) :
    (Plan.join id operator left right).Preserves graph := by
  intro node member name introduced inherits
  rcases List.mem_cons.mp member with rfl | below
  · exact absurd introduced List.not_mem_nil
  · rcases List.mem_append.mp below with first | second
    · refine (former node first name introduced inherits).mono ?_
      exact List.subset_cons_of_subset _ (List.subset_append_left _ _)
    · refine (latter node second name introduced inherits).elim (fun rejoins => rejoins.mono ?_) fun rejoins => rejoins
      exact List.subset_cons_of_subset _ (List.subset_append_right _ _)

theorem product (former : left.Preserves graph) (latter : right.Preserves graph) (id : PlanId) :
    (Plan.join id .cartesianProduct left right).Preserves graph :=
  former.join fun node member name introduced inherits => .inl (latter node member name introduced inherits)

end Preserves

end Plan

section

variable {ν : Type} {environment : Environment ν} {arena : Arena ν} {graph : MatchGraph} {before after : Ledger} {plan : Plan}

theorem Scanned.preserves (standard : environment.StandardLeaves) {node : String} (outside : node ∉ graph.arguments)
    (scanned : Scanned environment arena node before plan after) : plan.Preserves graph := by
  cases scanned with
  | @scanned call leaves leaf id offered chosen recorded placed =>
    have sound := LeafCandidate.sound_of_standard (standard _ _ _ _ offered _ chosen)
    refine .filtered (.leaf (fun name introduced => ?_) id) placed.filtered
    have bound := leaf.operator.introduces_subset introduced
    rw [sound.binds] at bound
    exact List.mem_singleton.mp bound ▸ outside

theorem Seeded.preserves (standard : environment.StandardLeaves) {connection : Connection} {seed : Plan}
    (left : connection.left ∉ graph.arguments) (right : connection.right ∉ graph.arguments)
    (seeded : Seeded environment arena connection before seed after) : seed.Preserves graph := by
  cases seeded with
  | endpoint ends scanned =>
    refine scanned.preserves standard ?_
    rcases ends with rfl | rfl
    exacts [left, right]
  | crossed crosses scannedLeft scannedRight =>
    exact (scannedLeft.preserves standard left).product (scannedRight.preserves standard right) _

theorem Extended.preserves {index : Nat} {connection : Connection} {input operator : Plan}
    (declared : connection ∈ graph.connections)
    (touches : connection.left ∈ input.available ∨ connection.right ∈ input.available)
    (given : ∀ name, name = connection.left ∨ name = connection.right → name ∈ graph.arguments → name ∈ input.available)
    (preserves : input.Preserves graph)
    (extended : Extended environment arena graph index input before connection operator plan after) : plan.Preserves graph := by
  obtain ⟨introduces, middle, _, _, former, latter⟩ := extended.introduces touches
  exact ((preserves.introduce introduces declared given).filtered former).filtered latter

/-- A relationship that is joined is planned from its far endpoint, which is free. Only the near one may be an argument. -/
theorem Added.preserves (standard : environment.StandardLeaves) {index : Nat} {connection : Connection} {input operator : Plan}
    (declared : connection ∈ graph.connections)
    (given : ∀ name, name = connection.left ∨ name = connection.right → name ∈ graph.arguments → name ∈ input.available)
    (preserves : input.Preserves graph)
    (added : Added environment arena graph index input before connection operator plan after) : plan.Preserves graph := by
  cases added with
  | extended touches extended => exact extended.preserves declared touches given preserves
  | @joined relationship near far leaf _ middle _ id joinId simple oriented nearBound farFree scanned selective placed =>
    have outside : far ∉ graph.arguments := fun argument => farFree (given far (PatternRelationship.far_end oriented) argument)
    refine .filtered (preserves.join fun node member name introduced inherits => ?_) placed.filtered
    rcases List.mem_cons.mp member with rfl | below
    · rcases List.mem_cons.mp introduced with rfl | target
      · exact absurd (List.mem_singleton_self _) (inherits.apart _ declared)
      · obtain rfl := List.mem_singleton.mp target
        exact .inr ⟨_, _, _, _, _, _, _, rfl, rfl, List.mem_cons_self, List.mem_singleton_self _, nearBound⟩
    · refine .inl ((scanned.preserves standard outside node below name introduced inherits).mono ?_)
      exact List.subset_cons_self _ _

namespace Grown

variable {component : Component} {assigned : Assignment}

theorem preserves (valid : graph.Valid) (standard : environment.StandardLeaves) (member : component ∈ graph.components)
    (grown : Grown environment arena graph component before plan after assigned) : plan.Preserves graph := by
  induction grown with
  | argument touched recorded placed =>
    refine .filtered (.leaf ?_ _) placed.filtered
    exact fun _ impossible => absurd impossible List.not_mem_nil
  | scan untouched inside alone scanned => exact scanned.preserves standard (untouched _ inside)
  | seeded untouched planned seeded extended =>
    obtain ⟨owned, found⟩ := Environment.mem_connectionsAt.mp planned
    obtain ⟨left, right⟩ := MatchGraph.component_ends valid member found
    have outside := untouched _ (left.mp owned)
    have outside' := untouched _ (right.mp (left.mp owned))
    refine extended.preserves (List.mem_of_getElem? found) (seeded.touches standard) (fun name ends argument => ?_)
      (seeded.preserves standard outside outside')
    rcases ends with rfl | rfl
    exacts [absurd argument outside, absurd argument outside']
  | added grown planned fresh added further =>
    obtain ⟨owned, found⟩ := Environment.mem_connectionsAt.mp planned
    obtain ⟨left, right⟩ := MatchGraph.component_ends valid member found
    refine added.preserves standard (List.mem_of_getElem? found) (fun name ends argument => ?_) further
    refine grown.given ⟨name, ?_, argument⟩ name argument
    rcases ends with rfl | rfl
    exacts [left.mp owned, right.mp (left.mp owned)]

/-- A component with an argument starts from the arguments. -/
theorem starts (touched : component.Touched graph) (grown : Grown environment arena graph component before plan after assigned) :
    ∃ id, .leaf id (.argument graph.arguments.names) ∈ plan.outer := by
  induction grown with
  | @argument id plan rest touched recorded placed => exact ⟨id, placed.filtered.outer_subset List.mem_cons_self⟩
  | scan untouched | seeded untouched =>
    obtain ⟨node, inside, argument⟩ := touched
    exact absurd argument (untouched node inside)
  | added grown planned fresh added further => exact further.imp fun id member => added.outer_subset member

end Grown

/-! Inside a loop. -/

theorem Filtered.introduces {input : Plan} {predicates : List Expression} (filtered : Filtered input predicates plan) {node : Plan}
    {name : String} (member : node ∈ plan.subtrees) (introduced : name ∈ node.introduces) : node ∈ input.subtrees := by
  cases filtered with
  | untouched => exact member
  | filter =>
    rcases List.mem_cons.mp member with rfl | below
    exacts [absurd introduced List.not_mem_nil, below]

theorem InnerSteps.introduces {siblings : List RelationshipProducer} {earlier steps : List TrailStep} {progress last : InnerProgress}
    (stepped : InnerSteps siblings earlier progress steps last) {node : Plan} {name : String} (member : node ∈ last.plan.subtrees)
    (introduced : name ∈ node.introduces) :
    node ∈ progress.plan.subtrees ∨ ∃ step ∈ steps, name = step.relationship ∨ name = step.hop.target := by
  induction stepped with
  | done => exact .inl member
  | @step earlier rest step progress placed last id expanded _ further =>
    rcases further member with below | ⟨later, among, binds⟩
    · rcases List.mem_cons.mp (expanded.filtered.introduces below introduced) with rfl | before
      · refine .inr ⟨step, List.mem_cons_self, ?_⟩
        simp only [Plan.introduces, Step.introduces, List.mem_cons, Hop.introduces] at introduced
        refine introduced.imp_right fun target => ?_
        split at target
        exacts [List.mem_singleton.mp target, absurd target List.not_mem_nil]
      · exact .inl before
    · exact .inr ⟨later, List.mem_cons_of_mem _ among, binds⟩

theorem InnerBuilt.introduces {pending : List Expression} {arguments : NameSet} {steps : List TrailStep}
    {siblings : List RelationshipProducer} (built : InnerBuilt pending arguments steps siblings plan) {node : Plan} {name : String}
    (member : node ∈ plan.subtrees) (introduced : name ∈ node.introduces) :
    ∃ step ∈ steps, name = step.relationship ∨ name = step.hop.target := by
  cases built with
  | built begun stepped complete =>
    refine (stepped.introduces member introduced).resolve_left fun below => ?_
    rw [List.mem_singleton.mp (begun.filtered.introduces below introduced)] at introduced
    exact absurd introduced List.not_mem_nil

theorem QuantifiedPattern.target_of_step {pattern : QuantifiedPattern} {direction : TraversalDirection} {step : TrailStep}
    (member : step ∈ pattern.steps direction) : ∃ relationship ∈ pattern.relationships, step.relationship = relationship.name ∧
      (step.hop.target = relationship.left ∨ step.hop.target = relationship.right) := by
  rw [steps_path] at member
  obtain ⟨relationship, among, rfl⟩ := List.mem_map.mp member
  cases direction with
  | forward => exact ⟨relationship, among, rfl, .inr rfl⟩
  | reversed => exact ⟨relationship, List.mem_reverse.mp among, rfl, .inl rfl⟩

/-- The operators of a repetition bind the relationships of the pattern and the nodes these run between. -/
theorem PatternPlanned.introduces_inner {source planned input inner : Plan} {request : QuantifiedRequest} {discharged : Bool}
    {id : PlanId} {parameters : TrailParameters}
    (chosen : PatternPlanned environment arena source request (.trail id parameters input inner) planned discharged) {node : Plan}
    {name : String} (member : node ∈ inner.subtrees) (introduced : name ∈ node.introduces) :
    ∃ relationship ∈ request.pattern.relationships,
      name = relationship.name ∨ name = relationship.left ∨ name = relationship.right := by
  cases chosen with
  | looped kept possible built recorded ended =>
    obtain ⟨step, taken, binds⟩ := built.introduces member introduced
    obtain ⟨relationship, among, named, target⟩ := QuantifiedPattern.target_of_step taken
    refine ⟨relationship, among, ?_⟩
    rcases binds with rfl | rfl
    exacts [.inl named, .inr target]

/-! The whole graph. -/

theorem Legs.preserves (valid : graph.Valid) (standard : environment.StandardLeaves) {components : List Component} {legs : List Leg}
    (planned : Legs environment arena graph before components legs after) (declared : components ⊆ graph.components) :
    ∀ leg ∈ legs, leg.plan.Preserves graph := by
  intro leg member
  obtain ⟨component, among, _, _, grown⟩ := planned.grown leg member
  exact grown.preserves valid standard (declared among)

theorem Combined.preserves {root : Plan} {legs : List Leg} (combined : Combined root before legs plan after)
    (preserves : root.Preserves graph) (others : ∀ leg ∈ legs, leg.plan.Preserves graph) : plan.Preserves graph := by
  induction combined with
  | done => exact preserves
  | product placed rest further =>
    obtain ⟨first, others⟩ := List.forall_mem_cons.mp others
    exact further (.filtered (preserves.product first _) placed.filtered) others

theorem Combined.outer_subset {root : Plan} {legs : List Leg} (combined : Combined root before legs plan after) :
    root.outer ⊆ plan.outer := by
  induction combined with
  | done => exact List.Subset.refl _
  | product placed rest further =>
    refine List.Subset.trans ?_ further
    exact List.Subset.trans (List.subset_cons_of_subset _ (List.subset_append_left _ _)) placed.filtered.outer_subset

theorem Rooted.preserves {first root : Plan} (preserves : first.Preserves graph)
    (rooted : Rooted arena graph first before root after) : root.Preserves graph := by
  cases rooted with
  | covered => exact preserves
  | argument missing recorded placed =>
    refine .filtered (.product (.leaf ?_ _) preserves _) placed.filtered
    exact fun _ impossible => absurd impossible List.not_mem_nil

theorem Composed.preserves (valid : graph.Valid) (standard : environment.StandardLeaves) {assigned : Assignment}
    (composed : Composed environment arena graph plan assigned) : plan.Preserves graph := by
  cases composed with
  | argument empty some recorded placed =>
    refine .filtered (.leaf ?_ _) placed.filtered
    exact fun _ impossible => absurd impossible List.not_mem_nil
  | combined planned sorted rooted combined =>
    have each := planned.preserves valid standard (List.Subset.refl _)
    exact combined.preserves (rooted.preserves (each _ (sorted.subset List.mem_cons_self)))
      fun leg member => each leg (sorted.subset (List.mem_cons_of_mem _ member))

/-- What a clause inherits comes from an operator that carries all arguments. -/
theorem Composed.starts (valid : graph.Valid) (standard : environment.StandardLeaves) {assigned : Assignment}
    (composed : Composed environment arena graph plan assigned) {name : String} (inherits : graph.Inherits name) :
    ∃ id, .leaf id (.argument graph.arguments.names) ∈ plan.outer := by
  cases composed with
  | @argument id plan empty some recorded placed => exact ⟨id, placed.filtered.outer_subset List.mem_cons_self⟩
  | @combined legs others first root plan ledger middle planned sorted rooted combined =>
    suffices started : ∃ id, .leaf id (.argument graph.arguments.names) ∈ root.outer from
      started.imp fun id member => combined.outer_subset member
    cases rooted with
    | @argument id productId root rest missing recorded placed =>
      exact ⟨id, placed.filtered.outer_subset (List.mem_cons_of_mem _ (List.mem_append_left _ List.mem_cons_self))⟩
    | covered covered =>
      obtain ⟨component, member, _, _, grown⟩ := planned.grown _ (sorted.subset List.mem_cons_self)
      refine grown.starts ?_
      rcases grown.within valid standard member name (covered name inherits.given) with node | ⟨touched, -⟩ | reserved |
        ⟨index, -, connection, found, exposes⟩
      · exact ⟨name, node, inherits.given⟩
      · exact touched
      · exact absurd (inherits.plain.symm.trans reserved) Bool.false_ne_true
      · exact absurd exposes (inherits.apart connection (List.mem_of_getElem? found))

end

/-- What a plan does with the variables its clause inherits. -/
structure PlannedQuery.Preserves {ν : Type} (query : PlannedQuery ν) (graph : MatchGraph) : Prop where
  outer : query.root.Preserves graph
  inner : ∀ id parameters input inner, .trail id parameters input inner ∈ query.root.subtrees →
    ∃ pattern, .quantified pattern ∈ graph.connections ∧ ∀ node ∈ inner.subtrees, ∀ name ∈ node.introduces,
      ∃ relationship ∈ pattern.relationships, name = relationship.name ∨ name = relationship.left ∨ name = relationship.right
  carried : (∃ name, graph.Inherits name) → ∃ id, .leaf id (.argument graph.arguments.names) ∈ query.root.outer

/-- Variables that earlier clauses bind keep their value. -/
theorem Environment.plan_preserves {ν : Type} [Quantity ν] {environment : Environment ν} {graph : MatchGraph}
    (standard : environment.StandardLeaves) {before after : Session ν} {query : PlannedQuery ν}
    (ran : environment.plan graph before = .ok query after) : query.Preserves graph := by
  obtain ⟨valid, assigned, composed⟩ := environment.composed_of_plan ran
  refine ⟨composed.preserves valid standard, fun id parameters input inner member => ?_,
    fun ⟨name, inherits⟩ => composed.starts valid standard inherits⟩
  obtain ⟨index, pattern, ledger, source, planned, discharged, found, -, chosen⟩ :=
    composed.loops _ (List.mem_filter.mpr ⟨member, rfl⟩)
  exact ⟨pattern, List.mem_of_getElem? found, fun node inside name => chosen.introduces_inner inside⟩

namespace MatchGraph

/-- The loops that start from an argument leave it as it is. -/
theorem carried_preserved : ∃ query after, Environment.counting.plan carried (.initial false) = .ok query after ∧
    carried.Inherits "a" ∧ query.Preserves carried := by
  have returns : Environment.counting.returns carried (fun _ => true) = true := by decide +kernel
  obtain ⟨query, after, ran, -⟩ := Environment.returns_ok returns
  exact ⟨query, after, ran, ⟨by decide +kernel, by decide +kernel, by decide +kernel⟩,
    Environment.plan_preserves Environment.counting_standard ran⟩

/-- An argument with two relationships, one of them to a node with a label. -/
def rejoined : MatchGraph where
  nodes := [⟨"a", []⟩, ⟨"b", ["B"]⟩, ⟨"c", []⟩]
  connections := [.relationship ⟨"s", "a", "c", .outgoing, ["S"], .simple⟩,
    .relationship ⟨"r", "a", "b", .outgoing, ["R"], .simple⟩]
  selections := []
  arguments := .ofList ["a"]
  required := ∅
  distinctEndpoints := false

end MatchGraph

/-- A planner that takes plans with a join for the cheaper ones. -/
def Environment.joining : Environment Nat :=
  { counting with estimator plan _ := .ok ⟨if .nodeHashJoin ∈ plan.kinds then 0 else plan.subtrees.length, 0⟩ }

/-- The far side of the join finds the argument anew. -/
theorem MatchGraph.rejoined_found_anew : rejoined.validate = .ok () ∧ Environment.joining.StandardLeaves ∧
    ∃ query after, Environment.joining.plan rejoined (.initial false) = .ok query after ∧
      ∃ node ∈ query.root.subtrees, ∃ name ∈ node.introduces, name ∈ rejoined.arguments := by
  have returns : Environment.joining.returns rejoined (fun query =>
      query.root.subtrees.any fun node => node.introduces.any fun name => decide (name ∈ rejoined.arguments)) = true := by
    decide +kernel
  obtain ⟨query, after, ran, accepted⟩ := Environment.returns_ok returns
  refine ⟨rfl, Environment.counting_standard, query, after, ran, ?_⟩
  simpa only [List.any_eq_true, decide_eq_true_eq] using accepted

end MatchPlanner
