import MatchPlanner.Proofs.Inheritance
import MatchPlanner.Proofs.Realisation

/-! How early the predicates of a clause are evaluated. Every step of the composition places at once whatever it has made ready, so
a filter reads something that no input of the operator below it binds. A step that builds several operators places its predicates
above the last of them; what can stand too late because of it is said case by case. -/

namespace MatchPlanner

namespace Plan

/-- The first operator from the top that is no filter. -/
def unfiltered : Plan → Plan
  | .step _ (.filter _) input => unfiltered input
  | plan => plan

/-- The plans an operator takes its rows from; a loop repeats its inner plan for each of them. -/
def sources : Plan → List Plan
  | .leaf _ _ => []
  | .step _ _ input => [input]
  | .trail _ _ input _ => [input]
  | .join _ _ left right => [left, right]

theorem unfiltered_of_kind {plan : Plan} (plain : plan.kind ≠ .filter) : plan.unfiltered = plan := by
  unfold unfiltered
  split
  · exact absurd rfl plain
  · rfl

theorem outer_sources (plan : Plan) : plan.outer = plan :: plan.sources.flatMap outer := by
  cases plan <;> simp [outer, sources]

/-- A leaf for the nodes of one variable, with or without a filter above it. -/
structure ScansNode (plan : Plan) (node : String) : Prop where
  leaf : plan.unfiltered.isLeaf = true
  binds : ∀ name, name ∈ plan.available ↔ name = node

end Plan

/-- An operator is the first to bind everything a predicate reads, or it was built in one step with the input that does. -/
inductive MatchGraph.Timely (graph : MatchGraph) (predicate : Expression) : Plan → Prop where
  | first {operator : Plan} (late : ∀ source ∈ operator.sources, isReadyIn source.available predicate = false) :
    Timely graph predicate operator
  /-- The far side of a join binds the relationship and both its ends. -/
  | joined {relationship : PatternRelationship} {near far : String} {id joinId : PlanId} {left leaf : Plan}
    (declared : .relationship relationship ∈ graph.connections)
    (ends : near = relationship.left ∧ far = relationship.right ∨ near = relationship.right ∧ far = relationship.left)
    (scans : leaf.ScansNode far) (lateLeft : isReadyIn left.available predicate = false)
    (lateFar : isReadyIn leaf.available predicate = false) :
    Timely graph predicate (.join joinId (.nodeHashJoin [near]) left
      (.step id (.expand (relationship.hop far near) relationship.name .all) leaf))
  /-- A pattern is planned above the product of its boundaries. -/
  | crossed {pattern : QuantifiedPattern} {id : PlanId} {operator realised left right : Plan}
    (declared : .quantified pattern ∈ graph.connections) (realises : Realises realised (.quantified pattern) operator)
    (seed : operator.sources = [.join id .cartesianProduct left right])
    (scansLeft : left.ScansNode pattern.left.outer) (scansRight : right.ScansNode pattern.right.outer)
    (lateLeft : isReadyIn left.available predicate = false) (lateRight : isReadyIn right.available predicate = false) :
    Timely graph predicate operator
  /-- The arguments join a plan that does not bind all of them. -/
  | carried {id productId : PlanId} {beside : Plan} (missing : ∃ name ∈ graph.arguments, name ∉ beside.available)
    (late : isReadyIn beside.available predicate = false) :
    Timely graph predicate (.join productId .cartesianProduct (.leaf id (.argument graph.arguments.names)) beside)

/-- The equality that closes a loop into a bound boundary, in a clause that has bound the name of the loop's end itself. -/
inductive Plan.Closes : List Expression → Plan → Prop where
  | closes {id : PlanId} {parameters : TrailParameters} {boundary : String} {source inner : Plan}
    (reserved : isReserved parameters.finish = true) (rebinds : parameters.finish ∈ source.available) :
    Closes [.equals (.reference parameters.finish) (.reference boundary)] (.trail id parameters source inner)

/-- Outside the loops no predicate stands later than it has to. -/
def Plan.Prompt (graph : MatchGraph) (plan : Plan) : Prop :=
  ∀ id predicates input, .step id (.filter predicates) input ∈ plan.outer →
    (∀ predicate ∈ predicates, graph.Timely predicate input.unfiltered) ∨ Closes predicates input

namespace Plan.Prompt

variable {graph : MatchGraph} {input plan : Plan}

/-- An operator that is no filter adds none. -/
theorem above (plain : plan.kind ≠ .filter) (prompt : ∀ source ∈ plan.sources, source.Prompt graph) : plan.Prompt graph := by
  intro id predicates input member
  rw [plan.outer_sources] at member
  rcases List.mem_cons.mp member with rfl | below
  · exact absurd rfl plain
  · obtain ⟨source, among, inside⟩ := List.mem_flatMap.mp below
    exact prompt source among id predicates input inside

theorem leaf (id : PlanId) (operator : Leaf) : (Plan.leaf id operator).Prompt graph := by
  refine above ?_ fun _ impossible => absurd impossible List.not_mem_nil
  cases operator <;> exact OperatorKind.noConfusion

theorem join {left right : Plan} (former : left.Prompt graph) (latter : right.Prompt graph) (id : PlanId) (operator : Join) :
    (Plan.join id operator left right).Prompt graph := by
  refine above ?_ (List.forall_mem_cons.mpr ⟨former, List.forall_mem_singleton.mpr latter⟩)
  cases operator <;> exact OperatorKind.noConfusion

theorem filter {predicates : List Expression} (prompt : input.Prompt graph)
    (timely : (∀ predicate ∈ predicates, graph.Timely predicate input.unfiltered) ∨ Closes predicates input) (id : PlanId) :
    (Plan.step id (.filter predicates) input).Prompt graph := by
  intro other others source member
  rcases List.mem_cons.mp member with same | below
  · cases same
    exact timely
  · exact prompt other others source below

theorem filtered {predicates : List Expression} (prompt : input.Prompt graph) (filtered : Filtered input predicates plan)
    (timely : ∀ predicate ∈ predicates, graph.Timely predicate input.unfiltered) : plan.Prompt graph := by
  cases filtered with
  | untouched => exact prompt
  | @filter id => exact prompt.filter (.inl timely) id

end Plan.Prompt

theorem Filtered.unfiltered {input plan : Plan} {predicates : List Expression} (filtered : Filtered input predicates plan) :
    plan.unfiltered = input.unfiltered := by
  cases filtered with
  | untouched => rfl
  | filter => rfl

theorem Realises.plain {plan operator : Plan} {connection : Connection} (realises : Realises plan connection operator) :
    operator.kind ≠ .filter := by
  cases realises <;> exact OperatorKind.noConfusion

theorem Placed.prompt {graph : MatchGraph} {input plan : Plan} {before after : Ledger} (placed : Placed input before plan after)
    (prompt : input.Prompt graph) (timely : ∀ entry ∈ before, graph.Timely entry.predicate input.unfiltered) : plan.Prompt graph := by
  refine prompt.filtered placed.filtered fun predicate member => ?_
  obtain ⟨entry, ready, rfl⟩ := List.mem_map.mp member
  exact timely entry (List.mem_of_mem_filter ready)

/-- A leaf has no input that a predicate could have been placed above. -/
theorem Placed.prompt_leaf {graph : MatchGraph} {id : PlanId} {operator : Leaf} {plan : Plan} {before after : Ledger}
    (placed : Placed (.leaf id operator) before plan after) : plan.Prompt graph :=
  placed.prompt (.leaf id operator) fun _ _ => .first fun _ impossible => absurd impossible List.not_mem_nil

/-- The operator that realises the connection above the plan is in time for everything that is open. -/
def Ledger.Awaits (graph : MatchGraph) (connection : Connection) (input : Plan) (ledger : Ledger) : Prop :=
  ∀ entry ∈ ledger, ∀ realised operator, Realises realised connection operator → operator.sources = [input] →
    graph.Timely entry.predicate operator

/-- Nothing that is open could have been placed above the plan. -/
theorem Ledger.Settled.awaits {graph : MatchGraph} {input : Plan} {ledger : Ledger} (settled : ledger.Settled input.available)
    (connection : Connection) : ledger.Awaits graph connection input := by
  intro entry member realised operator realises sources
  refine .first ?_
  rw [sources]
  exact List.forall_mem_singleton.mpr (settled entry member)

section

variable {ν : Type} {environment : Environment ν} {arena : Arena ν} {graph : MatchGraph} {before after : Ledger} {plan : Plan}

/-! One connection. -/

namespace Scanned

variable {node : String}

theorem prompt (scanned : Scanned environment arena node before plan after) : plan.Prompt graph := by
  cases scanned with
  | scanned offered chosen recorded placed => exact placed.prompt_leaf

theorem scansNode (standard : environment.StandardLeaves) (scanned : Scanned environment arena node before plan after) :
    plan.ScansNode node := by
  refine ⟨?_, fun name => scanned.mem_available standard⟩
  cases scanned with
  | scanned offered chosen recorded placed =>
    rw [placed.filtered.unfiltered]
    rfl

end Scanned

namespace PatternPlanned

variable {source operator : Plan} {request : QuantifiedRequest} {discharged : Bool}

theorem unfiltered (planned : PatternPlanned environment arena source request operator plan discharged) :
    operator.sources = [source] ∧ plan.unfiltered = operator := by
  have plain := planned.realises.2.plain
  cases planned with
  | collapsed => exact ⟨rfl, Plan.unfiltered_of_kind plain⟩
  | looped kept possible built recorded ended =>
    cases ended with
    | reached => exact ⟨rfl, rfl⟩
    | closed => exact ⟨rfl, rfl⟩

theorem prompt (prompt : source.Prompt graph)
    (planned : PatternPlanned environment arena source request operator plan discharged) : plan.Prompt graph := by
  have plain := planned.realises.2.plain
  have below : operator.Prompt graph := by
    refine .above plain ?_
    rw [planned.unfiltered.1]
    exact List.forall_mem_singleton.mpr prompt
  cases planned with
  | collapsed => exact below
  | @looped direction finish id inner _ kept possible built recorded ended =>
    cases ended with
    | reached => exact below
    | @closed filterId _ taken reserved =>
      refine below.filter ?_ filterId
      -- The end of the loop is a new name, unless the clause has used it.
      by_cases rebinds : finish ∈ source.available
      · exact .inr (@Plan.Closes.closes _ ((request.trail source direction).parameters finish) _ _ _ reserved rebinds)
      · refine .inl (List.forall_mem_singleton.mpr (.first (List.forall_mem_singleton.mpr ?_)))
        refine Bool.eq_false_iff.mpr fun ready => rebinds (NameSet.within_iff.mp ready finish ?_)
        simp [Expression.equals, Expression.dependencies]

end PatternPlanned

theorem Extended.prompt {index : Nat} {connection : Connection} {input operator : Plan} (prompt : input.Prompt graph)
    (awaits : before.Awaits graph connection input)
    (extended : Extended environment arena graph index input before connection operator plan after) : plan.Prompt graph := by
  cases extended with
  | @relationship relationship id _ _ recorded placed =>
    have realises := relationship.realises_expandAbove id input
    refine placed.prompt (.above realises.plain (List.forall_mem_singleton.mpr prompt)) fun entry member => ?_
    rw [Plan.unfiltered_of_kind realises.plain]
    exact awaits entry member _ _ realises rfl
  | quantified chosen placed =>
    obtain ⟨sources, unfiltered⟩ := chosen.unfiltered
    refine placed.prompt (chosen.prompt prompt) fun entry member => ?_
    rw [unfiltered]
    exact awaits entry ((QuantifiedSite.remaining_sublist ..).subset member) _ _ chosen.realises.2 sources

namespace Seeded

variable {connection : Connection} {seed : Plan}

theorem prompt (seeded : Seeded environment arena connection before seed after) : seed.Prompt graph := by
  cases seeded with
  | endpoint ends scanned => exact scanned.prompt
  | crossed crosses scannedLeft scannedRight => exact scannedLeft.prompt.join scannedRight.prompt _ _

theorem awaits (standard : environment.StandardLeaves) (declared : connection ∈ graph.connections)
    (seeded : Seeded environment arena connection before seed after) : after.Awaits graph connection seed := by
  cases seeded with
  | endpoint ends scanned => exact scanned.settled.awaits connection
  | crossed crosses scannedLeft scannedRight =>
    cases connection with
    | relationship => cases crosses
    | quantified pattern =>
      intro entry member realised operator realises sources
      exact .crossed declared realises sources (scannedLeft.scansNode standard) (scannedRight.scansNode standard)
        (scannedLeft.settled entry (scannedRight.sublist.subset member)) (scannedRight.settled entry member)

end Seeded

theorem Added.prompt (standard : environment.StandardLeaves) {index : Nat} {connection : Connection} {input operator : Plan}
    (declared : connection ∈ graph.connections) (prompt : input.Prompt graph) (settled : before.Settled input.available)
    (added : Added environment arena graph index input before connection operator plan after) : plan.Prompt graph := by
  cases added with
  | extended touches extended => exact extended.prompt prompt (settled.awaits connection)
  | @joined relationship near far leaf _ middle _ id joinId simple oriented nearBound farFree scanned selective placed =>
    have right : (Plan.step id (.expand (relationship.hop far near) relationship.name .all) leaf).Prompt graph :=
      .above OperatorKind.noConfusion (List.forall_mem_singleton.mpr scanned.prompt)
    refine placed.prompt (prompt.join right _ _) fun entry member => ?_
    exact .joined declared (PatternRelationship.ends_of_orientation oriented) (scanned.scansNode standard)
      (settled entry (scanned.sublist.subset member)) (scanned.settled entry member)

/-! The whole graph. -/

theorem Grown.prompt (standard : environment.StandardLeaves) {component : Component} {assigned : Assignment}
    (grown : Grown environment arena graph component before plan after assigned) : plan.Prompt graph := by
  induction grown with
  | argument touched recorded placed => exact placed.prompt_leaf
  | scan untouched inside alone scanned => exact scanned.prompt
  | seeded untouched planned seeded extended =>
    have declared := List.mem_of_getElem? (Environment.mem_connectionsAt.mp planned).2
    exact extended.prompt seeded.prompt (seeded.awaits standard declared)
  | added grown planned fresh added further =>
    have declared := List.mem_of_getElem? (Environment.mem_connectionsAt.mp planned).2
    exact added.prompt standard declared further grown.settled

/-- Nothing that is open when all components are planned could have been placed above one of them. -/
theorem Legs.prompt (standard : environment.StandardLeaves) {components : List Component} {legs : List Leg}
    (planned : Legs environment arena graph before components legs after) :
    after.Sublist before ∧ ∀ leg ∈ legs, leg.plan.Prompt graph ∧ after.Settled leg.plan.available := by
  induction planned with
  | done => exact ⟨.refl _, fun _ impossible => absurd impossible List.not_mem_nil⟩
  | leg grown covers others further =>
    obtain ⟨shrinks, others⟩ := further
    exact ⟨shrinks.trans grown.sublist,
      List.forall_mem_cons.mpr ⟨⟨grown.prompt standard, grown.settled.mono shrinks.subset⟩, others⟩⟩

theorem Combined.prompt {root : Plan} {legs : List Leg} (combined : Combined root before legs plan after)
    (prompt : root.Prompt graph) (settled : before.Settled root.available)
    (beside : ∀ leg ∈ legs, leg.plan.Prompt graph ∧ before.Settled leg.plan.available) : plan.Prompt graph := by
  induction combined with
  | done => exact prompt
  | product placed others further =>
    obtain ⟨⟨leg, settledLeg⟩, beside⟩ := List.forall_mem_cons.mp beside
    refine further (placed.prompt (prompt.join leg _ _) fun entry member => .first ?_) placed.settled fun other member => ?_
    · exact List.forall_mem_cons.mpr ⟨settled entry member, List.forall_mem_singleton.mpr (settledLeg entry member)⟩
    · exact (beside other member).imp_right fun settled => settled.mono placed.sublist.subset

theorem Rooted.prompt {first root : Plan} (rooted : Rooted arena graph first before root after) (prompt : first.Prompt graph)
    (settled : before.Settled first.available) : root.Prompt graph ∧ after.Settled root.available := by
  cases rooted with
  | covered => exact ⟨prompt, settled⟩
  | argument missing recorded placed =>
    refine ⟨placed.prompt (.join (.leaf _ _) prompt _ _) fun entry member => ?_, placed.settled⟩
    exact .carried missing (settled entry member)

theorem Composed.prompt (standard : environment.StandardLeaves) {assigned : Assignment}
    (composed : Composed environment arena graph plan assigned) : plan.Prompt graph := by
  cases composed with
  | argument empty some recorded placed => exact placed.prompt_leaf
  | combined planned sorted rooted combined =>
    obtain ⟨-, legs⟩ := planned.prompt standard
    obtain ⟨prompt, settled⟩ := legs _ (sorted.subset List.mem_cons_self)
    obtain ⟨root, placed⟩ := rooted.prompt prompt settled
    refine combined.prompt root placed fun leg member => ?_
    exact (legs leg (sorted.subset (List.mem_cons_of_mem _ member))).imp_right fun settled => settled.mono rooted.sublist.subset

end

/-- Whatever alternative won, the predicates of the clause stand as low as its steps allow. -/
theorem Environment.plan_prompt {ν : Type} [Quantity ν] {environment : Environment ν} {graph : MatchGraph}
    (standard : environment.StandardLeaves) {before after : Session ν} {query : PlannedQuery ν}
    (ran : environment.plan graph before = .ok query after) : query.root.Prompt graph := by
  obtain ⟨-, assigned, composed⟩ := environment.composed_of_plan ran
  exact composed.prompt standard

/-- An argument with two relationships, one of them to a node with a label and with a property to be checked. -/
def MatchGraph.weighed : MatchGraph := { rejoined with selections := [.equals (.property "r" "x") (.literal (.integer 1))] }

theorem MatchGraph.weighed_prompt : ∃ query after, Environment.joining.plan weighed (.initial false) = .ok query after ∧
    (∃ node ∈ query.root.outer, node.kind = .filter) ∧ query.root.Prompt weighed := by
  have returns : Environment.joining.returns weighed (fun query => query.root.outer.any fun node => node.kind == .filter) = true := by
    decide +kernel
  obtain ⟨query, after, ran, filters⟩ := Environment.returns_ok returns
  have standard : Environment.joining.StandardLeaves := Environment.counting_standard
  refine ⟨query, after, ran, ?_, Environment.plan_prompt standard ran⟩
  simpa only [List.any_eq_true, beq_iff_eq] using filters

/-- Whether the root filters by an atom for which one input of the operator below was enough. -/
def Plan.delays (atom : Expression) : Plan → Bool
  | .step _ (.filter predicates) input => predicates.any fun predicate =>
      predicate.same atom && input.unfiltered.sources.any fun source => isReadyIn source.available predicate
  | _ => false

/-- The property of the relationship is checked above the join, though the far side alone binds it. -/
theorem MatchGraph.weighed_delayed : weighed.validate = .ok () ∧ Environment.joining.StandardLeaves ∧
    ∃ query after, Environment.joining.plan weighed (.initial false) = .ok query after ∧
      ∃ atom ∈ weighed.whereAtoms, ∃ node ∈ query.root.outer, node.delays atom = true := by
  have returns : Environment.joining.returns weighed (fun query =>
      weighed.whereAtoms.any fun atom => query.root.outer.any fun node => node.delays atom) = true := by
    decide +kernel
  obtain ⟨query, after, ran, delayed⟩ := Environment.returns_ok returns
  refine ⟨rfl, Environment.counting_standard, query, after, ran, ?_⟩
  simpa only [List.any_eq_true] using delayed

end MatchPlanner
