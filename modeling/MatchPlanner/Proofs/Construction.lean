import MatchPlanner.Proofs.Outcome
import MatchPlanner.Planner

/-! How a plan comes about. Each relation says what one part of the planner may put together, with every choice that depends
on costs left open; candidates that were weighed and dropped leave no trace in it. What holds of every plan that can come
about in this way holds of every plan that is returned. -/

namespace MatchPlanner

namespace Ledger

def ready (ledger : Ledger) (bound : NameSet) : Ledger := List.filter (LedgerEntry.isReady bound) ledger

def waiting (ledger : Ledger) (bound : NameSet) : Ledger := List.filter (fun entry => !entry.isReady bound) ledger

end Ledger

/-- Names kept for the ends of loops; a query has no variable of such a name. -/
def isReserved (name : String) : Bool := "  trail_end_".toList.isPrefixOf name.toList

/-- The filter that holds what is ready above a plan, and the entries that stay open. -/
structure Placed (input : Plan) (ledger : Ledger) (plan : Plan) (rest : Ledger) : Prop where
  filtered : Filtered input (Ledger.predicates (ledger.ready input.available)) plan
  waiting : rest = ledger.waiting input.available

/-! The plan of one repetition. -/

/-- A repetition with one more step taken, before anything is placed above it. -/
def InnerProgress.expand (progress : InnerProgress) (id : PlanId) (step : TrailStep) : InnerProgress where
  plan := .step id (.expand step.hop step.relationship (if step.hop.target ∈ progress.scope then .into else .all)) progress.plan
  scope := (progress.scope.insert step.relationship).insert step.hop.target
  pending := progress.pending

structure InnerPlaced (progress : InnerProgress) (checks : List Expression) (placed : InnerProgress) : Prop where
  filtered : Filtered progress.plan (progress.pending.filter (isReadyIn progress.scope) ++ checks) placed.plan
  scope : placed.scope = progress.scope
  pending : placed.pending = progress.pending.filter fun predicate => !isReadyIn progress.scope predicate

inductive InnerSteps (siblings : List RelationshipProducer) :
    List TrailStep → InnerProgress → List TrailStep → InnerProgress → Prop where
  | done {earlier : List TrailStep} {progress : InnerProgress} : InnerSteps siblings earlier progress [] progress
  | step {earlier rest : List TrailStep} {step : TrailStep} {progress placed last : InnerProgress} {id : PlanId}
    (expanded : InnerPlaced (progress.expand id step) (step.uniquenessChecks earlier siblings) placed)
    (further : InnerSteps siblings (earlier ++ [step]) placed rest last) :
    InnerSteps siblings earlier progress (step :: rest) last

def InnerProgress.initial (id : PlanId) (arguments : NameSet) (pending : List Expression) : InnerProgress :=
  ⟨.leaf id (.argument arguments.names), arguments, pending⟩

inductive InnerBuilt (pending : List Expression) (arguments : NameSet) (steps : List TrailStep)
    (siblings : List RelationshipProducer) : Plan → Prop where
  | built {id : PlanId} {started last : InnerProgress}
    (begun : InnerPlaced (.initial id arguments pending) [] started)
    (stepped : InnerSteps siblings [] started steps last) (complete : last.pending = []) :
    InnerBuilt pending arguments steps siblings last.plan

/-! A quantified pattern above a plan that binds one of its boundaries. -/

namespace QuantifiedRequest

def sorted (request : QuantifiedRequest) (source : Plan) : Classification :=
  request.pattern.classify request.outer source.available

def needs (request : QuantifiedRequest) (source : Plan) : NameSet := request.neededGroups (request.sorted source)

def trail (request : QuantifiedRequest) (source : Plan) (direction : TraversalDirection) : TrailRequest :=
  ⟨request.pattern, direction, source.available, request.needs source, request.siblings⟩

/-- The siblings whose relationships the loop has to avoid in every step. -/
def checked (request : QuantifiedRequest) (source : Plan) (direction : TraversalDirection) (finish : String) :
    List RelationshipProducer :=
  Environment.checkedSiblings ((request.trail source direction).parameters finish) request.siblings

end QuantifiedRequest

/-- The expansion a collapsed pattern becomes above a plan. -/
def QuantifiedRequest.collapseAbove (request : QuantifiedRequest) (config : PlannerConfig) (relationship : PatternRelationship)
    (group : String) (direction : TraversalDirection) (id : PlanId) (source : Plan) : Plan :=
  let hop := request.hop relationship direction
  let farBound := decide (hop.target ∈ source.available)
  .step id (request.expansion config hop group ((request.sorted source).extracted.map ExtractedPredicate.element)
    (request.prunes config (request.needs source) group farBound) farBound) source

/-- A loop ends in its boundary, or in a fresh variable that a filter equates with a boundary bound before. -/
inductive LoopEnded (bound : NameSet) (boundary : String) (loop : Plan) : String → Plan → Prop where
  | reached (free : boundary ∉ bound) : LoopEnded bound boundary loop boundary loop
  | closed {id : PlanId} {finish : String} (taken : boundary ∈ bound) (reserved : isReserved finish = true) :
    LoopEnded bound boundary loop finish (.step id (.filter [.equals (.reference finish) (.reference boundary)]) loop)

section

variable {ν : Type} (environment : Environment ν) (arena : Arena ν)

/-- The operator chosen for a pattern, the plan it stands at the top of but for an equality of ends, and whether it keeps
clear of its siblings by itself. -/
inductive PatternPlanned (source : Plan) (request : QuantifiedRequest) : Plan → Plan → Bool → Prop where
  | collapsed {direction : TraversalDirection} {relationship : PatternRelationship} {others : List PatternRelationship}
    {group : String} {id : PlanId}
    (collapses : request.collapses environment.config (request.sorted source) (request.needs source) = true)
    (possible : direction ∈ request.directions source.available)
    (relationships : request.pattern.relationships = relationship :: others)
    (grouped : request.pattern.relationshipGroup? relationship.name = some group)
    (recorded : arena.solved id = (request.sorted source).solved) :
    PatternPlanned source request (request.collapseAbove environment.config relationship group direction id source)
      (request.collapseAbove environment.config relationship group direction id source) false
  | looped {direction : TraversalDirection} {finish : String} {id : PlanId} {inner plan : Plan}
    (kept : request.collapses environment.config (request.sorted source) (request.needs source) = false)
    (possible : direction ∈ request.directions source.available)
    (built : InnerBuilt (request.sorted source).innerPredicates
      (Environment.innerArguments request.pattern (request.sorted source).innerPredicates source.available
        (request.pattern.near direction).inner (request.checked source direction finish))
      (request.pattern.steps direction) (request.checked source direction finish) inner)
    (recorded : arena.solved id = (request.sorted source).solved)
    (ended : LoopEnded source.available (request.pattern.far direction).outer
      (.trail id ((request.trail source direction).parameters finish) source inner) finish plan) :
    PatternPlanned source request (.trail id ((request.trail source direction).parameters finish) source inner) plan true

/-- What stays open of a ledger when an operator takes over its atoms and perhaps its uniqueness checks. -/
def QuantifiedSite.remaining (site : QuantifiedSite) (ledger : Ledger) (solved : List Expression) (discharged : Bool) : Ledger :=
  if discharged then (ledger.solve solved).without site.dischargeable else ledger.solve solved

def PatternRelationship.expandAbove (relationship : PatternRelationship) (id : PlanId) (input : Plan) : Plan :=
  let ends := relationship.orientation input.available
  .step id (relationship.step (relationship.hop ends.1 ends.2) (if ends.2 ∈ input.available then .into else .all)) input

/-! One connection added to a partial plan: the operator that realises it, the plan that results, what stays open. -/

inductive Extended (graph : MatchGraph) (index : Nat) (input : Plan) (ledger : Ledger) :
    Connection → Plan → Plan → Ledger → Prop where
  | relationship {relationship : PatternRelationship} {id : PlanId} {plan : Plan} {rest : Ledger}
    (recorded : arena.solved id = []) (placed : Placed (relationship.expandAbove id input) ledger plan rest) :
    Extended graph index input ledger (.relationship relationship) (relationship.expandAbove id input) plan rest
  | quantified {pattern : QuantifiedPattern} {operator planned plan : Plan} {discharged : Bool} {rest : Ledger}
    (chosen : PatternPlanned environment arena input (pattern.site graph index input.available ledger).request operator planned
      discharged)
    (placed : Placed planned
      ((pattern.site graph index input.available ledger).remaining ledger
        ((pattern.site graph index input.available ledger).request.sorted input).solved discharged) plan rest) :
    Extended graph index input ledger (.quantified pattern) operator plan rest

/-- A scan of the nodes of one variable with everything placed above it that reads no other. -/
inductive Scanned (node : String) (ledger : Ledger) (plan : Plan) (rest : Ledger) : Prop where
  | scanned {call : Nat} {leaves : List LeafCandidate} {leaf : LeafCandidate} {id : PlanId}
    (offered : environment.leafPlanner call node (Ledger.predicates (ledger.filter (LedgerEntry.isLocalTo node)))
      environment.statistics = .ok leaves)
    (chosen : leaf ∈ leaves) (recorded : arena.solved id = leaf.solved)
    (placed : Placed (.leaf id leaf.operator) (ledger.solve leaf.solved) plan rest)

inductive Added (graph : MatchGraph) (index : Nat) (input : Plan) (ledger : Ledger) :
    Connection → Plan → Plan → Ledger → Prop where
  | extended {connection : Connection} {operator plan : Plan} {rest : Ledger}
    (touches : connection.left ∈ input.available ∨ connection.right ∈ input.available)
    (extended : Extended environment arena graph index input ledger connection operator plan rest) :
    Added graph index input ledger connection operator plan rest
  | joined {relationship : PatternRelationship} {near far : String} {leaf plan : Plan} {middle rest : Ledger}
    {id joinId : PlanId}
    (simple : relationship.isPath = false) (oriented : relationship.orientation input.available = (near, far))
    (nearBound : near ∈ input.available) (farFree : far ∉ input.available)
    (scanned : Scanned environment arena far ledger leaf middle) (selective : middle.length ≠ ledger.length)
    (placed : Placed (.join joinId (.nodeHashJoin [near]) input
      (.step id (.expand (relationship.hop far near) relationship.name .all) leaf)) middle plan rest) :
    Added graph index input ledger (.relationship relationship)
      (.step id (.expand (relationship.hop far near) relationship.name .all) leaf) plan rest

/-- What the first connection of a component is planned above: one of its endpoints, or the product of both. -/
inductive Seeded (connection : Connection) (ledger : Ledger) : Plan → Ledger → Prop where
  | endpoint {node : String} {plan : Plan} {rest : Ledger} (ends : node = connection.left ∨ node = connection.right)
    (scanned : Scanned environment arena node ledger plan rest) : Seeded connection ledger plan rest
  | crossed {left right : Plan} {middle rest : Ledger} {id : PlanId} (crosses : Environment.crosses connection = true)
    (scannedLeft : Scanned environment arena connection.left ledger left middle)
    (scannedRight : Scanned environment arena connection.right middle right rest) :
    Seeded connection ledger (.join id .cartesianProduct left right) rest

/-- The connections planned so far, each with the operator that realises it. -/
abbrev Assignment := List (Nat × Plan)

/-- A partial plan of one component, what is still open above it, and the connections it covers. -/
inductive Grown (graph : MatchGraph) (component : Component) (ledger : Ledger) : Plan → Ledger → Assignment → Prop where
  | argument {id : PlanId} {plan : Plan} {rest : Ledger} (touched : ∃ node ∈ component.nodes, node ∈ graph.arguments)
    (recorded : arena.solved id = []) (placed : Placed (.leaf id (.argument graph.arguments.names)) ledger plan rest) :
    Grown graph component ledger plan rest []
  | scan {node : String} {plan : Plan} {rest : Ledger} (untouched : ∀ node ∈ component.nodes, node ∉ graph.arguments)
    (member : node ∈ component.nodes) (alone : Environment.connectionsAt graph component.connections = [])
    (scanned : Scanned environment arena node ledger plan rest) : Grown graph component ledger plan rest []
  | seeded {index : Nat} {connection : Connection} {seed operator plan : Plan} {middle rest : Ledger}
    (untouched : ∀ node ∈ component.nodes, node ∉ graph.arguments)
    (member : (index, connection) ∈ Environment.connectionsAt graph component.connections)
    (seeded : Seeded environment arena connection ledger seed middle)
    (extended : Extended environment arena graph index seed middle connection operator plan rest) :
    Grown graph component ledger plan rest [(index, operator)]
  | added {index : Nat} {connection : Connection} {input operator plan : Plan} {middle rest : Ledger} {assigned : Assignment}
    (grown : Grown graph component ledger input middle assigned)
    (member : (index, connection) ∈ Environment.connectionsAt graph component.connections)
    (fresh : index ∉ assigned.map Prod.fst)
    (added : Added environment arena graph index input middle connection operator plan rest) :
    Grown graph component ledger plan rest (assigned ++ [(index, operator)])

theorem Grown.known {environment : Environment ν} {arena : Arena ν} {graph : MatchGraph} {component : Component}
    {ledger rest : Ledger} {plan : Plan} {assigned : Assignment}
    (grown : Grown environment arena graph component ledger plan rest assigned) :
    ∀ entry ∈ assigned, ∃ connection, (entry.1, connection) ∈ Environment.connectionsAt graph component.connections := by
  induction grown with
  | argument | scan =>
    intro _ impossible
    exact absurd impossible List.not_mem_nil
  | seeded _ member =>
    intro entry here
    rw [List.mem_singleton.mp here]
    exact ⟨_, member⟩
  | added _ member _ _ former =>
    intro entry either
    rcases List.mem_append.mp either with early | here
    · exact former entry early
    · rw [List.mem_singleton.mp here]
      exact ⟨_, member⟩

/-! The plan of a whole graph. -/

/-- The plan of a component with the connections it covers. -/
structure Leg where
  plan : Plan
  assigned : Assignment

/-- The components planned in turn, each from the ledger the one before left. -/
inductive Legs (graph : MatchGraph) : Ledger → List Component → List Leg → Ledger → Prop where
  | done {ledger : Ledger} : Legs graph ledger [] [] ledger
  | leg {ledger middle rest : Ledger} {component : Component} {components : List Component} {plan : Plan}
    {assigned : Assignment} {legs : List Leg} (grown : Grown environment arena graph component ledger plan middle assigned)
    (covers : (assigned.map Prod.fst).Perm ((Environment.connectionsAt graph component.connections).map Prod.fst))
    (others : Legs graph middle components legs rest) :
    Legs graph ledger (component :: components) (⟨plan, assigned⟩ :: legs) rest

end

/-- The product of a plan with further legs, everything placed as soon as it is ready. -/
inductive Combined : Plan → Ledger → List Leg → Plan → Ledger → Prop where
  | done {plan : Plan} {ledger : Ledger} : Combined plan ledger [] plan ledger
  | product {root next plan : Plan} {ledger middle rest : Ledger} {leg : Leg} {legs : List Leg} {id : PlanId}
    (placed : Placed (.join id .cartesianProduct root leg.plan) ledger next middle)
    (others : Combined next middle legs plan rest) : Combined root ledger (leg :: legs) plan rest

/-- The plan the further legs are added to. -/
inductive Rooted {ν : Type} (arena : Arena ν) (graph : MatchGraph) (first : Plan) (ledger : Ledger) : Plan → Ledger → Prop where
  | covered (covered : ∀ name ∈ graph.arguments, name ∈ first.available) : Rooted arena graph first ledger first ledger
  | argument {id productId : PlanId} {root : Plan} {rest : Ledger}
    (missing : ∃ name ∈ graph.arguments, name ∉ first.available) (recorded : arena.solved id = [])
    (placed : Placed (.join productId .cartesianProduct (.leaf id (.argument graph.arguments.names)) first) ledger root rest) :
    Rooted arena graph first ledger root rest

/-- A complete plan, with the operator of every connection. -/
inductive Composed {ν : Type} (environment : Environment ν) (arena : Arena ν) (graph : MatchGraph) : Plan → Assignment → Prop where
  | argument {id : PlanId} {plan : Plan} (empty : graph.components = []) (some : graph.arguments ≠ ∅)
    (recorded : arena.solved id = []) (placed : Placed (.leaf id (.argument graph.arguments.names)) (.ofGraph graph) plan []) :
    Composed environment arena graph plan []
  | combined {legs others : List Leg} {first : Leg} {root plan : Plan} {ledger middle : Ledger}
    (planned : Legs environment arena graph (.ofGraph graph) graph.components legs ledger)
    (sorted : (first :: others).Perm legs) (rooted : Rooted arena graph first.plan ledger root middle)
    (combined : Combined root middle others plan []) :
    Composed environment arena graph plan (legs.flatMap Leg.assigned)

end MatchPlanner
