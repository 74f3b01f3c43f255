import MatchPlanner.Composition.Start

/-! How the plan of a component grows: step by step the cheapest connection with a bound endpoint is added, as an expansion or
as a join with a plan of its own for the far endpoint. -/

namespace MatchPlanner

def TraceMetadata.ofCandidate {ν : Type} (candidate : Candidate ν) : TraceMetadata ν :=
  ⟨some candidate.plan.kind, candidate.plan.available.names, some candidate.estimate.rows, some candidate.estimate.cost⟩

/-- The cheapest way to add a connection found so far, and the first failure met. -/
structure GrowthSearch (ν : Type) where
  best : Option (Nat × Connection × Candidate ν)
  failure : Option PlanningError

namespace GrowthSearch

variable {ν : Type}

def none : GrowthSearch ν := ⟨.none, .none⟩

def offer [Quantity ν] (search : GrowthSearch ν) (index : Nat) (connection : Connection) (candidate : Candidate ν) :
    GrowthSearch ν :=
  { search with best := keepCheaper (fun kept => kept.2.2.estimate) search.best (index, connection, candidate) }

def fail (search : GrowthSearch ν) (error : PlanningError) : GrowthSearch ν :=
  { search with failure := search.failure <|> some error }

end GrowthSearch

namespace Environment

variable {ν : Type} (environment : Environment ν) [Quantity ν]

/-- Joins a plan with an expansion that starts at the far endpoint, when that endpoint has a predicate of its own. -/
def hashJoinCandidate (index : Nat) (relationship : PatternRelationship) (plan : Plan) (ledger : Ledger) :
    Planning ν (Option (Candidate ν)) := do
  if !environment.config.nodeHashJoin || relationship.isPath then return none
  let bound := plan.available
  let (near, far) := relationship.orientation bound
  if far ∈ bound ∨ near ∉ bound then return none
  let leaf ← environment.bestLeaf far ledger
  if leaf.remaining.length = ledger.length then return none
  let right ← environment.finish (.step · (.expand (relationship.hop far near) relationship.name .all) leaf.plan) []
  let join ← environment.finish (.join · (.nodeHashJoin [near]) plan right) []
  let (placed, remaining) ← environment.placeReady join leaf.remaining
  let description := "NodeHashJoin on " ++ near ++ " via " ++ relationship.render
  return some (← environment.candidate placed remaining description (some index))

/-- Offers every way to add one connection to a plan. -/
def growThrough (graph : MatchGraph) (plan : Plan) (ledger : Ledger) (search : GrowthSearch ν) (index : Nat)
    (connection : Connection) : Planning ν (GrowthSearch ν) := do
  let _ ← environment.estimate plan
  let search ← match ← Planning.attempt (environment.expand graph index connection plan ledger) with
    | .ok candidate => pure (search.offer index connection candidate)
    | .error error => pure (search.fail error)
  match connection with
  | .quantified _ => return search
  | .relationship relationship =>
    match ← environment.hashJoinCandidate index relationship plan ledger with
    | some candidate => return search.offer index connection candidate
    | none => return search

def cheapestGrowth (graph : MatchGraph) (plan : Plan) (ledger : Ledger) (search : GrowthSearch ν) :
    List (Nat × Connection) → Planning ν (GrowthSearch ν)
  | [] => return search
  | (index, connection) :: rest => do
    if connection.left ∈ plan.available ∨ connection.right ∈ plan.available then
      cheapestGrowth graph plan ledger (← environment.growThrough graph plan ledger search index connection) rest
    else cheapestGrowth graph plan ledger search rest

def growthPhase : Connection → PlanningPhase
  | .relationship _ => .expansion
  | .quantified _ => .qppSelection

/-- Adds the remaining connections of a component, at most `rounds` of them; `steps` counts the growth steps of the whole
run. -/
def grow (graph : MatchGraph) (component : Component) : (rounds : Nat) → (steps : Nat) → (current : Candidate ν) →
    (remaining : List (Nat × Connection)) → Planning ν (Candidate ν × Nat)
  | 0, steps, current, _ => return (current, steps)
  | rounds + 1, steps, current, remaining => do
    if remaining.isEmpty then return (current, steps)
    if (steps + 1) % environment.config.checkInterval = 0 then Planning.checkCancellation
    let search ← environment.cheapestGrowth graph current.plan current.remaining .none remaining
    match search.best, search.failure with
    | some (index, connection, chosen), _ =>
      Planning.record (growthPhase connection) chosen.description (.ofCandidate chosen)
      grow graph component rounds (steps + 1) chosen (remaining.filter fun other => other.1 != index)
    | none, some error => throw error
    | none, none => throw (.internal (.detachedConnections component.nodes))

/-- Plans one component. -/
def planComponent (graph : MatchGraph) (component : Component) (steps : Nat) (ledger : Ledger) :
    Planning ν (Candidate ν × Nat) := do
  let start ← environment.chooseStart graph component ledger
  Planning.record .startSelection start.description (.ofCandidate start)
  let connections := connectionsAt graph component.connections
  let remaining := connections.filter fun other => some other.1 != start.connection
  environment.grow graph component connections.length steps start remaining

end Environment

end MatchPlanner
