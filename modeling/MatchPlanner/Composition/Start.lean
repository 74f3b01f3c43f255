import MatchPlanner.Composition.Candidate
import MatchPlanner.MatchGraph.Component

/-! Where the plan of a component starts: from the variables of earlier clauses, from a single node, or from one connection
planned on top of a leaf for either endpoint or of a product of both. -/

namespace MatchPlanner

namespace Environment

variable {ν : Type} (environment : Environment ν)

def argumentPlan (graph : MatchGraph) : Planning ν Plan :=
  environment.finish (.leaf · (.argument graph.arguments.names)) []

def argumentStart (graph : MatchGraph) (ledger : Ledger) : Planning ν (Candidate ν) := do
  let argument ← environment.argumentPlan graph
  let (plan, remaining) ← environment.placeReady argument ledger
  environment.candidate plan remaining "Argument" none

variable [Quantity ν]

/-- The cheaper plan of a connection above a leaf for one of its endpoints. -/
def endpointStart (graph : MatchGraph) (index : Nat) (connection : Connection) (ledger : Ledger) (best : Option (Candidate ν)) :
    List String → Planning ν (Option (Candidate ν))
  | [] => return best
  | endpoint :: rest => do
    let leaf ← environment.bestLeaf endpoint ledger
    match ← Planning.attempt (environment.expand graph index connection leaf.plan leaf.remaining) with
    | .ok candidate =>
      endpointStart graph index connection ledger (keepCheaper Candidate.estimate best candidate) rest
    | .error _ => endpointStart graph index connection ledger best rest

/-- A connection above the product of leaves for both its endpoints. -/
def cartesianStart (graph : MatchGraph) (index : Nat) (connection : Connection) (ledger : Ledger) : Planning ν (Candidate ν) := do
  let left ← environment.bestLeaf connection.left ledger
  let right ← environment.bestLeaf connection.right left.remaining
  let product ← environment.finish (.join · .cartesianProduct left.plan right.plan) []
  let _ ← environment.estimate product
  environment.expand graph index connection product right.remaining

/-- Both endpoints can be crossed when a quantified pattern has two of them. -/
def crosses (connection : Connection) : Bool := connection.isQuantified && connection.left != connection.right

/-- The start through one connection: above one endpoint, unless the product of both is preferred. -/
def connectionStart (graph : MatchGraph) (index : Nat) (connection : Connection) (ledger : Ledger) :
    Planning ν (Option (Candidate ν)) := do
  let single ← environment.endpointStart graph index connection ledger none [connection.left, connection.right]
  if crosses connection then
    match ← Planning.attempt (environment.cartesianStart graph index connection ledger) with
    | .ok cartesian =>
      match single with
      | some single =>
        return some (if environment.prefersCartesian single.estimate cartesian.estimate then cartesian else single)
      | none => return some cartesian
    | .error _ => return single
  else return single

def cheapestStart (graph : MatchGraph) (ledger : Ledger) (best : Option (Candidate ν)) :
    List (Nat × Connection) → Planning ν (Option (Candidate ν))
  | [] => return best
  | (index, connection) :: rest => do
    match ← environment.connectionStart graph index connection ledger with
    | some candidate => cheapestStart graph ledger (keepCheaper Candidate.estimate best candidate) rest
    | none => cheapestStart graph ledger best rest

/-- The connections at the given indices. -/
def connectionsAt (graph : MatchGraph) (indices : List Nat) : List (Nat × Connection) :=
  indices.filterMap fun index => (graph.connections[index]?).map fun connection => (index, connection)

/-- When every start through a connection is impossible, the first of them is planned again for its failure. -/
def chooseStart (graph : MatchGraph) (component : Component) (ledger : Ledger) : Planning ν (Candidate ν) := do
  if component.nodes.any fun node => decide (node ∈ graph.arguments) then environment.argumentStart graph ledger
  else
    match connectionsAt graph component.connections with
    | [] =>
      match component.nodes with
      | [] => throw (.internal .emptyComponent)
      | node :: _ => environment.bestLeaf node ledger
    | (index, connection) :: others =>
      match ← environment.cheapestStart graph ledger none ((index, connection) :: others) with
      | some best => return best
      | none =>
        let leaf ← environment.bestLeaf connection.left ledger
        environment.expand graph index connection leaf.plan leaf.remaining

end Environment

end MatchPlanner
