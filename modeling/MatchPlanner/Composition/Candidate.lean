import MatchPlanner.Composition.Ledger
import MatchPlanner.Quantified.Selection

/-! Partial plans of a match graph and how one connection is added to them. -/

namespace MatchPlanner

/-- A partial plan and the predicates that are still open above it. -/
structure Candidate (ν : Type) where
  plan : Plan
  estimate : Estimate ν
  remaining : Ledger
  description : String
  /-- The connection that the last step planned. -/
  connection : Option Nat

/-- The near and the far endpoint of a relationship, the left one near when it is bound. -/
def PatternRelationship.orientation (relationship : PatternRelationship) (bound : NameSet) : String × String :=
  if relationship.left ∈ bound then (relationship.left, relationship.right) else (relationship.right, relationship.left)

/-- The hop over a relationship that leaves from one of its endpoints. -/
def PatternRelationship.hop (relationship : PatternRelationship) (source target : String) : Hop :=
  ⟨source, target, relationship.directionFrom source, relationship.types⟩

/-- The operator that traverses a relationship on its own. -/
def PatternRelationship.step (relationship : PatternRelationship) (hop : Hop) (mode : ExpansionMode) : Step :=
  match relationship.length with
  | .simple => .expand hop relationship.name mode
  | .path range => .varLengthExpand hop relationship.name range [] [] mode

/-- What a quantified pattern has to know of the ledger when it is planned, and the uniqueness checks it may discharge. -/
structure QuantifiedSite where
  request : QuantifiedRequest
  dischargeable : Ledger

/-- The entries of a ledger whose obligation concerns a connection, with the producers on both sides. -/
def Ledger.obligationsOf (ledger : Ledger) (connection : Nat) :
    List (LedgerEntry × RelationshipProducer × RelationshipProducer) :=
  ledger.filterMap fun entry => do
    let obligation ← entry.obligation
    return (entry, ← obligation.own? connection, ← obligation.counterpart? connection)

/-- A check whose counterpart is bound can be made inside the pattern; for any other the pattern must keep its own group. -/
def QuantifiedPattern.site (pattern : QuantifiedPattern) (graph : MatchGraph) (connection : Nat) (bound : NameSet)
    (ledger : Ledger) : QuantifiedSite :=
  let groups := NameSet.ofList pattern.groups
  let (outer, others) := (ledger.filter LedgerEntry.isAtom).partition (LedgerEntry.reads groups)
  let (settled, later) := (ledger.obligationsOf connection).partition fun concern => decide (concern.2.2.name ∈ bound)
  { request :=
      { pattern := pattern
        outer := outer.map LedgerEntry.predicate
        downstream := graph.required ∪ .unionOf (others.map LedgerEntry.dependencies)
        siblings := settled.map fun concern => concern.2.2
        retained := .ofList (later.map fun concern => concern.2.1.name)
        distinctEndpoints := graph.distinctEndpoints }
    dischargeable := settled.map Prod.fst }

namespace Environment

variable {ν : Type} (environment : Environment ν)

/-- Puts every open predicate that can be evaluated above a plan into one filter. -/
def placeReady (plan : Plan) (ledger : Ledger) : Planning ν (Plan × Ledger) := do
  let (ready, remaining) := ledger.partition (LedgerEntry.isReady plan.available)
  return (← environment.filter plan (Ledger.predicates ready), remaining)

def candidate (plan : Plan) (remaining : Ledger) (description : String) (connection : Option Nat) :
    Planning ν (Candidate ν) := do
  return ⟨plan, ← environment.estimate plan, remaining, description, connection⟩

def expandRelationship (relationship : PatternRelationship) (input : Plan) : Planning ν Plan :=
  let bound := input.available
  let (near, far) := relationship.orientation bound
  let mode := if far ∈ bound then ExpansionMode.into else .all
  environment.finish (.step · (relationship.step (relationship.hop near far) mode) input) []

variable [Quantity ν]

/-- Adds one connection to a plan, then places what has become ready. -/
def expand (graph : MatchGraph) (index : Nat) (connection : Connection) (input : Plan) (ledger : Ledger) :
    Planning ν (Candidate ν) := do
  match connection with
  | .relationship relationship =>
    let expanded ← environment.expandRelationship relationship input
    let (plan, remaining) ← environment.placeReady expanded ledger
    environment.candidate plan remaining expanded.describe (some index)
  | .quantified pattern =>
    let site := pattern.site graph index input.available ledger
    let planned ← environment.planPattern input site.request
    let unsolved := ledger.solve planned.solvedOuter
    let unsolved := if planned.dischargedSiblings then unsolved.without site.dischargeable else unsolved
    let description := planned.operator.name ++ " " ++ planned.direction.name ++ " for " ++ pattern.render
    let (plan, remaining) ← environment.placeReady planned.plan unsolved
    environment.candidate plan remaining description (some index)

/-- The cheapest of the leaf candidates, each with the predicates it leaves placed above it. -/
def cheapestLeaf (ledger : Ledger) (best : Option (Candidate ν)) : List LeafCandidate → Planning ν (Option (Candidate ν))
  | [] => return best
  | leaf :: rest => do
    let scan ← environment.finish (.leaf · leaf.operator) leaf.solved
    let (plan, remaining) ← environment.placeReady scan (ledger.solve leaf.solved)
    let candidate ← environment.candidate plan remaining leaf.operator.describe none
    cheapestLeaf ledger (keepCheaper Candidate.estimate best candidate) rest

/-- The cheapest plan for the nodes of one variable. -/
def bestLeaf (node : String) (ledger : Ledger) : Planning ν (Candidate ν) := do
  let leaves ← environment.leafCandidates node (Ledger.predicates (ledger.filter (LedgerEntry.isLocalTo node)))
  match ← environment.cheapestLeaf ledger none leaves with
  | some best => return best
  | none => throw (.leafPlanning ("no leaf plan offered for " ++ node))

end Environment

end MatchPlanner
