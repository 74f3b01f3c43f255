import MatchPlanner.Composition.Growth

/-! The plan of a whole match graph: every component is planned on its own, and the components are combined by products,
the cheapest first. -/

namespace MatchPlanner

namespace Environment

variable {ν : Type} (environment : Environment ν)

/-- The product of two plans with everything placed that has become ready. -/
def product (left right : Plan) (ledger : Ledger) : Planning ν (Plan × Ledger) := do
  let product ← environment.finish (.join · .cartesianProduct left right) []
  environment.placeReady product ledger

def combineLegs (root : Plan) (ledger : Ledger) : List (Candidate ν) → Planning ν (Plan × Ledger)
  | [] => return (root, ledger)
  | leg :: rest => do
    Planning.checkCancellation
    let (combined, remaining) ← environment.product root leg.plan ledger
    Planning.record .composition "Cartesian product of components" ⟨some combined.kind, [], none, none⟩
    combineLegs combined remaining rest

variable [Quantity ν]

/-- Arguments that no component starts from are added below the first leg, for the predicates that read them. -/
def combine (graph : MatchGraph) (planned : List (Candidate ν)) (ledger : Ledger) : Planning ν (Plan × Ledger) := do
  match planned.mergeSort fun first second => Quantity.sortsBefore first.estimate.cost second.estimate.cost with
  | [] =>
    if graph.arguments = ∅ then throw (.malformedPattern .noNodes)
    let start ← environment.argumentStart graph ledger
    return (start.plan, start.remaining)
  | first :: legs =>
    if graph.arguments.within first.plan.available then environment.combineLegs first.plan ledger legs
    else
      let argument ← environment.argumentPlan graph
      let (root, remaining) ← environment.product argument first.plan ledger
      environment.combineLegs root remaining legs

/-- Plans the components in turn. Every component takes the predicates it solves out of the ledger. -/
def planComponents (graph : MatchGraph) (steps : Nat) (ledger : Ledger) : List Component →
    Planning ν (List (Candidate ν) × Ledger)
  | [] => return ([], ledger)
  | component :: rest => do
    Planning.checkCancellation
    let (planned, steps) ← environment.planComponent graph component steps ledger
    let (others, remaining) ← planComponents graph steps planned.remaining rest
    return (planned :: others, remaining)

/-- Plans a match graph. A predicate that stays open reads something the graph does not bind. -/
def compose (graph : MatchGraph) : Planning ν Plan := do
  let components := graph.components
  Planning.record .componentDiscovery (toString components.length ++ " components") .empty
  let (planned, ledger) ← environment.planComponents graph 0 (.ofGraph graph) components
  match ← environment.combine graph planned ledger with
  | (root, []) => return root
  | (root, entry :: _) => throw (.unsolvablePredicate entry.predicate (missingFrom root.available entry.predicate))

end Environment

end MatchPlanner
