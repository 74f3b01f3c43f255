import MatchPlanner.Config
import MatchPlanner.Cost.Model
import MatchPlanner.Planning.Arena
import MatchPlanner.Planning.LeafCandidate
import MatchPlanner.Planning.Trace

/-! A planning run: the collaborators it consults, the state it carries, and the few actions that touch that state. What was
allocated and recorded before a failure stays allocated and recorded. -/

namespace MatchPlanner

/-- What a planner relies on. Estimates, leaves and the comparison of shapes are questions it asks, not code it knows. -/
structure Environment (ν : Type) where
  config : PlannerConfig
  statistics : Statistics ν
  estimator : Plan → Statistics ν → Except PlanningError (Estimate ν)
  /-- The candidates for a node given the predicates that read it alone; calls are numbered from one. -/
  leafPlanner : Nat → String → List Expression → Statistics ν → Except PlanningError (List LeafCandidate)
  /-- Whether a quantified pattern is planned from a product of both boundaries, given the estimate from a single one. -/
  prefersCartesian : Estimate ν → Estimate ν → Bool
  /-- Whether the caller requests cancellation during a call of the leaf planner. -/
  cancelsDuring : Nat → Bool

structure Session (ν : Type) where
  arena : Arena ν
  trace : List (TraceStep ν)
  leafCalls : Nat
  cancelled : Bool

/-- The state before the first run of a planner. -/
def Session.initial {ν : Type} (cancelled : Bool) : Session ν := ⟨.empty, [], 0, cancelled⟩

abbrev Planning (ν : Type) := EStateM PlanningError (Session ν)

namespace Planning

variable {ν β : Type}

def ofExcept : Except PlanningError β → Planning ν β
  | .ok value => pure value
  | .error error => throw error

/-- Runs an action that may turn out impossible for one candidate alone; any other failure ends the run. -/
def attempt (action : Planning ν β) : Planning ν (Except PlanningError β) :=
  tryCatch (Except.ok <$> action) fun error => if error.isCandidateLocal then pure (.error error) else throw error

def allocate : Planning ν PlanId := do
  let session ← get
  set { session with arena := { session.arena with allocated := session.arena.allocated + 1 } }
  return ⟨session.arena.allocated⟩

/-- A name that starts with blanks, so that no name of a query is the same. -/
def freshName (stem : String) : Planning ν String := do
  let session ← get
  set { session with arena := { session.arena with freshNames := session.arena.freshNames + 1 } }
  return "  " ++ stem ++ "_" ++ toString session.arena.freshNames

def setCardinality (id : PlanId) (rows : ν) : Planning ν Unit := do
  let session ← get
  let table ← ofExcept (session.arena.cardinalities.set .cardinality id rows)
  set { session with arena := { session.arena with cardinalities := table } }

def setSolved (id : PlanId) (predicates : List Expression) : Planning ν Unit := do
  let session ← get
  let table ← ofExcept (session.arena.solvedPredicates.set .solvedPredicates id predicates)
  set { session with arena := { session.arena with solvedPredicates := table } }

def setOrder (id : PlanId) (order : ProvidedOrder) : Planning ν Unit := do
  let session ← get
  let table ← ofExcept (session.arena.providedOrders.set .providedOrder id order)
  set { session with arena := { session.arena with providedOrders := table } }

def record (phase : PlanningPhase) (description : String) (metadata : TraceMetadata ν) : Planning ν Unit :=
  modify fun session => { session with trace := session.trace ++ [⟨phase, description, .zero, metadata⟩] }

def checkCancellation : Planning ν Unit := do
  if (← get).cancelled then throw .cancelled

end Planning

namespace Environment

variable {ν : Type} (environment : Environment ν)

def estimate (plan : Plan) : Planning ν (Estimate ν) := Planning.ofExcept (environment.estimator plan environment.statistics)

/-- Gives an operator its id and records its rows, the predicates it solves and its order. -/
def finish (operator : PlanId → Plan) (solved : List Expression) : Planning ν Plan := do
  let plan := operator (← Planning.allocate)
  let estimate ← environment.estimate plan
  let order := plan.orderFrom (← get).arena.orderOf
  Planning.setCardinality plan.id estimate.rows
  Planning.setSolved plan.id solved
  Planning.setOrder plan.id order
  return plan

/-- Puts a filter above a plan, unless there is nothing to filter by. -/
def filter (input : Plan) (predicates : List Expression) : Planning ν Plan :=
  if predicates.isEmpty then pure input else environment.finish (.step · (.filter predicates) input) predicates

def leafCandidates (node : String) (predicates : List Expression) : Planning ν (List LeafCandidate) := do
  let session ← get
  let call := session.leafCalls + 1
  set { session with leafCalls := call, cancelled := session.cancelled || environment.cancelsDuring call }
  Planning.ofExcept (environment.leafPlanner call node predicates environment.statistics)

end Environment

/-- Keeps the cheaper of two candidates, the earlier one when neither is strictly cheaper. -/
def keepCheaper {ν β : Type} [Quantity ν] (estimate : β → Estimate ν) (best : Option β) (candidate : β) : Option β :=
  match best with
  | none => some candidate
  | some kept => if Quantity.less (estimate candidate).cost (estimate kept).cost then some candidate else some kept

end MatchPlanner
