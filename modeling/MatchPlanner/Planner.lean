import MatchPlanner.Barrier
import MatchPlanner.Composition.Combination
import MatchPlanner.Explain

/-! Planning one MATCH clause from beginning to end. -/

namespace MatchPlanner

/-- A plan together with what was recorded about it and how it came about. -/
structure PlannedQuery (ν : Type) where
  root : Plan
  arena : Arena ν
  trace : PlanTrace ν

/-- Finds the operators of a plan that read what others write. -/
abbrev ConflictAnalyzer := Plan → Except PlanningError (List EagerRequest)

namespace Environment

/-- A planner with the default collaborators, which nobody cancels. -/
def standard {ν : Type} [Quantity ν] (config : PlannerConfig) (statistics : Statistics ν) : Environment ν where
  config := config
  statistics := statistics
  estimator plan statistics := CostModel.standard.estimate statistics plan
  leafPlanner _ node predicates statistics := .ok (LeafCandidate.standard node predicates statistics)
  prefersCartesian := Estimate.prefersCartesian
  cancelsDuring _ := false

variable {ν : Type} (environment : Environment ν)

/-- Places the barriers of the requests and notes each of them in the trace. -/
def spliceRecorded (root : Plan) : List EagerRequest → Planning ν Plan
  | [] => return root
  | request :: rest => do
    let spliced ← environment.spliceEager root request
    let description := "Eager above " ++ request.reader.render ++ ": " ++ request.reason.description
    Planning.record .eagerSplicing description .empty
    spliceRecorded spliced rest

/-- Places the barriers of the conflicts found in a plan that exists already. -/
def applyConflicts (root : Plan) (analyzer : ConflictAnalyzer) : Planning ν Plan := do
  environment.spliceAll root (← Planning.ofExcept (analyzer root))

variable [Quantity ν]

/-- Plans a graph in an arena of its own. Requests for cancellation and the count of leaf planner calls outlive the run. -/
def planRoot (graph : MatchGraph) : Planning ν Plan := do
  modify fun session => { session with arena := .empty, trace := [] }
  Planning.ofExcept environment.config.validate
  Planning.ofExcept graph.validate
  let root ← environment.compose graph
  let estimate ← environment.estimate root
  Planning.record .composition "final plan" ⟨some root.kind, [], some estimate.rows, some estimate.cost⟩
  return root

def planned (root : Plan) : Planning ν (PlannedQuery ν) := do
  let session ← get
  return ⟨root, session.arena, ⟨session.trace, .zero⟩⟩

def plan (graph : MatchGraph) : Planning ν (PlannedQuery ν) := do
  planned (← environment.planRoot graph)

/-- Plans a graph, then places a barrier for every conflict found in the plan. -/
def planWithConflicts (graph : MatchGraph) (analyzer : ConflictAnalyzer) : Planning ν (PlannedQuery ν) := do
  let root ← environment.planRoot graph
  let requests ← Planning.ofExcept (analyzer root)
  planned (← environment.spliceRecorded root requests)

end Environment

namespace PlannedQuery

variable {ν : Type} [Quantity ν]

def explain (query : PlannedQuery ν) : String := query.root.explain query.arena

end PlannedQuery

end MatchPlanner
