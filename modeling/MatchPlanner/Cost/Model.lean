import MatchPlanner.Cost.Selectivity
import MatchPlanner.Cost.Series
import MatchPlanner.Plan.Basic

/-! The default cost model: a plan's cost and row count from the statistics alone. No estimate exceeds the row ceiling, so
that huge plans can still be compared. -/

namespace MatchPlanner

/-- The cost of a plan and the rows it produces. -/
structure Estimate (ν : Type) where
  cost : ν
  rows : ν

/-- The largest bound a repetition can have. -/
def greatestBound : Nat := 4294967295

namespace CostModel

variable {ν : Type} [Quantity ν]

/-- The largest repetition count worth estimating. -/
def hopLimit (model : CostModel ν) (range : Repetition) : Nat :=
  let horizon := min (range.least + model.hopHorizon) greatestBound
  match range.most with
  | .unlimited => horizon
  | .limited count => min count horizon

def pathCount (model : CostModel ν) (factor : ν) (range : Repetition) : ν :=
  series factor range.least (model.hopLimit range)

/-- The relationships a traversal follows from one node, given the predicates on what it visits. -/
def traversedDegree (model : CostModel ν) (statistics : Statistics ν) (hop : Hop)
    (nodePredicates relationshipPredicates : List VariablePredicate) : ν :=
  statistics.averageDegree hop.types hop.direction *
    model.selectivityOfAll statistics (nodePredicates.map VariablePredicate.predicate) *
    model.selectivityOfAll statistics (relationshipPredicates.map VariablePredicate.predicate)

/-- A pruning traversal reaches every node once and follows every relationship once. -/
def pruningEstimate (model : CostModel ν) (statistics : Statistics ν) (source : Estimate ν) (degree : ν) (range : Repetition)
    (discount : ν) : Estimate ν :=
  let reachable := Quantity.smaller (model.pathCount degree range) statistics.nodeTotal
  let explored :=
    Quantity.smaller (model.pathCount degree ⟨max range.least 1, range.most⟩) statistics.relationshipTotal
  ⟨source.cost + source.rows * explored * model.expandPerRow * discount, source.rows * reachable⟩

def leafEstimate (model : CostModel ν) (statistics : Statistics ν) : Leaf → Estimate ν
  | .argument _ => ⟨Quantity.zero, Quantity.one⟩
  | .allNodesScan _ =>
    let rows := Quantity.ofNat statistics.totalNodes
    ⟨rows * model.cpuPerRow, rows⟩
  | .labelScan _ label =>
    let rows := statistics.labelCount label
    ⟨rows * model.cpuPerRow, rows⟩
  | .indexSeek _ label property _ unique =>
    let count := statistics.labelCount label
    let rows :=
      if unique then Quantity.smaller count Quantity.one else count * model.propertySelectivity statistics property
    ⟨model.indexSeek + rows * model.cpuPerRow, rows⟩

def stepEstimate (model : CostModel ν) (statistics : Statistics ν) (source : Estimate ν) : Step → Estimate ν
  | .expand hop _ mode =>
    let traversed := source.rows * statistics.averageDegree hop.types hop.direction
    let rows := match mode with
      | .all => traversed
      | .into => traversed / statistics.nodeTotal
    ⟨source.cost + traversed * model.expandPerRow, rows⟩
  | .varLengthExpand hop _ range nodePredicates relationshipPredicates mode =>
    let degree := model.traversedDegree statistics hop nodePredicates relationshipPredicates
    let paths := model.pathCount degree range
    let explored := model.pathCount degree ⟨max range.least 1, range.most⟩
    let found := source.rows * paths
    let rows := match mode with
      | .all => found
      | .into => found / statistics.nodeTotal
    ⟨source.cost + source.rows * explored * model.expandPerRow + rows * model.cpuPerRow, rows⟩
  | .pruningVarExpand hop least most nodePredicates relationshipPredicates =>
    let degree := model.traversedDegree statistics hop nodePredicates relationshipPredicates
    model.pruningEstimate statistics source degree ⟨least, .limited most⟩ Quantity.one
  | .bfsPruningVarExpand hop includeStart most nodePredicates relationshipPredicates =>
    let degree := model.traversedDegree statistics hop nodePredicates relationshipPredicates
    model.pruningEstimate statistics source degree ⟨if includeStart then 0 else 1, most⟩ (Quantity.fraction 9 10)
  | .filter predicates =>
    ⟨source.cost + source.rows * model.cpuPerRow * Quantity.ofNat predicates.length,
      source.rows * model.selectivityOfAll statistics predicates⟩
  | .eager _ => ⟨source.cost + source.rows * model.cpuPerRow, source.rows⟩

/-- The inner plan is estimated for a single row of its argument. -/
def trailEstimate (model : CostModel ν) (source iteration : Estimate ν) (range : Repetition) : Estimate ν :=
  let limit := model.hopLimit range
  let runs := if limit = 0 then Quantity.zero else series iteration.rows 0 (limit - 1)
  let rows := source.rows * model.pathCount iteration.rows range
  ⟨source.cost + source.rows * runs * (iteration.cost + model.cpuPerRow) + rows * model.cpuPerRow, rows⟩

def joinEstimate (model : CostModel ν) (statistics : Statistics ν) (left right : Estimate ν) : Join → Estimate ν
  | .cartesianProduct =>
    let rows := left.rows * right.rows
    ⟨left.cost + left.rows * right.cost + rows * model.cpuPerRow, rows⟩
  | .nodeHashJoin nodes =>
    ⟨left.cost + right.cost + (left.rows + right.rows) * model.hashPerRow,
      left.rows * right.rows / repeatedProduct statistics.nodeTotal nodes.length⟩

def cappedEstimate (estimate : Estimate ν) : Estimate ν := ⟨capped estimate.cost, capped estimate.rows⟩

def estimatePlan (model : CostModel ν) (statistics : Statistics ν) : Plan → Estimate ν
  | .leaf _ operator => cappedEstimate (model.leafEstimate statistics operator)
  | .step _ operator input => cappedEstimate (model.stepEstimate statistics (estimatePlan model statistics input) operator)
  | .trail _ parameters input inner =>
    cappedEstimate
      (model.trailEstimate (estimatePlan model statistics input) (estimatePlan model statistics inner) parameters.range)
  | .join _ operator left right =>
    cappedEstimate
      (model.joinEstimate statistics (estimatePlan model statistics left) (estimatePlan model statistics right) operator)

def isValidAmount (value : ν) : Bool := Quantity.finite value && !Quantity.less value Quantity.zero

/-- The estimate of a plan, unless its cost or its rows are not a finite amount. -/
def estimate (model : CostModel ν) (statistics : Statistics ν) (plan : Plan) : Except PlanningError (Estimate ν) :=
  let estimate := model.estimatePlan statistics plan
  if isValidAmount estimate.cost && isValidAmount estimate.rows then .ok estimate
  else
    .error (.estimation ("invalid estimate for plan " ++ plan.id.render ++ ": cost=" ++ Quantity.text estimate.cost ++
      " rows=" ++ Quantity.text estimate.rows))

end CostModel

/-- The default choice between two shapes: the product of both boundaries must be strictly cheaper. -/
def Estimate.prefersCartesian {ν : Type} [Quantity ν] (single cartesian : Estimate ν) : Bool :=
  Quantity.less cartesian.cost single.cost

end MatchPlanner
