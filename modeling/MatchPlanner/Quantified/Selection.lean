import MatchPlanner.Quantified.InnerPlan

/-! Choosing the operator for a quantified pattern. A pattern of one relationship whose interior nobody observes becomes a
single expansion of variable length; any other pattern becomes a loop. Both boundaries may serve as the start, and the
cheaper start is taken. -/

namespace MatchPlanner

structure QuantifiedRequest where
  pattern : QuantifiedPattern
  /-- The atoms of the clause that read a group of the pattern. -/
  outer : List Expression
  /-- The variables read once the pattern is planned. -/
  downstream : NameSet
  /-- Bound producers whose relationships the pattern must not use. -/
  siblings : List RelationshipProducer
  /-- Groups that a later uniqueness check reads. -/
  retained : NameSet
  distinctEndpoints : Bool

structure PlannedPattern (ν : Type) where
  plan : Plan
  estimate : Estimate ν
  operator : OperatorKind
  direction : TraversalDirection
  /-- The atoms of the clause that the operator enforces. -/
  solvedOuter : List Expression
  /-- The operator keeps its relationships apart from those of the siblings. -/
  dischargedSiblings : Bool

namespace QuantifiedRequest

/-- The groups that have to be bound by the operator. -/
def neededGroups (request : QuantifiedRequest) (classification : Classification) : NameSet :=
  (request.downstream ∪ classification.postFilterDependencies ∪ request.retained).filter fun name =>
    decide (name ∈ request.pattern.groups)

/-- Nothing inside the repetition is observed but the relationship itself. -/
def collapses (request : QuantifiedRequest) (config : PlannerConfig) (classification : Classification) (needed : NameSet) :
    Bool :=
  config.collapsesToVarExpand && request.pattern.isSingle && !classification.hasSelections &&
    !(request.pattern.nodeGroups.any fun group => decide (group ∈ needed)) && classification.fitsRelationships

/-- The boundaries that are bound, the left one first. -/
def directions (request : QuantifiedRequest) (bound : NameSet) : List TraversalDirection :=
  (if request.pattern.left.outer ∈ bound then [.forward] else []) ++
    (if request.pattern.right.outer ∈ bound then [.reversed] else [])

/-- The hop a collapsed pattern repeats. -/
def hop (request : QuantifiedRequest) (relationship : PatternRelationship) (direction : TraversalDirection) : Hop where
  source := (request.pattern.near direction).outer
  target := (request.pattern.far direction).outer
  direction := if direction.isReversed then relationship.direction.reversed else relationship.direction
  types := relationship.types

/-- Only the end nodes are read, and each of them once. -/
def prunes (request : QuantifiedRequest) (config : PlannerConfig) (needed : NameSet) (group : String) (farBound : Bool) : Bool :=
  config.pruningVarExpand && request.distinctEndpoints && !(decide (group ∈ needed) || !request.siblings.isEmpty) && !farBound

/-- The expansion a collapsed pattern becomes. -/
def expansion (request : QuantifiedRequest) (config : PlannerConfig) (hop : Hop) (group : String)
    (predicates : List VariablePredicate) (prunes farBound : Bool) : Step :=
  let range := request.pattern.repetition
  let full : Step := .varLengthExpand hop group range [] predicates (if farBound then .into else .all)
  if prunes then
    if config.bfsPruningSupported && range.least ≤ 1 then .bfsPruningVarExpand hop (range.least == 0) range.most [] predicates
    else
      match range.most with
      | .limited most => .pruningVarExpand hop range.least most [] predicates
      | .unlimited => full
  else full

end QuantifiedRequest

namespace Environment

variable {ν : Type} (environment : Environment ν)

def varExpandCandidate (source : Plan) (request : QuantifiedRequest) (classification : Classification) (needed bound : NameSet)
    (direction : TraversalDirection) : Planning ν (PlannedPattern ν) := do
  match request.pattern.relationships with
  | [] => throw (.malformedPattern (.missingRelationship request.pattern.render))
  | relationship :: _ =>
    match request.pattern.relationshipGroup? relationship.name with
    | none => throw (.malformedPattern (.ungroupedRelationship relationship.name))
    | some group =>
      let hop := request.hop relationship direction
      let farBound := decide (hop.target ∈ bound)
      let prunes := request.prunes environment.config needed group farBound
      let predicates := classification.extracted.map ExtractedPredicate.element
      let step := request.expansion environment.config hop group predicates prunes farBound
      let plan ← environment.finish (.step · step source) classification.solved
      return ⟨plan, ← environment.estimate plan, step.kind, direction, classification.solved, false⟩

/-- The siblings that the loop checks in every step. -/
def checkedSiblings (parameters : TrailParameters) (siblings : List RelationshipProducer) : List RelationshipProducer :=
  siblings.filter fun sibling =>
    match sibling.form with
    | .single => decide (sibling.name ∈ parameters.boundRelationships)
    | .list => decide (sibling.name ∈ parameters.boundRelationshipGroups)

def trailCandidate (source : Plan) (request : QuantifiedRequest) (classification : Classification) (needed bound : NameSet)
    (direction : TraversalDirection) : Planning ν (PlannedPattern ν) := do
  let (parameters, equality) ←
    TrailRequest.build ⟨request.pattern, direction, bound, needed, request.siblings⟩
  let siblings := checkedSiblings parameters request.siblings
  let inner ← environment.innerPlan request.pattern classification bound parameters.innerStart
    (request.pattern.steps direction) siblings
  let trail ← environment.finish (.trail · parameters source inner) classification.solved
  let plan ← match equality with
    | some equality => environment.filter trail [equality]
    | none => pure trail
  return ⟨plan, ← environment.estimate plan, .trail, direction, classification.solved, true⟩

variable [Quantity ν]

/-- Tries the directions in turn; keeps the cheapest candidate and the first candidate's failure. -/
def cheapestDirection (candidate : TraversalDirection → Planning ν (PlannedPattern ν)) (best : Option (PlannedPattern ν))
    (failure : Option PlanningError) : List TraversalDirection →
    Planning ν (Option (PlannedPattern ν) × Option PlanningError)
  | [] => return (best, failure)
  | direction :: rest => do
    match ← Planning.attempt (candidate direction) with
    | .ok planned => cheapestDirection candidate (keepCheaper PlannedPattern.estimate best planned) failure rest
    | .error error => cheapestDirection candidate best (failure <|> some error) rest

/-- Plans a quantified pattern above a plan that binds at least one of its boundaries. -/
def planPattern (source : Plan) (request : QuantifiedRequest) : Planning ν (PlannedPattern ν) := do
  let bound := source.available
  let classification := request.pattern.classify request.outer bound
  let needed := request.neededGroups classification
  let directions := request.directions bound
  if directions.isEmpty then throw (.internal (.unboundBoundaries request.pattern.render))
  let candidate :=
    if request.collapses environment.config classification needed then
      environment.varExpandCandidate source request classification needed bound
    else environment.trailCandidate source request classification needed bound
  match ← cheapestDirection candidate none none directions with
  | (some best, _) => return best
  | (none, some error) => throw error
  | (none, none) => throw (.internal (.noCandidate request.pattern.render))

/-- Plans a quantified pattern above the product of plans for both its boundaries. -/
def planPatternBetween (left right : Plan) (request : QuantifiedRequest) : Planning ν (PlannedPattern ν) := do
  let product ← environment.finish (.join · .cartesianProduct left right) []
  environment.planPattern product request

end Environment

end MatchPlanner
