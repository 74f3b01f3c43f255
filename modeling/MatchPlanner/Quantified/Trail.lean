import MatchPlanner.MatchGraph.Uniqueness
import MatchPlanner.Planning.Session

/-! The loop over a quantified pattern, started from either boundary: its parameters and the steps of one repetition. -/

namespace MatchPlanner

def TraversalDirection.isReversed : TraversalDirection → Bool
  | .forward => false
  | .reversed => true

/-- One relationship of the repeated chain as it is traversed. -/
structure TrailStep where
  relationship : String
  hop : Hop
deriving DecidableEq

def TrailStep.reversed (step : TrailStep) : TrailStep :=
  ⟨step.relationship, ⟨step.hop.target, step.hop.source, step.hop.direction.reversed, step.hop.types⟩⟩

def TrailStep.typeSet (step : TrailStep) : TypeSet := .ofList step.hop.types

namespace QuantifiedPattern

/-- The boundary a traversal starts from. -/
def near (pattern : QuantifiedPattern) : TraversalDirection → Boundary
  | .forward => pattern.left
  | .reversed => pattern.right

/-- The boundary a traversal ends at. -/
def far (pattern : QuantifiedPattern) : TraversalDirection → Boundary
  | .forward => pattern.right
  | .reversed => pattern.left

def forwardSteps (pattern : QuantifiedPattern) : List TrailStep :=
  pattern.relationships.map fun relationship =>
    ⟨relationship.name, ⟨relationship.left, relationship.right, relationship.direction, relationship.types⟩⟩

/-- The steps of one repetition in the order they are taken. -/
def steps (pattern : QuantifiedPattern) : TraversalDirection → List TrailStep
  | .forward => pattern.forwardSteps
  | .reversed => pattern.forwardSteps.reverse.map TrailStep.reversed

end QuantifiedPattern

structure TrailRequest where
  pattern : QuantifiedPattern
  direction : TraversalDirection
  /-- The variables bound by the plan below the loop. -/
  bound : NameSet
  /-- The groups something later reads. -/
  needed : NameSet
  /-- Producers of other patterns whose relationships the loop must not use. -/
  siblings : List RelationshipProducer

namespace TrailRequest

def near (request : TrailRequest) : Boundary := request.pattern.near request.direction

def far (request : TrailRequest) : Boundary := request.pattern.far request.direction

/-- The siblings that are bound and could share a relationship with the pattern. -/
def clashing (request : TrailRequest) : List RelationshipProducer :=
  request.siblings.filter fun sibling =>
    decide (sibling.name ∈ request.bound) && request.pattern.typeSet.overlap sibling.types

def boundNames (request : TrailRequest) (form : RelationshipForm) : List String :=
  ((request.clashing.filter fun sibling => sibling.form == form).map RelationshipProducer.name).eraseDups

def keep (request : TrailRequest) (groupings : List Grouping) : List Grouping :=
  groupings.filter fun grouping => decide (grouping.group ∈ request.needed)

def parameters (request : TrailRequest) (finish : String) : TrailParameters where
  range := request.pattern.repetition
  start := request.near.outer
  finish := finish
  innerStart := request.near.inner
  innerEnd := request.far.inner
  groupNodes := request.keep request.pattern.nodeGroupings
  groupRelationships := request.keep request.pattern.relationshipGroupings
  innerRelationships := request.pattern.relationshipNames
  boundRelationships := request.boundNames .single
  boundRelationshipGroups := request.boundNames .list
  reversedGroups := request.direction.isReversed

variable {ν : Type}

/-- The parameters of the loop. When its far boundary is bound already the loop ends in a fresh variable, which has to equal
that boundary. -/
def build (request : TrailRequest) : Planning ν (TrailParameters × Option Expression) := do
  if request.near.outer ∉ request.bound then throw (.internal (.unboundStart request.near.outer))
  if request.far.outer ∈ request.bound then
    let fresh ← Planning.freshName "trail_end"
    return (request.parameters fresh, some (.equals (.reference fresh) (.reference request.far.outer)))
  else return (request.parameters request.far.outer, none)

end TrailRequest

end MatchPlanner
