import MatchPlanner.Pattern.Relationship

/-! Quantified path patterns: a chain of relationships that repeats between two boundary nodes. Inside the repetition every
variable stands for one element; outside, a group variable stands for the list of all of them. -/

namespace MatchPlanner

/-- A boundary node: its name in the match and its name inside the repetition. -/
structure Boundary where
  outer : String
  inner : String
deriving DecidableEq

/-- The list `group` collects the values of `singleton` over all repetitions. -/
structure Grouping where
  singleton : String
  group : String
deriving DecidableEq

inductive GroupKind where
  | node
  | relationship
deriving DecidableEq

structure QuantifiedPattern where
  left : Boundary
  right : Boundary
  relationships : List PatternRelationship
  repetition : Repetition
  nodeGroupings : List Grouping
  relationshipGroupings : List Grouping
  selections : List Expression

/-- The nodes along a chain of relationships that starts at `start`. -/
def nodesAlong (start : String) (relationships : List PatternRelationship) : List String :=
  start :: relationships.map PatternRelationship.right

def groupsOf (groupings : List Grouping) : List String := groupings.map Grouping.group

def groupOf? (groupings : List Grouping) (singleton : String) : Option String :=
  (groupings.find? fun grouping => grouping.singleton == singleton).map Grouping.group

namespace QuantifiedPattern

def innerNodes (pattern : QuantifiedPattern) : List String := nodesAlong pattern.left.inner pattern.relationships

def relationshipNames (pattern : QuantifiedPattern) : List String := pattern.relationships.map PatternRelationship.name

def innerVariables (pattern : QuantifiedPattern) : NameSet := .ofList (pattern.innerNodes ++ pattern.relationshipNames)

def nodeGroups (pattern : QuantifiedPattern) : List String := groupsOf pattern.nodeGroupings

def relationshipGroups (pattern : QuantifiedPattern) : List String := groupsOf pattern.relationshipGroupings

def groups (pattern : QuantifiedPattern) : List String := pattern.nodeGroups ++ pattern.relationshipGroups

def relationshipGroup? (pattern : QuantifiedPattern) (singleton : String) : Option String :=
  groupOf? pattern.relationshipGroupings singleton

/-- What a group collects; a name that groups both nodes and relationships is taken for nodes. -/
def groupingOf? (pattern : QuantifiedPattern) (group : String) : Option (GroupKind × Grouping) :=
  match pattern.nodeGroupings.find? fun grouping => grouping.group == group with
  | some grouping => some (.node, grouping)
  | none =>
    (pattern.relationshipGroupings.find? fun grouping => grouping.group == group).map fun grouping => (.relationship, grouping)

def isSingle (pattern : QuantifiedPattern) : Bool := pattern.relationships.length == 1

/-- The types of all relationships together, absent as soon as one relationship may have any type. -/
def typeSet (pattern : QuantifiedPattern) : TypeSet :=
  if pattern.relationships.any fun relationship => relationship.types.isEmpty then none
  else some (.ofList (pattern.relationships.flatMap PatternRelationship.types))

def renderChain : List PatternRelationship → String
  | [] => ""
  | first :: rest =>
    let arrow (relationship : PatternRelationship) : String :=
      renderArrow relationship.name relationship.types "" relationship.direction ++ renderNode relationship.right
    renderNode first.left ++ arrow first ++ String.join (rest.map arrow)

def render (pattern : QuantifiedPattern) : String :=
  renderNode pattern.left.outer ++ " (" ++ renderChain pattern.relationships ++ ")" ++ pattern.repetition.render ++ " " ++
    renderNode pattern.right.outer

end QuantifiedPattern

end MatchPlanner
