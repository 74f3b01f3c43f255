import MatchPlanner.Pattern.Quantified

/-! Building quantified path patterns. A draft becomes a pattern when its relationships form one simple path from the left
to the right boundary, its bounds are in order and its groups are distinct. -/

namespace MatchPlanner

structure QuantifiedDraft where
  left : Boundary
  right : Boundary
  relationships : List PatternRelationship
  repetition : Repetition
  nodeGroupings : List Grouping
  relationshipGroupings : List Grouping
  selections : List Expression
  /-- Group every inner variable that has no grouping under its own name. -/
  groupByName : Bool

/-- What is said about a pattern, one thing at a time. -/
inductive DraftPart where
  | relationship (pattern : PatternRelationship)
  | repetition (range : Repetition)
  | nodeGrouping (grouping : Grouping)
  | relationshipGrouping (grouping : Grouping)
  | selection (predicate : Expression)
  | groupByName

namespace QuantifiedDraft

/-- Two boundaries with nothing between them, to be passed through at least once. -/
def started (left right : Boundary) : QuantifiedDraft := ⟨left, right, [], .oneOrMore, [], [], [], false⟩

def add (draft : QuantifiedDraft) : DraftPart → QuantifiedDraft
  | .relationship pattern => { draft with relationships := draft.relationships ++ [pattern] }
  | .repetition range => { draft with repetition := range }
  | .nodeGrouping grouping => { draft with nodeGroupings := draft.nodeGroupings ++ [grouping] }
  | .relationshipGrouping grouping => { draft with relationshipGroupings := draft.relationshipGroupings ++ [grouping] }
  | .selection predicate => { draft with selections := draft.selections ++ [predicate] }
  | .groupByName => { draft with groupByName := true }

def ofParts (left right : Boundary) (parts : List DraftPart) : QuantifiedDraft := parts.foldl add (started left right)

/-- Follows the chain from the node `expected` and returns the node it ends at. -/
def chainEnd (expected : String) (seenNodes seenRelationships : List String) :
    List PatternRelationship → Except PatternFault String
  | [] => .ok expected
  | relationship :: rest =>
    if relationship.isPath then .error (.variableLength relationship.name)
    else if relationship.left ≠ expected then .error (.disconnected relationship.name expected)
    else if relationship.name ∈ seenRelationships then .error (.repeatedRelationship relationship.name)
    else if relationship.right ∈ seenNodes then .error (.repeatedNode relationship.right)
    else chainEnd relationship.right (relationship.right :: seenNodes) (relationship.name :: seenRelationships) rest

def groupedByName (names : List String) (groupings : List Grouping) : List Grouping :=
  names.foldl
    (fun grouped name =>
      if grouped.any fun grouping => grouping.singleton == name then grouped else grouped ++ [⟨name, name⟩])
    groupings

/-- Checks that groupings collect known members under new names, and returns all group names seen so far. -/
def checkGroupings (members : List String) (unknown : String → PatternFault) (seen : List String) :
    List Grouping → Except PatternFault (List String)
  | [] => .ok seen
  | grouping :: rest =>
    if grouping.singleton ∉ members then .error (unknown grouping.singleton)
    else if grouping.group ∈ seen then .error (.repeatedGroup grouping.group)
    else checkGroupings members unknown (grouping.group :: seen) rest

def checkGrouped (groupings : List Grouping) : List String → Except PatternFault Unit
  | [] => .ok ()
  | relationship :: rest =>
    if groupings.any fun grouping => grouping.singleton == relationship then checkGrouped groupings rest
    else .error (.ungroupedRelationship relationship)

def checked (draft : QuantifiedDraft) : Except PatternFault QuantifiedPattern := do
  if draft.relationships.isEmpty then throw .noRelationships
  let reached ← chainEnd draft.left.inner [draft.left.inner] [] draft.relationships
  if reached ≠ draft.right.inner then throw (.wrongEnd reached draft.right.inner)
  let repetition ← draft.repetition.checked
  let nodes := nodesAlong draft.left.inner draft.relationships
  let relationships := draft.relationships.map PatternRelationship.name
  let nodeGroupings := if draft.groupByName then groupedByName nodes draft.nodeGroupings else draft.nodeGroupings
  let relationshipGroupings :=
    if draft.groupByName then groupedByName relationships draft.relationshipGroupings else draft.relationshipGroupings
  let seen ← checkGroupings nodes .unknownGroupedNode [] nodeGroupings
  checkGrouped relationshipGroupings relationships
  let _ ← checkGroupings relationships .unknownGroupedRelationship seen relationshipGroupings
  return ⟨draft.left, draft.right, draft.relationships, repetition, nodeGroupings, relationshipGroupings, draft.selections⟩

def build (draft : QuantifiedDraft) : Except PlanningError QuantifiedPattern := draft.checked.mapError .malformedPattern

end QuantifiedDraft

end MatchPlanner
