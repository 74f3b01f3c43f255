import MatchPlanner.Expression.Serialization
import MatchPlanner.Pattern.Quantified

/-! Patterns as JSON values. -/

namespace MatchPlanner

def Direction.name : Direction → String
  | .outgoing => "Outgoing"
  | .incoming => "Incoming"
  | .both => "Both"

def Direction.toJson (direction : Direction) : Json := .text direction.name

def Direction.ofJson? : Json → Option Direction :=
  Json.choice? [("Outgoing", .outgoing), ("Incoming", .incoming), ("Both", .both)]

namespace UpperBound

def toJson : UpperBound → Json
  | .unlimited => .text "Unlimited"
  | .limited count => .object [("Limited", .ofNat count)]

def ofJson? (json : Json) : Option UpperBound := do
  match ← json.variant? with
  | ("Unlimited", payload) => (Json.unit? payload).map fun _ => .unlimited
  | ("Limited", some payload) => payload.word32?.map .limited
  | _ => none

end UpperBound

namespace Repetition

def fields (range : Repetition) : List (String × Json) := [("min", .ofNat range.least), ("max", range.most.toJson)]

def toJson (range : Repetition) : Json := .object range.fields

def ofFields? : List (Option Json) → Option Repetition
  | [some least, some most] => return ⟨← least.word32?, ← UpperBound.ofJson? most⟩
  | _ => none

def ofJson? (json : Json) : Option Repetition := (json.record? ["min", "max"]).bind ofFields?

end Repetition

namespace PatternLength

def toJson : PatternLength → Json
  | .simple => .text "Simple"
  | .path range => .object [("Var", range.toJson)]

def ofJson? (json : Json) : Option PatternLength := do
  match ← json.variant? with
  | ("Simple", payload) => (Json.unit? payload).map fun _ => .simple
  | ("Var", some payload) => ((payload.named? ["min", "max"]).bind Repetition.ofFields?).map .path
  | _ => none

end PatternLength

namespace PatternRelationship

def toJson (relationship : PatternRelationship) : Json :=
  .object [("variable", .text relationship.name), ("nodes", .ofTexts [relationship.left, relationship.right]),
    ("direction", relationship.direction.toJson), ("types", .ofTexts relationship.types),
    ("length", relationship.length.toJson)]

def ofJson? (json : Json) : Option PatternRelationship := do
  match ← json.record? ["variable", "nodes", "direction", "types", "length"] with
  | [some name, some nodes, some direction, some types, some length] =>
    match ← nodes.texts? with
    | [left, right] =>
      return ⟨← name.text?, left, right, ← Direction.ofJson? direction, ← types.texts?, ← PatternLength.ofJson? length⟩
    | _ => none
  | _ => none

end PatternRelationship

def Boundary.toJson (boundary : Boundary) : Json := .object [("outer", .text boundary.outer), ("inner", .text boundary.inner)]

def Boundary.ofJson? (json : Json) : Option Boundary := do
  match ← json.record? ["outer", "inner"] with
  | [some outer, some inner] => return ⟨← outer.text?, ← inner.text?⟩
  | _ => none

def Grouping.toJson (grouping : Grouping) : Json :=
  .object [("singleton", .text grouping.singleton), ("group", .text grouping.group)]

def Grouping.ofJson? (json : Json) : Option Grouping := do
  match ← json.record? ["singleton", "group"] with
  | [some singleton, some group] => return ⟨← singleton.text?, ← group.text?⟩
  | _ => none

def GroupKind.name : GroupKind → String
  | .node => "Node"
  | .relationship => "Relationship"

def GroupKind.toJson (kind : GroupKind) : Json := .text kind.name

def GroupKind.ofJson? : Json → Option GroupKind := Json.choice? [("Node", .node), ("Relationship", .relationship)]

namespace QuantifiedPattern

def toJson (pattern : QuantifiedPattern) : Json :=
  .object [("left_binding", pattern.left.toJson), ("right_binding", pattern.right.toJson),
    ("relationships", .array (pattern.relationships.map PatternRelationship.toJson)),
    ("repetition", pattern.repetition.toJson),
    ("node_variable_groupings", .array (pattern.nodeGroupings.map Grouping.toJson)),
    ("relationship_variable_groupings", .array (pattern.relationshipGroupings.map Grouping.toJson)),
    ("selections", Expression.listToJson pattern.selections)]

/-- Reads a pattern as it stands, whether or not a draft of it would build. -/
def ofJson? (json : Json) : Option QuantifiedPattern := do
  match ← json.record? ["left_binding", "right_binding", "relationships", "repetition", "node_variable_groupings",
    "relationship_variable_groupings", "selections"] with
  | [some left, some right, some relationships, some repetition, some nodeGroupings, some relationshipGroupings,
      some selections] =>
    return {
      left := ← Boundary.ofJson? left
      right := ← Boundary.ofJson? right
      relationships := ← relationships.listOf? PatternRelationship.ofJson?
      repetition := ← Repetition.ofJson? repetition
      nodeGroupings := ← nodeGroupings.listOf? Grouping.ofJson?
      relationshipGroupings := ← relationshipGroupings.listOf? Grouping.ofJson?
      selections := ← Expression.listOfJson? selections }
  | _ => none

end QuantifiedPattern

end MatchPlanner
