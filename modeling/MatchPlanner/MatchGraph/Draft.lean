import MatchPlanner.MatchGraph.Serialization
import MatchPlanner.Pattern.Draft

/-! Match graphs in a short form, in which quantified patterns may still be drafts. A draft is built before its graph is;
fields that may be left out stand for nothing, and a record with a field that has no meaning is refused. -/

namespace MatchPlanner

/-- The length may be `null`, but an array has to give it. -/
def PatternRelationship.ofShortForm? (json : Json) : Option PatternRelationship := do
  match ← json.strict? 6 ["variable", "left", "right", "direction", "types", "length"] with
  | [some name, some left, some right, some direction, types, length] =>
    return {
      name := ← name.text?
      left := ← left.text?
      right := ← right.text?
      direction := ← Direction.ofJson? direction
      types := ← Json.defaulted? Json.texts? [] types
      length := (← Json.optional? PatternLength.ofJson? length).getD .simple }
  | _ => none

namespace QuantifiedDraft

private def boundary? (json : Json) : Option Boundary :=
  (json.pair? Json.text? Json.text?).map fun (outer, inner) => ⟨outer, inner⟩

private def groupings? : Option Json → Option (List Grouping) :=
  Json.defaulted?
    (Json.listOf? fun json => (json.pair? Json.text? Json.text?).map fun (singleton, group) => ⟨singleton, group⟩) []

/-- The repetition may be `null`, but an array has to give it. -/
def ofShortForm? (json : Json) : Option QuantifiedDraft := do
  match ← json.strict? 4 ["left", "right", "relationships", "repetition", "node_groupings",
    "relationship_groupings", "group_by_name", "selections"] with
  | [some left, some right, some relationships, repetition, nodeGroupings, relationshipGroupings, groupByName,
      selections] =>
    return {
      left := ← boundary? left
      right := ← boundary? right
      relationships := ← relationships.listOf? PatternRelationship.ofShortForm?
      repetition := (← Json.optional? Repetition.ofJson? repetition).getD .oneOrMore
      nodeGroupings := ← groupings? nodeGroupings
      relationshipGroupings := ← groupings? relationshipGroupings
      groupByName := ← Json.defaulted? Json.boolean? false groupByName
      selections := ← Json.defaulted? Expression.listOfJson? [] selections }
  | _ => none

end QuantifiedDraft

/-- A pattern that is taken as it stands, or one that has to be built first. -/
inductive PatternDraft where
  | finished (pattern : QuantifiedPattern)
  | unfinished (draft : QuantifiedDraft)

namespace PatternDraft

/-- A finished pattern stands alone: what is given beside it is passed over. -/
def ofShortForm? (json : Json) : Option PatternDraft :=
  match json.field? "raw" with
  | some pattern => (QuantifiedPattern.ofJson? pattern).map .finished
  | none => (QuantifiedDraft.ofShortForm? json).map .unfinished

def build : PatternDraft → Except PlanningError QuantifiedPattern
  | .finished pattern => .ok pattern
  | .unfinished draft => draft.build

end PatternDraft

/-- Why a draft of a graph is refused: it has a connection that says nothing, or a pattern that cannot be built. -/
inductive DraftFault where
  | unreadable
  | unbuildable (error : PlanningError)

inductive ConnectionDraft where
  | relationship (pattern : PatternRelationship)
  | quantified (draft : PatternDraft)
  | unreadable

namespace ConnectionDraft

/-- A connection is given by exactly one of its two forms. -/
def ofShortForm (json : Json) : ConnectionDraft :=
  let connection : Option ConnectionDraft := match json.field? "rel", json.field? "qpp" with
    | some edge, none => (PatternRelationship.ofShortForm? edge).map .relationship
    | none, some pattern => (PatternDraft.ofShortForm? pattern).map .quantified
    | _, _ => none
  connection.getD .unreadable

def build : ConnectionDraft → Except DraftFault Connection
  | .relationship pattern => .ok (.relationship pattern)
  | .quantified draft => (draft.build.map .quantified).mapError .unbuildable
  | .unreadable => .error .unreadable

end ConnectionDraft

structure GraphDraft where
  nodes : List PatternNode
  connections : List ConnectionDraft
  selections : List Expression
  arguments : NameSet
  required : NameSet
  distinctEndpoints : Bool

namespace GraphDraft

private def node? (json : Json) : Option PatternNode :=
  (json.pair? Json.text? Json.texts?).map fun (name, labels) => ⟨name, labels⟩

def ofShortForm? (json : Json) : Option GraphDraft := do
  match ← json.strict? 0 ["nodes", "connections", "selections", "arguments", "required", "distinct"] with
  | [nodes, connections, selections, arguments, required, distinct] =>
    return {
      nodes := ← Json.defaulted? (Json.listOf? node?) [] nodes
      connections := (← Json.defaulted? Json.items? [] connections).map ConnectionDraft.ofShortForm
      selections := ← Json.defaulted? Expression.listOfJson? [] selections
      arguments := ← Json.defaulted? NameSet.ofJson? ∅ arguments
      required := ← Json.defaulted? NameSet.ofJson? ∅ required
      distinctEndpoints := ← Json.defaulted? Json.boolean? false distinct }
  | _ => none

/-- Builds the connections in order, so the first that is refused decides. The graph itself is not validated. -/
def build (draft : GraphDraft) : Except DraftFault MatchGraph := do
  let connections ← draft.connections.mapM ConnectionDraft.build
  return ⟨draft.nodes, connections, draft.selections, draft.arguments, draft.required, draft.distinctEndpoints⟩

end GraphDraft

end MatchPlanner
