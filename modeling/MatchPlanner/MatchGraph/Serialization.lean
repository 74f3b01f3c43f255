import MatchPlanner.MatchGraph.Uniqueness
import MatchPlanner.Pattern.Serialization

/-! Match graphs and uniqueness obligations as JSON values. -/

namespace MatchPlanner

def NameSet.toJson (set : NameSet) : Json := .ofTexts set.names

def NameSet.ofJson? (json : Json) : Option NameSet := json.texts?.map NameSet.ofList

def PatternNode.toJson (node : PatternNode) : Json := .object [("name", .text node.name), ("labels", .ofTexts node.labels)]

def PatternNode.ofJson? (json : Json) : Option PatternNode := do
  match ← json.record? ["name", "labels"] with
  | [some name, some labels] => return ⟨← name.text?, ← labels.texts?⟩
  | _ => none

namespace Connection

def toJson : Connection → Json
  | .relationship pattern => .object [("Relationship", pattern.toJson)]
  | .quantified pattern => .object [("Quantified", pattern.toJson)]

def ofJson? (json : Json) : Option Connection := do
  match ← json.variant? with
  | ("Relationship", some payload) => (PatternRelationship.ofJson? payload).map .relationship
  | ("Quantified", some payload) => (QuantifiedPattern.ofJson? payload).map .quantified
  | _ => none

end Connection

namespace MatchGraph

def toJson (graph : MatchGraph) : Json :=
  .object [("nodes", .array (graph.nodes.map PatternNode.toJson)),
    ("connections", .array (graph.connections.map Connection.toJson)),
    ("selections", Expression.listToJson graph.selections), ("argument_ids", graph.arguments.toJson),
    ("required_variables", graph.required.toJson), ("distinct_endpoints_only", .boolean graph.distinctEndpoints)]

def ofJson? (json : Json) : Option MatchGraph := do
  match ← json.record? ["nodes", "connections", "selections", "argument_ids", "required_variables",
    "distinct_endpoints_only"] with
  | [some nodes, some connections, some selections, some arguments, some required, some distinct] =>
    return {
      nodes := ← nodes.listOf? PatternNode.ofJson?
      connections := ← connections.listOf? Connection.ofJson?
      selections := ← Expression.listOfJson? selections
      arguments := ← NameSet.ofJson? arguments
      required := ← NameSet.ofJson? required
      distinctEndpoints := ← distinct.boolean? }
  | _ => none

end MatchGraph

def RelationshipForm.toJson : RelationshipForm → Json
  | .single => .text "Single"
  | .list => .text "List"

def RelationshipForm.ofJson? : Json → Option RelationshipForm := Json.choice? [("Single", .single), ("List", .list)]

def RelationshipProducer.toJson (producer : RelationshipProducer) : Json :=
  .object [("connection", .ofNat producer.connection), ("variable", .text producer.name), ("form", producer.form.toJson),
    ("types", .ofOption NameSet.toJson producer.types)]

def RelationshipProducer.ofJson? (json : Json) : Option RelationshipProducer := do
  match ← json.record? ["connection", "variable", "form", "types"] with
  | [some connection, some name, some form, types] =>
    return ⟨← connection.word64?, ← name.text?, ← RelationshipForm.ofJson? form, ← Json.optional? NameSet.ofJson? types⟩
  | _ => none

def UniquenessObligation.toJson (obligation : UniquenessObligation) : Json :=
  .object [("first", obligation.first.toJson), ("second", obligation.second.toJson),
    ("predicate", obligation.predicate.toJson)]

def UniquenessObligation.ofJson? (json : Json) : Option UniquenessObligation := do
  match ← json.record? ["first", "second", "predicate"] with
  | [some first, some second, some predicate] =>
    return ⟨← RelationshipProducer.ofJson? first, ← RelationshipProducer.ofJson? second, ← Expression.ofJson? predicate⟩
  | _ => none

end MatchPlanner
