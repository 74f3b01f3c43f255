import MatchPlanner.Barrier
import MatchPlanner.MatchGraph.Serialization
import MatchPlanner.Plan.Printer

/-! Plans as JSON values. -/

namespace MatchPlanner

def PlanId.toJson (id : PlanId) : Json := .ofNat id.number

def PlanId.ofJson? (json : Json) : Option PlanId := json.word32?.map PlanId.mk

def ExpansionMode.toJson (mode : ExpansionMode) : Json := .text mode.name

def ExpansionMode.ofJson? : Json → Option ExpansionMode := Json.choice? [("All", .all), ("Into", .into)]

def VariablePredicate.toJson (predicate : VariablePredicate) : Json :=
  .object [("variable", .text predicate.element), ("predicate", predicate.predicate.toJson)]

def VariablePredicate.ofJson? (json : Json) : Option VariablePredicate := do
  match ← json.record? ["variable", "predicate"] with
  | [some element, some predicate] => return ⟨← element.text?, ← Expression.ofJson? predicate⟩
  | _ => none

def EagerReason.toJson (reason : EagerReason) : Json :=
  .object [("description", .text reason.description), ("writer", reason.writer.toJson)]

def EagerReason.ofJson? (json : Json) : Option EagerReason := do
  match ← json.record? ["description", "writer"] with
  | [some description, some writer] => return ⟨← description.text?, ← PlanId.ofJson? writer⟩
  | _ => none

def EagerRequest.toJson (request : EagerRequest) : Json :=
  .object [("reader", request.reader.toJson), ("reason", request.reason.toJson)]

def EagerRequest.ofJson? (json : Json) : Option EagerRequest := do
  match ← json.record? ["reader", "reason"] with
  | [some reader, some reason] => return ⟨← PlanId.ofJson? reader, ← EagerReason.ofJson? reason⟩
  | _ => none

def OperatorKind.all : List OperatorKind :=
  [.argument, .allNodesScan, .labelScan, .indexSeek, .expand, .varLengthExpand, .pruningVarExpand, .bfsPruningVarExpand,
    .trail, .filter, .cartesianProduct, .nodeHashJoin, .eager]

def OperatorKind.toJson (kind : OperatorKind) : Json := .text kind.name

def OperatorKind.ofJson? : Json → Option OperatorKind :=
  Json.choice? (OperatorKind.all.map fun kind => (kind.name, kind))

def TraversalDirection.toJson (direction : TraversalDirection) : Json := .text direction.name

def TraversalDirection.ofJson? : Json → Option TraversalDirection :=
  Json.choice? [("Forward", .forward), ("Reversed", .reversed)]

namespace TrailParameters

def fieldNames : List String :=
  ["min", "max", "start", "end", "inner_start", "inner_end", "group_nodes", "group_relationships", "inner_relationships",
    "previously_bound_relationships", "previously_bound_relationship_groups", "reverse_group_variable_projections"]

def toJson (parameters : TrailParameters) : Json :=
  .object (fieldNames.zip
    [.ofNat parameters.range.least, parameters.range.most.toJson, .text parameters.start, .text parameters.finish,
      .text parameters.innerStart, .text parameters.innerEnd, .array (parameters.groupNodes.map Grouping.toJson),
      .array (parameters.groupRelationships.map Grouping.toJson), .ofTexts parameters.innerRelationships,
      .ofTexts parameters.boundRelationships, .ofTexts parameters.boundRelationshipGroups,
      .boolean parameters.reversedGroups])

def ofJson? (json : Json) : Option TrailParameters := do
  match ← json.record? fieldNames with
  | [some least, some most, some start, some finish, some innerStart, some innerEnd, some groupNodes,
      some groupRelationships, some innerRelationships, some boundRelationships, some boundGroups, some reversed] =>
    return {
      range := ⟨← least.word32?, ← UpperBound.ofJson? most⟩
      start := ← start.text?
      finish := ← finish.text?
      innerStart := ← innerStart.text?
      innerEnd := ← innerEnd.text?
      groupNodes := ← groupNodes.listOf? Grouping.ofJson?
      groupRelationships := ← groupRelationships.listOf? Grouping.ofJson?
      innerRelationships := ← innerRelationships.texts?
      boundRelationships := ← boundRelationships.texts?
      boundRelationshipGroups := ← boundGroups.texts?
      reversedGroups := ← reversed.boolean? }
  | _ => none

end TrailParameters

def Leaf.fields : Leaf → List (String × Json)
  | .argument names => [("variables", .ofTexts names)]
  | .allNodesScan node => [("variable", .text node)]
  | .labelScan node label => [("variable", .text node), ("label", .text label)]
  | .indexSeek node label property value unique =>
    [("variable", .text node), ("label", .text label), ("property", .text property), ("value", value.toJson),
      ("unique", .boolean unique)]

def variablePredicateFields (nodePredicates relationshipPredicates : List VariablePredicate) : List (String × Json) :=
  [("node_predicates", .array (nodePredicates.map VariablePredicate.toJson)),
    ("relationship_predicates", .array (relationshipPredicates.map VariablePredicate.toJson))]

/-- The fields that follow the input of a step. -/
def Step.fields : Step → List (String × Json)
  | .expand hop relationship mode =>
    [("from", .text hop.source), ("relationship", .text relationship), ("to", .text hop.target),
      ("direction", hop.direction.toJson), ("types", .ofTexts hop.types), ("mode", mode.toJson)]
  | .varLengthExpand hop relationship range nodePredicates relationshipPredicates mode =>
    [("from", .text hop.source), ("relationship", .text relationship), ("to", .text hop.target),
      ("direction", hop.direction.toJson), ("types", .ofTexts hop.types)] ++ range.fields ++
      variablePredicateFields nodePredicates relationshipPredicates ++ [("mode", mode.toJson)]
  | .pruningVarExpand hop least most nodePredicates relationshipPredicates =>
    [("from", .text hop.source), ("to", .text hop.target), ("direction", hop.direction.toJson), ("types", .ofTexts hop.types),
      ("min", .ofNat least), ("max", .ofNat most)] ++ variablePredicateFields nodePredicates relationshipPredicates
  | .bfsPruningVarExpand hop includeStart most nodePredicates relationshipPredicates =>
    [("from", .text hop.source), ("to", .text hop.target), ("direction", hop.direction.toJson), ("types", .ofTexts hop.types),
      ("include_start", .boolean includeStart), ("max", most.toJson)] ++
      variablePredicateFields nodePredicates relationshipPredicates
  | .filter predicates => [("predicates", Expression.listToJson predicates)]
  | .eager reasons => [("reasons", .array (reasons.map EagerReason.toJson))]

/-- The fields that follow the inputs of a join. -/
def Join.fields : Join → List (String × Json)
  | .cartesianProduct => []
  | .nodeHashJoin nodes => [("nodes", .ofTexts nodes)]

private def operatorJson (id : PlanId) (kind : OperatorKind) (fields : List (String × Json)) : Json :=
  .object [("id", id.toJson), ("operator", .object [(kind.name, .object fields)])]

namespace Plan

def toJson : Plan → Json
  | .leaf id operator => operatorJson id operator.kind operator.fields
  | .step id operator input => operatorJson id operator.kind (("input", toJson input) :: operator.fields)
  | .trail id parameters input inner =>
    operatorJson id .trail [("input", toJson input), ("inner", toJson inner), ("parameters", parameters.toJson)]
  | .join id operator left right =>
    operatorJson id operator.kind (("left", toJson left) :: ("right", toJson right) :: operator.fields)

end Plan

end MatchPlanner
