import MatchPlanner.Plan.Serialization

/-! Operators before they stand in a plan. A sketch gives the inputs of its operator by name, and a reference points at
an operator of a plan that is not yet known by its id. -/

namespace MatchPlanner

inductive OperatorSketch where
  | leaf (operator : Leaf)
  | step (operator : Step) (input : String)
  | trail (parameters : TrailParameters) (input inner : String)
  | join (operator : Join) (left right : String)

/-- The operator with its inputs found; only its id is missing. -/
def OperatorSketch.resolve? (lookup : String → Option Plan) : OperatorSketch → Option (PlanId → Plan)
  | .leaf operator => some (.leaf · operator)
  | .step operator input => (lookup input).map fun input => (.step · operator input)
  | .trail parameters input inner => do
    let input ← lookup input
    let inner ← lookup inner
    return (.trail · parameters input inner)
  | .join operator left right => do
    let left ← lookup left
    let right ← lookup right
    return (.join · operator left right)

namespace Leaf

/-- Reads the payload of an operator of the kind; there is none when the kind is no leaf. -/
def ofJson? (kind : OperatorKind) (payload : Json) : Option Leaf := do
  match kind with
  | .argument =>
    match ← payload.only? ["variables"] with
    | [some names] => return .argument (← names.texts?)
    | _ => none
  | .allNodesScan =>
    match ← payload.only? ["variable"] with
    | [some node] => return .allNodesScan (← node.text?)
    | _ => none
  | .labelScan =>
    match ← payload.only? ["variable", "label"] with
    | [some node, some label] => return .labelScan (← node.text?) (← label.text?)
    | _ => none
  | .indexSeek =>
    match ← payload.only? ["variable", "label", "property", "value", "unique"] with
    | [some node, some label, some property, some value, some unique] =>
      return .indexSeek (← node.text?) (← label.text?) (← property.text?) (← Expression.ofJson? value) (← unique.boolean?)
    | _ => none
  | _ => none

end Leaf

namespace Step

private def listed? {α : Type} (read : Json → Option α) : Option Json → Option (List α) :=
  Json.defaulted? (Json.listOf? read) []

private def hop? (source target direction : Json) (types : Option Json) : Option Hop :=
  return ⟨← source.text?, ← target.text?, ← Direction.ofJson? direction, ← listed? Json.text? types⟩

private def visited? : Option Json → Option (List VariablePredicate) := listed? VariablePredicate.ofJson?

/-- Reads the payload of an operator of the kind, and the name of its input. -/
def ofJson? (kind : OperatorKind) (payload : Json) : Option (Step × Json) := do
  match kind with
  | .expand =>
    match ← payload.only? ["input", "from", "relationship", "to", "direction", "types", "mode"] with
    | [some input, some source, some relationship, some target, some direction, types, some mode] =>
      return (.expand (← hop? source target direction types) (← relationship.text?) (← ExpansionMode.ofJson? mode), input)
    | _ => none
  | .varLengthExpand =>
    match ← payload.only? ["input", "from", "relationship", "to", "direction", "types", "min", "max", "node_predicates",
      "relationship_predicates", "mode"] with
    | [some input, some source, some relationship, some target, some direction, types, some least, some most,
        nodePredicates, relationshipPredicates, some mode] =>
      return (.varLengthExpand (← hop? source target direction types) (← relationship.text?)
        ⟨← least.word32?, ← UpperBound.ofJson? most⟩ (← visited? nodePredicates) (← visited? relationshipPredicates)
        (← ExpansionMode.ofJson? mode), input)
    | _ => none
  | .pruningVarExpand =>
    match ← payload.only? ["input", "from", "to", "direction", "types", "min", "max", "node_predicates",
      "relationship_predicates"] with
    | [some input, some source, some target, some direction, types, some least, some most, nodePredicates,
        relationshipPredicates] =>
      return (.pruningVarExpand (← hop? source target direction types) (← least.word32?) (← most.word32?)
        (← visited? nodePredicates) (← visited? relationshipPredicates), input)
    | _ => none
  | .bfsPruningVarExpand =>
    match ← payload.only? ["input", "from", "to", "direction", "types", "include_start", "max", "node_predicates",
      "relationship_predicates"] with
    | [some input, some source, some target, some direction, types, some includeStart, some most, nodePredicates,
        relationshipPredicates] =>
      return (.bfsPruningVarExpand (← hop? source target direction types) (← includeStart.boolean?)
        (← UpperBound.ofJson? most) (← visited? nodePredicates) (← visited? relationshipPredicates), input)
    | _ => none
  | .filter =>
    match ← payload.only? ["input", "predicates"] with
    | [some input, some predicates] => return (.filter (← Expression.listOfJson? predicates), input)
    | _ => none
  | .eager =>
    match ← payload.only? ["input", "reasons"] with
    | [some input, some reasons] => return (.eager (← reasons.listOf? EagerReason.ofJson?), input)
    | _ => none
  | _ => none

end Step

namespace OperatorSketch

def ofPayload? (kind : OperatorKind) (payload : Json) : Option OperatorSketch := do
  match kind with
  | .trail =>
    match ← payload.only? ["input", "inner", "parameters"] with
    | [some input, some inner, some parameters] =>
      return .trail (← TrailParameters.ofJson? parameters) (← input.text?) (← inner.text?)
    | _ => none
  | .cartesianProduct =>
    match ← payload.only? ["left", "right"] with
    | [some left, some right] => return .join .cartesianProduct (← left.text?) (← right.text?)
    | _ => none
  | .nodeHashJoin =>
    match ← payload.only? ["left", "right", "nodes"] with
    | [some left, some right, some nodes] => return .join (.nodeHashJoin (← nodes.texts?)) (← left.text?) (← right.text?)
    | _ => none
  | kind =>
    match Leaf.ofJson? kind payload with
    | some operator => return .leaf operator
    | none =>
      let (operator, input) ← Step.ofJson? kind payload
      return .step operator (← input.text?)

def ofJson? (json : Json) : Option OperatorSketch := do
  let (name, payload) ← json.variant?
  let kind ← OperatorKind.all.find? fun kind => kind.name == name
  ofPayload? kind (← payload)

end OperatorSketch

/-- An operator of a plan, pointed at by id, by its place from the root, or by its kind. -/
inductive OperatorReference where
  | identified (id : PlanId)
  /-- Counts the operators from the root, each before those below it, and starts again after the last. -/
  | placed (position : Nat)
  | ofKind (kind : OperatorKind) (position : Nat)

namespace OperatorReference

/-- The last id there is, which no planning run gets to. -/
def nowhere : PlanId := ⟨4294967295⟩

def resolve (plan : Plan) : OperatorReference → PlanId
  | .identified id => id
  | .placed position => (plan.ids[position % plan.ids.length]?).getD nowhere
  | .ofKind kind position =>
    (((plan.subtrees.filter fun subtree => subtree.kind == kind)[position]?).map Plan.id).getD nowhere

/-- A place counts before a kind, and a kind before an id: a form that is given but does not fit is not passed over. -/
def ofJson? (json : Json) : Option OperatorReference :=
  match json.field? "pre", json.field? "kind" with
  | some position, _ => position.word64?.map .placed
  | none, some kind =>
    return .ofKind (← OperatorKind.ofJson? kind) (← Json.defaulted? Json.word64? 0 (json.field? "nth"))
  | none, none => (PlanId.ofJson? json).map .identified

end OperatorReference

/-- A conflict whose reader is pointed at. -/
structure ConflictReport where
  reader : OperatorReference
  reason : EagerReason

namespace ConflictReport

def request (report : ConflictReport) (plan : Plan) : EagerRequest := ⟨report.reader.resolve plan, report.reason⟩

def ofJson? (json : Json) : Option ConflictReport := do
  match ← json.named? ["reader", "writer", "description"] with
  | [some reader, some writer, some description] =>
    return ⟨← OperatorReference.ofJson? reader, ⟨← description.text?, ← PlanId.ofJson? writer⟩⟩
  | _ => none

end ConflictReport

end MatchPlanner
