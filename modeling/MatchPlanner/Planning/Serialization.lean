import MatchPlanner.Plan.Serialization
import MatchPlanner.Planning.Trace

/-! Orders and traces as JSON values. -/

namespace MatchPlanner

def ProvidedOrder.toJson (order : ProvidedOrder) : Json := .object [("columns", .ofTexts order.columns)]

def ProvidedOrder.ofJson? (json : Json) : Option ProvidedOrder := do
  match ← json.record? ["columns"] with
  | [some columns] => return ⟨← columns.texts?⟩
  | _ => none

def PlanningPhase.toJson (phase : PlanningPhase) : Json := .text phase.name

def PlanningPhase.ofJson? : Json → Option PlanningPhase := Json.choice? (PlanningPhase.all.map fun phase => (phase.name, phase))

def Duration.toJson (duration : Duration) : Json :=
  .object [("secs", .ofNat duration.seconds), ("nanos", .ofNat duration.nanoseconds)]

/-- A duration has no other fields than its two parts. -/
def Duration.ofJson? (json : Json) : Option Duration := do
  if (json.fields?.getD []).all fun field => field.1 == "secs" || field.1 == "nanos" then
    match ← json.record? ["secs", "nanos"] with
    | [some seconds, some nanoseconds] => Duration.ofParts? (← seconds.word64?) (← nanoseconds.word32?)
    | _ => none
  else none

namespace TraceMetadata

def toJson (metadata : TraceMetadata Float) : Json :=
  .object [("chosen_operator", .ofOption OperatorKind.toJson metadata.operator),
    ("variables_in_scope", .ofTexts metadata.scope), ("estimated_rows", .ofOption Json.ofFloat metadata.rows),
    ("estimated_cost", .ofOption Json.ofFloat metadata.cost)]

def ofJson? (json : Json) : Option (TraceMetadata Float) := do
  match ← json.record? ["chosen_operator", "variables_in_scope", "estimated_rows", "estimated_cost"] with
  | [operator, some scope, rows, cost] =>
    return ⟨← Json.optional? OperatorKind.ofJson? operator, ← scope.texts?, ← Json.optional? Json.float? rows,
      ← Json.optional? Json.float? cost⟩
  | _ => none

end TraceMetadata

def TraceStep.toJson (step : TraceStep Float) : Json :=
  .object [("phase", step.phase.toJson), ("description", .text step.description), ("duration", step.duration.toJson),
    ("metadata", step.metadata.toJson)]

def TraceStep.ofJson? (json : Json) : Option (TraceStep Float) := do
  match ← json.record? ["phase", "description", "duration", "metadata"] with
  | [some phase, some description, some duration, some metadata] =>
    return ⟨← PlanningPhase.ofJson? phase, ← description.text?, ← Duration.ofJson? duration, ← TraceMetadata.ofJson? metadata⟩
  | _ => none

def PlanTrace.toJson (trace : PlanTrace Float) : Json :=
  .object [("steps", .array (trace.steps.map TraceStep.toJson)), ("total_duration", trace.duration.toJson)]

def PlanTrace.ofJson? (json : Json) : Option (PlanTrace Float) := do
  match ← json.record? ["steps", "total_duration"] with
  | [some steps, some duration] => return ⟨← steps.listOf? TraceStep.ofJson?, ← Duration.ofJson? duration⟩
  | _ => none

end MatchPlanner
