import MatchPlanner.Error
import MatchPlanner.Json.Parser

/-! What a planner may do: the operators it may choose and how often it looks at the cancellation request. -/

namespace MatchPlanner

structure PlannerConfig where
  /-- The runtime implements the breadth-first pruning expansion. -/
  bfsPruningSupported : Bool
  pruningVarExpand : Bool
  collapsesToVarExpand : Bool
  nodeHashJoin : Bool
  /-- The cancellation request is looked at once in so many growth steps. -/
  checkInterval : Nat
deriving DecidableEq

namespace PlannerConfig

def standard : PlannerConfig := ⟨true, true, true, true, 1⟩

def validate (config : PlannerConfig) : Except PlanningError Unit :=
  if config.checkInterval = 0 then .error (.invalidConfig .zeroCheckInterval) else .ok ()

def fieldNames : List String :=
  ["bfs_pruning_supported", "enable_pruning_var_expand", "enable_var_expand_rewrite", "enable_node_hash_join",
    "cancellation_check_interval"]

def toJson (config : PlannerConfig) : Json :=
  .object (fieldNames.zip
    [.boolean config.bfsPruningSupported, .boolean config.pruningVarExpand, .boolean config.collapsesToVarExpand,
      .boolean config.nodeHashJoin, .ofNat config.checkInterval])

/-- A field that is missing keeps its standard value. -/
def ofJson? (json : Json) : Option PlannerConfig := do
  match ← json.loose? fieldNames with
  | [bfsPruning, pruning, rewrite, hashJoin, interval] =>
    let flag := Json.defaulted? Json.boolean? true
    return ⟨← flag bfsPruning, ← flag pruning, ← flag rewrite, ← flag hashJoin, ← Json.defaulted? Json.word64? 1 interval⟩
  | _ => none

/-- A document that names one of the fields twice is refused. -/
def hasRepeatedField (json : Json) : Bool :=
  fieldNames.any fun name => 1 < ((json.fields?.getD []).filter fun field => field.1 == name).length

def ofText (text : String) : Except PlanningError PlannerConfig := do
  match Json.outline? text with
  | none => throw (.invalidConfig .unreadable)
  | some json =>
    match if hasRepeatedField json then none else ofJson? json with
    | none => throw (.invalidConfig .unreadable)
    | some config =>
      config.validate
      return config

end PlannerConfig

end MatchPlanner
