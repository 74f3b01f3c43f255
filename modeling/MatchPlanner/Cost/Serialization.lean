import MatchPlanner.Cost.Model
import MatchPlanner.Json.Basic

/-! Estimates, statistics and cost models in binary64 as JSON values. -/

namespace MatchPlanner

def Estimate.toJson (estimate : Estimate Float) : Json :=
  .object [("cost", .ofFloat estimate.cost), ("rows", .ofFloat estimate.rows)]

def Estimate.ofJson? (json : Json) : Option (Estimate Float) := do
  match ← json.record? ["cost", "rows"] with
  | [some cost, some rows] => return ⟨← cost.float?, ← rows.float?⟩
  | _ => none

def IndexInfo.toJson (index : IndexInfo) : Json :=
  .object [("label", .text index.label), ("property", .text index.property), ("unique", .boolean index.unique)]

def IndexInfo.ofJson? (json : Json) : Option IndexInfo := do
  match ← json.record? ["label", "property", "unique"] with
  | [some label, some property, some unique] => return ⟨← label.text?, ← property.text?, ← unique.boolean?⟩
  | _ => none

namespace Statistics

def fieldNames : List String :=
  ["total_nodes", "total_relationships", "node_counts", "relationship_counts", "property_selectivity", "indexes"]

private def countsJson (counts : List (String × Nat)) : Json := .object (counts.map fun (name, count) => (name, .ofNat count))

def toJson (statistics : Statistics Float) : Json :=
  .object (fieldNames.zip
    [.ofNat statistics.totalNodes, .ofNat statistics.totalRelationships, countsJson statistics.nodeCounts,
      countsJson statistics.relationshipCounts,
      .object (statistics.propertySelectivity.map fun (name, value) => (name, .ofFloat value)),
      .array (statistics.indexes.map IndexInfo.toJson)])

def ofJson? (json : Json) : Option (Statistics Float) := do
  match ← json.record? fieldNames with
  | [some nodes, some relationships, some nodeCounts, some relationshipCounts, some selectivity, some indexes] =>
    return {
      totalNodes := ← nodes.word64?
      totalRelationships := ← relationships.word64?
      nodeCounts := ← nodeCounts.mapOf? Json.word64?
      relationshipCounts := ← relationshipCounts.mapOf? Json.word64?
      propertySelectivity := ← selectivity.mapOf? Json.float?
      indexes := ← indexes.listOf? IndexInfo.ofJson? }
  | _ => none

private def indexEntry? (json : Json) : Option IndexInfo :=
  match json with
  | .array [_, _, _] => IndexInfo.ofJson? json
  | _ => none

/-- Reads statistics in their short form, in which only the two totals have to be given. -/
def ofShortForm? (json : Json) : Option (Statistics Float) := do
  match ← json.strict? 2 ["nodes", "rels", "labels", "types", "selectivity", "indexes"] with
  | [some nodes, some relationships, labels, types, selectivity, indexes] =>
    return {
      totalNodes := ← nodes.word64?
      totalRelationships := ← relationships.word64?
      nodeCounts := ← Json.defaulted? (Json.mapOf? Json.word64?) [] labels
      relationshipCounts := ← Json.defaulted? (Json.mapOf? Json.word64?) [] types
      propertySelectivity := ← Json.defaulted? (Json.mapOf? Json.float?) [] selectivity
      indexes := ← Json.defaulted? (Json.listOf? indexEntry?) [] indexes }
  | _ => none

end Statistics

namespace CostModel

def fieldNames : List String :=
  ["cpu_cost_per_row", "expand_cost_per_row", "hash_cost_per_row", "index_seek_cost", "unbounded_hop_horizon",
    "equality_selectivity", "uniqueness_selectivity", "default_selectivity"]

def toJson (model : CostModel Float) : Json :=
  .object (fieldNames.zip
    [.ofFloat model.cpuPerRow, .ofFloat model.expandPerRow, .ofFloat model.hashPerRow, .ofFloat model.indexSeek,
      .ofNat model.hopHorizon, .ofFloat model.equalitySelectivity, .ofFloat model.uniquenessSelectivity,
      .ofFloat model.defaultSelectivity])

private def ofFields? : List (Option Json) → Option (CostModel Float)
  | [some cpu, some expand, some hash, some seek, some horizon, some equality, some uniqueness, some standard] =>
    return ⟨← cpu.float?, ← expand.float?, ← hash.float?, ← seek.float?, ← horizon.word32?, ← equality.float?,
      ← uniqueness.float?, ← standard.float?⟩
  | _ => none

def ofJson? (json : Json) : Option (CostModel Float) := (json.record? fieldNames).bind ofFields?

/-- The standard model with some of its parameters replaced. -/
def standardWith? (overrides : Json) : Option (CostModel Float) := do
  let given ← overrides.named? fieldNames
  let standard ← (standard : CostModel Float).toJson.named? fieldNames
  ofFields? (List.zipWith (fun given standard => given <|> standard) given standard)

end CostModel

end MatchPlanner
