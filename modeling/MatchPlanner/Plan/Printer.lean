import MatchPlanner.Plan.Basic

/-! The line that stands for an operator in an explained plan. -/

namespace MatchPlanner

def OperatorKind.name : OperatorKind → String
  | .argument => "Argument"
  | .allNodesScan => "AllNodesScan"
  | .labelScan => "NodeByLabelScan"
  | .indexSeek => "NodeIndexSeek"
  | .expand => "Expand"
  | .varLengthExpand => "VarLengthExpand"
  | .pruningVarExpand => "PruningVarExpand"
  | .bfsPruningVarExpand => "BfsPruningVarExpand"
  | .trail => "Trail"
  | .filter => "Filter"
  | .cartesianProduct => "CartesianProduct"
  | .nodeHashJoin => "NodeHashJoin"
  | .eager => "Eager"

def ExpansionMode.name : ExpansionMode → String
  | .all => "All"
  | .into => "Into"

def TraversalDirection.name : TraversalDirection → String
  | .forward => "Forward"
  | .reversed => "Reversed"

def Hop.render (hop : Hop) (relationship range : String) : String :=
  renderStep hop.source relationship hop.types range hop.direction hop.target

def TrailParameters.render (parameters : TrailParameters) : String :=
  let loop := renderNode parameters.start ++ " " ++ renderNode parameters.innerStart ++ "-...-" ++
    renderNode parameters.innerEnd ++ parameters.range.render ++ " " ++ renderNode parameters.finish
  let groups := if parameters.groups.isEmpty then "" else " groups: " ++ ", ".intercalate parameters.groups
  "(" ++ loop ++ groups ++ (if parameters.reversedGroups then " reversed" else "") ++ ")"

def describeVariablePredicates (nodePredicates relationshipPredicates : List VariablePredicate) : String :=
  let part (title : String) (predicates : List VariablePredicate) : List String :=
    if predicates.isEmpty then []
    else [title ++ ": " ++ ", ".intercalate (predicates.map fun each => each.predicate.render)]
  let parts := part "nodes" nodePredicates ++ part "relationships" relationshipPredicates
  if parts.isEmpty then "" else " WHERE [" ++ "; ".intercalate parts ++ "]"

def Leaf.describe : Leaf → String
  | .argument names => "Argument(" ++ ", ".intercalate names ++ ")"
  | .allNodesScan node => "AllNodesScan(" ++ node ++ ")"
  | .labelScan node label => "NodeByLabelScan(" ++ node ++ ":" ++ label ++ ")"
  | .indexSeek node label property value unique =>
    (if unique then "NodeUniqueIndexSeek" else "NodeIndexSeek") ++ "(" ++ node ++ ":" ++ label ++ " \x7b" ++ property ++
      " = " ++ value.render ++ "\x7d)"

def EagerReason.render (reason : EagerReason) : String :=
  reason.description ++ " (writer " ++ reason.writer.render ++ ")"

def Step.describe : Step → String
  | .expand hop relationship mode => "Expand(" ++ mode.name ++ ") " ++ hop.render relationship ""
  | .varLengthExpand hop relationship range nodePredicates relationshipPredicates mode =>
    "VarLengthExpand(" ++ mode.name ++ ") " ++ hop.render relationship range.suffix ++
      describeVariablePredicates nodePredicates relationshipPredicates
  | .pruningVarExpand hop least most nodePredicates relationshipPredicates =>
    "PruningVarExpand " ++ hop.render "" (Repetition.mk least (.limited most)).suffix ++
      describeVariablePredicates nodePredicates relationshipPredicates
  | .bfsPruningVarExpand hop includeStart most nodePredicates relationshipPredicates =>
    "BFSPruningVarExpand " ++ hop.render "" (Repetition.mk (if includeStart then 0 else 1) most).suffix ++
      describeVariablePredicates nodePredicates relationshipPredicates
  | .filter predicates => "Filter(" ++ " AND ".intercalate (predicates.map Expression.render) ++ ")"
  | .eager reasons => "Eager(" ++ "; ".intercalate (reasons.map EagerReason.render) ++ ")"

def Join.describe : Join → String
  | .cartesianProduct => "CartesianProduct"
  | .nodeHashJoin nodes => "NodeHashJoin(" ++ ", ".intercalate nodes ++ ")"

def Plan.describe : Plan → String
  | .leaf _ operator => operator.describe
  | .step _ operator _ => operator.describe
  | .trail _ parameters _ _ => "Trail" ++ parameters.render
  | .join _ operator _ _ => operator.describe

end MatchPlanner
