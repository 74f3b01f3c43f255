import MatchPlanner.Pattern.Quantified

/-! Physical plans. A plan is a tree of operators, each with an id; row counts and solved predicates are kept apart under
that id. Operators are told apart first by their number of inputs and then by what they do. -/

namespace MatchPlanner

/-- Whether an expansion binds its target or checks it against a bound node. -/
inductive ExpansionMode where
  | all
  | into
deriving DecidableEq

/-- A predicate on every node or relationship a traversal visits, which it reads as `element`. -/
structure VariablePredicate where
  element : String
  predicate : Expression

structure EagerReason where
  description : String
  writer : PlanId
deriving DecidableEq

/-- What a traversal follows: the direction is the one seen from the source. -/
structure Hop where
  source : String
  target : String
  direction : Direction
  types : List String
deriving DecidableEq

/-- The side of a quantified pattern its loop starts from. -/
inductive TraversalDirection where
  | forward
  | reversed
deriving DecidableEq

structure TrailParameters where
  range : Repetition
  /-- The outer variable the loop starts from, bound by its input. -/
  start : String
  /-- The outer variable bound to the last inner node. -/
  finish : String
  innerStart : String
  innerEnd : String
  groupNodes : List Grouping
  groupRelationships : List Grouping
  innerRelationships : List String
  boundRelationships : List String
  boundRelationshipGroups : List String
  reversedGroups : Bool
deriving DecidableEq

/-- Operators without an input. -/
inductive Leaf where
  | argument (names : List String)
  | allNodesScan (node : String)
  | labelScan (node label : String)
  | indexSeek (node label property : String) (value : Expression) (unique : Bool)

/-- Operators with one input. -/
inductive Step where
  | expand (hop : Hop) (relationship : String) (mode : ExpansionMode)
  | varLengthExpand (hop : Hop) (relationship : String) (range : Repetition)
      (nodePredicates relationshipPredicates : List VariablePredicate) (mode : ExpansionMode)
  | pruningVarExpand (hop : Hop) (least most : Nat) (nodePredicates relationshipPredicates : List VariablePredicate)
  | bfsPruningVarExpand (hop : Hop) (includeStart : Bool) (most : UpperBound)
      (nodePredicates relationshipPredicates : List VariablePredicate)
  | filter (predicates : List Expression)
  | eager (reasons : List EagerReason)

/-- Operators with two inputs whose rows they combine. -/
inductive Join where
  | cartesianProduct
  | nodeHashJoin (nodes : List String)

inductive Plan where
  | leaf (id : PlanId) (operator : Leaf)
  | step (id : PlanId) (operator : Step) (input : Plan)
  /-- Runs `inner` once per repetition, from inner end to inner start. -/
  | trail (id : PlanId) (parameters : TrailParameters) (input inner : Plan)
  | join (id : PlanId) (operator : Join) (left right : Plan)

inductive OperatorKind where
  | argument
  | allNodesScan
  | labelScan
  | indexSeek
  | expand
  | varLengthExpand
  | pruningVarExpand
  | bfsPruningVarExpand
  | trail
  | filter
  | cartesianProduct
  | nodeHashJoin
  | eager
deriving DecidableEq

def OperatorKind.isVarExpand : OperatorKind → Bool
  | .varLengthExpand => true
  | .pruningVarExpand => true
  | .bfsPruningVarExpand => true
  | _ => false

def Leaf.kind : Leaf → OperatorKind
  | .argument _ => .argument
  | .allNodesScan _ => .allNodesScan
  | .labelScan _ _ => .labelScan
  | .indexSeek _ _ _ _ _ => .indexSeek

def Step.kind : Step → OperatorKind
  | .expand _ _ _ => .expand
  | .varLengthExpand _ _ _ _ _ _ => .varLengthExpand
  | .pruningVarExpand _ _ _ _ _ => .pruningVarExpand
  | .bfsPruningVarExpand _ _ _ _ _ => .bfsPruningVarExpand
  | .filter _ => .filter
  | .eager _ => .eager

def Join.kind : Join → OperatorKind
  | .cartesianProduct => .cartesianProduct
  | .nodeHashJoin _ => .nodeHashJoin

namespace Plan

def id : Plan → PlanId
  | .leaf id _ => id
  | .step id _ _ => id
  | .trail id _ _ _ => id
  | .join id _ _ _ => id

def kind : Plan → OperatorKind
  | .leaf _ operator => operator.kind
  | .step _ operator _ => operator.kind
  | .trail _ _ _ _ => .trail
  | .join _ operator _ _ => operator.kind

/-- The inputs of the root; the input of a trail comes before its inner plan. -/
def children : Plan → List Plan
  | .leaf _ _ => []
  | .step _ _ input => [input]
  | .trail _ _ input inner => [input, inner]
  | .join _ _ left right => [left, right]

/-- All subtrees, each before those below it. -/
def subtrees : Plan → List Plan
  | .leaf id operator => [.leaf id operator]
  | .step id operator input => .step id operator input :: subtrees input
  | .trail id parameters input inner => .trail id parameters input inner :: (subtrees input ++ subtrees inner)
  | .join id operator left right => .join id operator left right :: (subtrees left ++ subtrees right)

def ids (plan : Plan) : List PlanId := plan.subtrees.map Plan.id

def kinds (plan : Plan) : List OperatorKind := plan.subtrees.map Plan.kind

def isLeaf : Plan → Bool
  | .leaf _ _ => true
  | _ => false

/-- The first subtree with an id, an outer one before those below it. -/
def find? (plan : Plan) (id : PlanId) : Option Plan := plan.subtrees.find? fun subtree => subtree.id == id

def filterPredicates (plan : Plan) : List Expression :=
  plan.subtrees.flatMap fun subtree =>
    match subtree with
    | .step _ (.filter predicates) _ => predicates
    | _ => []

end Plan

/-- The variables a leaf binds. -/
def Leaf.binds : Leaf → List String
  | .argument names => names
  | .allNodesScan node => [node]
  | .labelScan node _ => [node]
  | .indexSeek node _ _ _ _ => [node]

/-- The variables a step makes available besides those of its input. -/
def Step.binds : Step → List String
  | .expand hop relationship _ => [hop.source, relationship, hop.target]
  | .varLengthExpand hop relationship _ _ _ _ => [hop.source, relationship, hop.target]
  | .pruningVarExpand hop _ _ _ _ => [hop.source, hop.target]
  | .bfsPruningVarExpand hop _ _ _ _ => [hop.source, hop.target]
  | .filter _ => []
  | .eager _ => []

def TrailParameters.groups (parameters : TrailParameters) : List String :=
  groupsOf parameters.groupNodes ++ groupsOf parameters.groupRelationships

/-- The variables bound in every row of a plan. Those of an inner plan stay inside the loop. -/
def Plan.available : Plan → NameSet
  | .leaf _ operator => .ofList operator.binds
  | .step _ operator input => (available input).insertAll operator.binds
  | .trail _ parameters input _ => (available input).insertAll (parameters.finish :: parameters.groups)
  | .join _ _ left right => available left ∪ available right

end MatchPlanner
