/-! Numbers that name the operators of a planning run, and the attributes kept under them. -/

namespace MatchPlanner

structure PlanId where
  number : Nat
deriving DecidableEq, Repr

def PlanId.render (id : PlanId) : String := "#" ++ toString id.number

inductive AttributeKind where
  | cardinality
  | solvedPredicates
  | providedOrder
deriving DecidableEq

def AttributeKind.name : AttributeKind → String
  | .cardinality => "cardinality"
  | .solvedPredicates => "solved_predicates"
  | .providedOrder => "provided_order"

end MatchPlanner
