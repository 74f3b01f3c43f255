import MatchPlanner.Plan.Basic

/-! The ids of a planning run and what is recorded under them. Every operator gets a fresh id, those of discarded candidates
included, and every attribute of an id is written once. -/

namespace MatchPlanner

/-- The order of the rows of a plan: ascending columns, the most significant first. -/
structure ProvidedOrder where
  columns : List String
deriving DecidableEq

/-- A table written at most once for each id. -/
structure AttributeTable (α : Type) where
  entries : List (PlanId × α)

namespace AttributeTable

variable {α : Type}

def empty : AttributeTable α := ⟨[]⟩

def get? (table : AttributeTable α) (id : PlanId) : Option α := table.entries.lookup id

def isSet (table : AttributeTable α) (id : PlanId) : Bool := (table.get? id).isSome

def size (table : AttributeTable α) : Nat := table.entries.length

/-- An id that is already set keeps its value and the writing fails. -/
def set (table : AttributeTable α) (kind : AttributeKind) (id : PlanId) (value : α) : Except PlanningError (AttributeTable α) :=
  if table.isSet id then .error (.attributeAlreadySet kind id) else .ok ⟨(id, value) :: table.entries⟩

end AttributeTable

structure Arena (ν : Type) where
  allocated : Nat
  freshNames : Nat
  cardinalities : AttributeTable ν
  solvedPredicates : AttributeTable (List Expression)
  providedOrders : AttributeTable ProvidedOrder

namespace Arena

variable {ν : Type}

def empty : Arena ν := ⟨0, 0, .empty, .empty, .empty⟩

def cardinality (arena : Arena ν) (id : PlanId) : Except PlanningError ν :=
  match arena.cardinalities.get? id with
  | some rows => .ok rows
  | none => .error (.unknownPlanId id)

def solved (arena : Arena ν) (id : PlanId) : List Expression := (arena.solvedPredicates.get? id).getD []

def orderOf (arena : Arena ν) (id : PlanId) : ProvidedOrder := (arena.providedOrders.get? id).getD ⟨[]⟩

end Arena

/-- The order an operator provides, given those of its inputs. A hash join emits rows in an order that is not tracked. -/
def Plan.orderFrom (ordered : PlanId → ProvidedOrder) : Plan → ProvidedOrder
  | .leaf _ (.indexSeek node _ property _ _) => ⟨[node ++ "." ++ property]⟩
  | .leaf _ _ => ⟨[]⟩
  | .step _ _ input => ordered input.id
  | .trail _ _ input _ => ordered input.id
  | .join _ .cartesianProduct left _ => ordered left.id
  | .join _ (.nodeHashJoin _) _ _ => ⟨[]⟩

end MatchPlanner
