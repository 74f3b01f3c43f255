import MatchPlanner.Proofs.Construction

/-! The operators of a plan outside its loops. -/

namespace MatchPlanner

def OperatorKind.isExpansion (kind : OperatorKind) : Bool := kind == .expand || kind == .trail || kind.isVarExpand

namespace Plan

/-- The subtrees outside the inner plans of loops, each before those below it. -/
def outer : Plan → List Plan
  | .leaf id operator => [.leaf id operator]
  | .step id operator input => .step id operator input :: outer input
  | .trail id parameters input inner => .trail id parameters input inner :: outer input
  | .join id operator left right => .join id operator left right :: (outer left ++ outer right)

/-- The operators that traverse relationships, those inside a loop left to the loop. -/
def expansions (plan : Plan) : List Plan := plan.outer.filter fun node => node.kind.isExpansion

@[simp] theorem expansions_leaf (id : PlanId) (operator : Leaf) : (leaf id operator).expansions = [] := by
  cases operator <;> rfl

@[simp] theorem expansions_filter (id : PlanId) (predicates : List Expression) (input : Plan) :
    (step id (.filter predicates) input).expansions = input.expansions := rfl

@[simp] theorem expansions_join (id : PlanId) (operator : Join) (left right : Plan) :
    (join id operator left right).expansions = left.expansions ++ right.expansions := by
  cases operator <;> exact List.filter_append ..

theorem expansions_step {operator : Step} (id : PlanId) (input : Plan) (expands : operator.kind.isExpansion = true) :
    (step id operator input).expansions = step id operator input :: input.expansions := by
  simp only [expansions, outer, List.filter_cons, kind, expands, ↓reduceIte]

@[simp] theorem expansions_trail (id : PlanId) (parameters : TrailParameters) (input inner : Plan) :
    (trail id parameters input inner).expansions = trail id parameters input inner :: input.expansions := rfl

@[simp] theorem mem_available_leaf {id : PlanId} {operator : Leaf} {name : String} :
    name ∈ (leaf id operator).available ↔ name ∈ operator.binds := NameSet.mem_ofList

@[simp] theorem mem_available_step {id : PlanId} {operator : Step} {input : Plan} {name : String} :
    name ∈ (step id operator input).available ↔ name ∈ input.available ∨ name ∈ operator.binds := NameSet.mem_insertAll

@[simp] theorem mem_available_trail {id : PlanId} {parameters : TrailParameters} {input inner : Plan} {name : String} :
    name ∈ (trail id parameters input inner).available ↔
      name ∈ input.available ∨ name = parameters.finish ∨ name ∈ parameters.groups := by
  simp only [available, NameSet.mem_insertAll, List.mem_cons]

@[simp] theorem mem_available_join {id : PlanId} {operator : Join} {left right : Plan} {name : String} :
    name ∈ (join id operator left right).available ↔ name ∈ left.available ∨ name ∈ right.available := NameSet.mem_union

end Plan

namespace Filtered

variable {input plan : Plan} {predicates : List Expression}

theorem available (filtered : Filtered input predicates plan) : plan.available = input.available := by
  cases filtered with
  | untouched => rfl
  | filter => rfl

theorem expansions (filtered : Filtered input predicates plan) : plan.expansions = input.expansions := by
  cases filtered with
  | untouched => rfl
  | filter => rfl

theorem outer_subset (filtered : Filtered input predicates plan) : input.outer ⊆ plan.outer := by
  cases filtered with
  | untouched => exact List.Subset.refl _
  | filter => exact List.subset_cons_self ..

theorem placed (filtered : Filtered input predicates plan) {predicate : Expression} (member : predicate ∈ predicates) :
    ∃ id, .step id (.filter predicates) input ∈ plan.outer := by
  cases filtered with
  | untouched => exact absurd member List.not_mem_nil
  | @filter id => exact ⟨id, List.mem_cons_self⟩

end Filtered

namespace LoopEnded

variable {bound : NameSet} {boundary finish : String} {loop plan : Plan}

theorem available (ended : LoopEnded bound boundary loop finish plan) : plan.available = loop.available := by
  cases ended with
  | reached => rfl
  | closed => rfl

theorem expansions (ended : LoopEnded bound boundary loop finish plan) : plan.expansions = loop.expansions := by
  cases ended with
  | reached => rfl
  | closed => rfl

theorem outer_subset (ended : LoopEnded bound boundary loop finish plan) : loop.outer ⊆ plan.outer := by
  cases ended with
  | reached => exact List.Subset.refl _
  | closed => exact List.subset_cons_self ..

end LoopEnded

theorem PatternPlanned.outer_subset {ν : Type} {environment : Environment ν} {arena : Arena ν} {source : Plan}
    {request : QuantifiedRequest} {operator plan : Plan} {discharged : Bool}
    (planned : PatternPlanned environment arena source request operator plan discharged) : source.outer ⊆ plan.outer := by
  cases planned with
  | collapsed => exact List.subset_cons_self ..
  | looped _ _ _ _ ended => exact List.Subset.trans (List.subset_cons_self ..) ended.outer_subset

section

variable {ν : Type} {environment : Environment ν} {arena : Arena ν} {graph : MatchGraph} {before after : Ledger} {index : Nat}
  {connection : Connection} {input operator plan : Plan}

theorem Extended.outer_subset (extended : Extended environment arena graph index input before connection operator plan after) :
    input.outer ⊆ plan.outer := by
  cases extended with
  | relationship recorded placed => exact List.Subset.trans (List.subset_cons_self ..) placed.filtered.outer_subset
  | quantified chosen placed => exact List.Subset.trans chosen.outer_subset placed.filtered.outer_subset

theorem Added.outer_subset (added : Added environment arena graph index input before connection operator plan after) :
    input.outer ⊆ plan.outer := by
  cases added with
  | extended touches extended => exact extended.outer_subset
  | joined simple oriented nearBound farFree scanned selective placed =>
    exact List.Subset.trans (List.subset_cons_of_subset _ (List.subset_append_left _ _)) placed.filtered.outer_subset

end

end MatchPlanner
