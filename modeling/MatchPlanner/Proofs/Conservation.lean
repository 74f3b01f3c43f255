import MatchPlanner.Proofs.Discharge
import MatchPlanner.Proofs.Equivalence
import MatchPlanner.Proofs.Realisation

/-! No predicate of a clause is lost and none is applied twice. What stands in filters, what operators solve and what loops check
by themselves add up to the predicates of the clause. -/

namespace MatchPlanner

def LedgerEntry.kind (entry : LedgerEntry) : Quotient Expression.sameness := entry.predicate.kind

theorem Ledger.classes_predicates (ledger : Ledger) :
    Expression.classes ledger.predicates = (ledger : Multiset LedgerEntry).map LedgerEntry.kind := by
  rw [Expression.classes, Ledger.predicates, List.map_map, Multiset.map_coe]
  rfl

/-- Solving predicates of a ledger takes out entries for just these predicates. -/
theorem Ledger.kinds_taken {ledger : Ledger} {solved : List Expression}
    (known : Expression.classes solved ≤ Expression.classes ledger.predicates) :
    (ledger.taken solved : Multiset LedgerEntry).map LedgerEntry.kind = Expression.classes solved := by
  induction solved generalizing ledger with
  | nil => rfl
  | cons predicate rest further =>
    rw [Expression.classes_cons] at known
    have single := ledger.solve_split [predicate]
    have present : predicate.kind ∈ (ledger : Multiset LedgerEntry).map LedgerEntry.kind := by
      rw [← ledger.classes_predicates]
      exact Multiset.mem_of_le known (Multiset.mem_cons_self _ _)
    obtain ⟨entry, member, same⟩ := Multiset.mem_map.mp present
    cases searched : List.find? (fun entry : LedgerEntry => entry.predicate.same predicate) ledger with
    | none => exact absurd (Expression.kind_eq_iff.mp same) (List.find?_eq_none.mp searched entry member)
    | some found =>
      have hit : found.kind = predicate.kind := Expression.kind_eq_iff.mpr (List.find?_some searched :)
      have out : ledger.taken [predicate] = [found] := by
        simp only [Ledger.taken, searched, Option.toList_some, List.append_nil]
      rw [out] at single
      have kinds := congrArg (Multiset.map LedgerEntry.kind) single
      rw [← Ledger.classes_predicates, Multiset.map_add, Multiset.coe_singleton, Multiset.map_singleton, hit] at kinds
      have remaining : Expression.classes rest ≤ Expression.classes (ledger.solve [predicate] : Ledger).predicates := by
        rw [kinds, add_comm, Multiset.singleton_add] at known
        rw [Ledger.classes_predicates]
        exact (Multiset.cons_le_cons_iff _).mp known
      have taken : ledger.taken (predicate :: rest) = found :: (ledger.solve [predicate]).taken rest := by
        simp only [Ledger.taken, searched, Option.toList_some, List.singleton_append]
        rfl
      rw [taken, Expression.classes_cons, ← Multiset.cons_coe, Multiset.map_cons, hit, further remaining]

/-! The checks among the entries of a graph. -/

namespace Ledger

theorem predicates_ofGraph (graph : MatchGraph) :
    (Ledger.ofGraph graph).predicates = graph.atoms ++ graph.obligations.map UniquenessObligation.predicate := by
  unfold predicates ofGraph
  rw [List.map_map]
  change List.map (Prod.fst ∘ Prod.fst) _ = _
  rw [← List.map_map, List.zipIdx_map_fst, List.map_append, List.map_map, List.map_map]
  exact congrArg (· ++ _) (List.map_id _)

theorem obligations_ofGraph (graph : MatchGraph) : (Ledger.ofGraph graph).filterMap LedgerEntry.obligation = graph.obligations := by
  unfold ofGraph
  rw [List.filterMap_map]
  change List.filterMap (Prod.snd ∘ Prod.fst) _ = _
  rw [← List.filterMap_map, List.zipIdx_map_fst, List.filterMap_append, List.filterMap_map, List.filterMap_map]
  have atoms : graph.atoms.filterMap (Prod.snd ∘ fun atom => (atom, (none : Option UniquenessObligation))) = [] :=
    List.filterMap_eq_nil_iff.mpr fun _ _ => rfl
  have checks : graph.obligations.filterMap (Prod.snd ∘ fun obligation => (obligation.predicate, some obligation)) =
      graph.obligations := List.filterMap_some
  rw [atoms, checks, List.nil_append]

end Ledger

theorem Account.kinds_checks {entries : Multiset LedgerEntry}
    (checks : ∀ entry ∈ entries, ∃ obligation, entry.obligation = some obligation ∧ entry.predicate = obligation.predicate) :
    entries.map LedgerEntry.kind =
      (entries.filterMap LedgerEntry.obligation).map fun obligation => obligation.predicate.kind := by
  rw [Multiset.map_filterMap]
  induction entries using Multiset.induction_on with
  | empty => rfl
  | cons entry entries further =>
    obtain ⟨obligation, same, predicate⟩ := checks entry (Multiset.mem_cons_self _ _)
    have first : entry.obligation.map (fun obligation => obligation.predicate.kind) = some entry.kind := by
      rw [same, Option.map_some, ← predicate]
      rfl
    rw [Multiset.map_cons, further fun other member => checks other (Multiset.mem_cons_of_mem member)]
    exact (Multiset.filterMap_cons_some _ entry entries first).symm

/-- What a plan answers for besides the checks that loops make: the atoms of the clause and the other checks. -/
theorem Account.kinds_answered {graph : MatchGraph} {account : Account}
    (balance : (Ledger.ofGraph graph : Multiset LedgerEntry) = account.entries)
    (checks : ∀ entry ∈ account.discharged, ∃ obligation, entry.obligation = some obligation ∧
      entry.predicate = obligation.predicate) :
    (account.filtered + account.solved).map LedgerEntry.kind = Expression.classes graph.atoms +
      ((account.filtered + account.solved).filterMap LedgerEntry.obligation).map fun obligation => obligation.predicate.kind := by
  have whole := (Ledger.ofGraph graph).classes_predicates
  have obligations := Ledger.obligations_ofGraph graph
  rw [Ledger.predicates_ofGraph, Expression.classes_append, ← obligations, balance] at whole
  have split : Expression.classes (((Ledger.ofGraph graph).filterMap LedgerEntry.obligation).map UniquenessObligation.predicate) =
      (account.entries.filterMap LedgerEntry.obligation).map fun obligation => obligation.predicate.kind := by
    rw [← balance, Multiset.filterMap_coe, Multiset.map_coe, Expression.classes, List.map_map]
    rfl
  rw [split, Account.entries, Multiset.filterMap_add, Multiset.map_add, Multiset.map_add _ _ account.discharged,
    Account.kinds_checks checks, ← add_assoc] at whole
  exact (add_right_cancel whole).symm

/-! What is gathered from the operators of a plan. -/

namespace Plan

variable {α : Type} (pick : Plan → List α)

/-- Something of every operator outside loops. -/
def gather (plan : Plan) : List α := plan.outer.flatMap pick

@[simp] theorem gather_leaf (id : PlanId) (operator : Leaf) : (leaf id operator).gather pick = pick (leaf id operator) :=
  List.append_nil _

@[simp] theorem gather_step (id : PlanId) (operator : Step) (input : Plan) :
    (step id operator input).gather pick = pick (step id operator input) ++ input.gather pick := rfl

@[simp] theorem gather_trail (id : PlanId) (parameters : TrailParameters) (input inner : Plan) :
    (trail id parameters input inner).gather pick = pick (trail id parameters input inner) ++ input.gather pick := rfl

@[simp] theorem gather_join (id : PlanId) (operator : Join) (left right : Plan) :
    (join id operator left right).gather pick = pick (join id operator left right) ++ (left.gather pick ++ right.gather pick) := by
  rw [gather, outer, List.flatMap_cons, List.flatMap_append]
  rfl

def held : Plan → List Expression
  | .step _ (.filter predicates) _ => predicates
  | _ => []

/-- A loop that ends in a fresh variable is followed by the equality of that variable with the boundary it stands for. -/
def closes : Plan → Expression → Bool
  | .trail _ parameters _ _, .binary .equal (.reference finish) (.reference _) =>
    finish == parameters.finish && isReserved finish
  | _, _ => false

/-- The equality in a filter that ends the loop below. -/
def ending : Plan → List Expression
  | .step _ (.filter predicates) input => predicates.filter input.closes
  | _ => []

/-- The predicates a filter holds but for the equality that ends a loop. -/
def conditions : Plan → List Expression
  | .step _ (.filter predicates) input => predicates.filter fun predicate => !input.closes predicate
  | _ => []

theorem held_of_kind {id : PlanId} {operator : Step} {input : Plan} (other : operator.kind ≠ .filter) :
    (step id operator input).held = [] ∧ (step id operator input).ending = [] := by
  cases operator with
  | filter => exact absurd rfl other
  | _ => exact ⟨rfl, rfl⟩

/-- What is recorded as solved by certain operators. -/
def solvedBy {ν : Type} (arena : Arena ν) (chosen : Plan → Bool) (plan : Plan) : List Expression :=
  if chosen plan then arena.solved plan.id else []

/-- The operators that stand for a quantified pattern or a path of variable length. -/
def isRepeating (plan : Plan) : Bool := plan.kind == .trail || plan.kind.isVarExpand

/-- The plan is not a loop that is still to be closed. -/
def Ended : Plan → Prop
  | .trail _ parameters _ _ => isReserved parameters.finish = false
  | _ => True

theorem classes_held (plan : Plan) : Expression.classes (plan.gather held) =
    Expression.classes (plan.gather conditions) + Expression.classes (plan.gather ending) := by
  have parted : ∀ node : Plan, Expression.classes node.held =
      Expression.classes node.conditions + Expression.classes node.ending := by
    intro node
    unfold held conditions ending
    split
    next predicates input =>
      rw [← Expression.classes_append]
      exact Multiset.coe_eq_coe.mpr (((List.filter_append_perm _ predicates).symm.trans List.perm_append_comm).map _)
    · rfl
  induction plan with
  | leaf => simp [parted]
  | step id operator input below =>
    simp only [gather_step, Expression.classes_append, parted, below]
    abel
  | trail id parameters input inner below =>
    simp only [gather_trail, Expression.classes_append, parted, below]
    abel
  | join id operator left right former latter =>
    simp only [gather_join, Expression.classes_append, parted, former, latter]
    abel

theorem Ended.closes {plan : Plan} (ended : plan.Ended) (predicate : Expression) : plan.closes predicate = false := by
  unfold Plan.closes
  split
  next finish other =>
    simp only [Bool.and_eq_false_imp, beq_iff_eq]
    rintro rfl
    exact ended
  · rfl

end Plan

theorem Filtered.gather {α : Type} {pick : Plan → List α} {input plan : Plan} {predicates : List Expression}
    (filtered : Filtered input predicates plan) (ignores : ∀ id predicates, pick (.step id (.filter predicates) input) = []) :
    plan.gather pick = input.gather pick := by
  cases filtered with
  | untouched => rfl
  | filter => rw [Plan.gather_step, ignores, List.nil_append]

theorem Filtered.held {input plan : Plan} {predicates : List Expression} (filtered : Filtered input predicates plan) :
    plan.gather Plan.held = predicates ++ input.gather Plan.held := by
  cases filtered with
  | untouched => rfl
  | filter => rfl

theorem Filtered.ended {input plan : Plan} {predicates : List Expression} (filtered : Filtered input predicates plan)
    (ended : input.Ended) : plan.Ended := by
  cases filtered with
  | untouched => exact ended
  | filter => exact trivial

section

variable {ν : Type} {environment : Environment ν} {arena : Arena ν} {graph : MatchGraph} {plan : Plan} {assigned : Assignment}
  {account : Account}

/-- The filters of a plan hold the entries filtered and some equalities that end loops. -/
structure Balanced (graph : MatchGraph) (plan : Plan) (account : Account) (closing : List Expression) : Prop where
  held : Expression.classes (plan.gather Plan.held) = account.filtered.map LedgerEntry.kind + Expression.classes closing
  plain : ∀ predicate ∈ closing, predicate.isCheck = false
  exact : (∀ node ∈ graph.nodeNames, isReserved node = false) → plan.gather Plan.ending = closing ∧ plan.Ended

theorem Balanced.filtered {input : Plan} {closing : List Expression} {entries : Ledger}
    (balanced : Balanced graph input account closing) (filtered : Filtered input (Ledger.predicates entries) plan) :
    Balanced graph plan (account + ⟨entries, 0, 0⟩) closing := by
  refine ⟨?_, balanced.plain, fun unreserved => ?_⟩
  · rw [filtered.held, Expression.classes_append, balanced.held, Ledger.classes_predicates, Account.filtered_add, Multiset.map_add]
    abel
  · obtain ⟨same, ended⟩ := balanced.exact unreserved
    refine ⟨?_, ?_⟩
    · rw [← same]
      exact filtered.gather fun id predicates => List.filter_eq_nil_iff.mpr fun predicate _ => by simp [ended.closes]
    · exact filtered.ended ended

theorem Scan.balanced {node : String} (scan : Scan arena graph node plan account) : Balanced graph plan account [] := by
  cases scan with
  | @scan ledger entries leaf id plan known sound recorded ready filtered =>
    have bare : Balanced graph (.leaf id leaf.operator) ⟨0, ledger.taken leaf.solved, 0⟩ [] :=
      ⟨by simp [Plan.held], fun _ impossible => absurd impossible List.not_mem_nil, fun _ => ⟨by simp [Plan.ending], trivial⟩⟩
    have placed := bare.filtered filtered
    exact ⟨by simpa using placed.held, placed.plain, placed.exact⟩

theorem Balanced.above {input : Plan} {closing : List Expression} (balanced : Balanced graph input account closing)
    (held : plan.gather Plan.held = input.gather Plan.held) (ending : plan.gather Plan.ending = input.gather Plan.ending)
    (ended : (∀ node ∈ graph.nodeNames, isReserved node = false) → plan.Ended) (solved taken : Multiset LedgerEntry) :
    Balanced graph plan (account + ⟨0, solved, taken⟩) closing := by
  refine ⟨?_, balanced.plain, fun unreserved => ⟨?_, ended unreserved⟩⟩
  · rw [held, balanced.held, Account.filtered_add, add_zero]
  · rw [ending]
    exact (balanced.exact unreserved).1

theorem PatternPlanned.balanced {source operator : Plan} {request : QuantifiedRequest} {discharged : Bool}
    {closing : List Expression} (planned : PatternPlanned environment arena source request operator plan discharged)
    (balanced : Balanced graph source account closing) (declared : ∀ side, (request.pattern.far side).outer ∈ graph.nodeNames)
    (solved taken : Multiset LedgerEntry) :
    ∃ more, Balanced graph plan (account + ⟨0, solved, taken⟩) (more ++ closing) := by
  cases planned with
  | @collapsed direction relationship others group id collapses possible relationships grouped recorded =>
    obtain ⟨held, ending⟩ : (request.collapseAbove environment.config relationship group direction id source).held = [] ∧
        (request.collapseAbove environment.config relationship group direction id source).ending = [] := by
      apply Plan.held_of_kind
      intro same
      have repeating := request.expansion_isVarExpand environment.config (request.hop relationship direction) group
        ((request.sorted source).extracted.map ExtractedPredicate.element)
        (request.prunes environment.config (request.needs source) group
          (decide ((request.hop relationship direction).target ∈ source.available)))
        (decide ((request.hop relationship direction).target ∈ source.available))
      rw [same] at repeating
      cases repeating
    refine ⟨[], balanced.above ?_ ?_ ?_ solved taken⟩
    · exact congrArg (· ++ source.gather Plan.held) held
    · exact congrArg (· ++ source.gather Plan.ending) ending
    · intro _
      exact trivial
  | @looped direction finish id inner _ kept possible built recorded ended =>
    cases ended with
    | reached free =>
      refine ⟨[], balanced.above ?_ ?_ ?_ solved taken⟩
      · rfl
      · rfl
      · intro unreserved
        exact unreserved _ (declared direction)
    | @closed filterId _ bound reserved =>
      refine ⟨[.equals (.reference finish) (.reference (request.pattern.far direction).outer)], ?_, ?_, fun unreserved => ⟨?_, trivial⟩⟩
      · simp only [Plan.gather_step, Plan.gather_trail, Plan.held, List.nil_append, Expression.classes_append, balanced.held,
          Account.filtered_add, add_zero]
        abel
      · exact List.forall_mem_cons.mpr ⟨rfl, balanced.plain⟩
      · simp only [Plan.gather_step, Plan.gather_trail, Plan.ending, List.nil_append, (balanced.exact unreserved).1]
        rw [List.filter_cons_of_pos (by simp [Plan.closes, Expression.equals, TrailRequest.parameters, reserved]), List.filter_nil]

theorem Assembled.balanced (valid : graph.Valid) (assembled : Assembled environment arena graph plan assigned account) :
    ∃ closing, Balanced graph plan account closing := by
  induction assembled with
  | argument =>
    exact ⟨[], by simp [Plan.held], fun _ impossible => absurd impossible List.not_mem_nil, fun _ => ⟨by simp [Plan.ending], trivial⟩⟩
  | scan declared scan => exact ⟨[], scan.balanced⟩
  | placed below ready filtered further =>
    obtain ⟨closing, balanced⟩ := further
    exact ⟨closing, balanced.filtered filtered⟩
  | @relationship index relationship id input assigned account below declared touches recorded further =>
    obtain ⟨closing, balanced⟩ := further
    have other : ∀ hop mode, (relationship.step hop mode).kind ≠ .filter := by
      intro hop mode
      unfold PatternRelationship.step
      split <;> simp [Step.kind]
    obtain ⟨held, ending⟩ : (relationship.expandAbove id input).held = [] ∧ (relationship.expandAbove id input).ending = [] :=
      Plan.held_of_kind (other _ _)
    refine ⟨closing, ?_⟩
    rw [← add_zero account]
    refine balanced.above ?_ ?_ ?_ 0 0
    · exact congrArg (· ++ input.gather Plan.held) held
    · exact congrArg (· ++ input.gather Plan.ending) ending
    · intro _
      exact trivial
  | @quantified index pattern ledger done operator input plan discharged assigned account below declared fresh opened chosen further =>
    obtain ⟨closing, balanced⟩ := further
    have nodes : ∀ side, (pattern.far side).outer ∈ graph.nodeNames := by
      intro side
      rcases pattern.far_outer side with same | same <;> rw [same]
      exacts [valid.left_mem declared, valid.right_mem declared]
    obtain ⟨more, planned⟩ := chosen.balanced balanced nodes _ _
    exact ⟨more ++ closing, planned⟩
  | joined below declared simple oriented nearBound farFree scan further =>
    obtain ⟨closing, balanced⟩ := further
    have beside := scan.balanced
    refine ⟨closing, ?_, balanced.plain, fun unreserved => ⟨?_, trivial⟩⟩
    · have leaf := beside.held
      simp only [Plan.gather_join, Plan.gather_step, Plan.held, List.nil_append, Expression.classes_append, balanced.held, leaf,
        Expression.classes_nil, Account.filtered_add, Multiset.map_add]
      abel
    · simp only [Plan.gather_join, Plan.gather_step, Plan.ending, List.nil_append, (balanced.exact unreserved).1,
        (beside.exact unreserved).1, List.append_nil]
  | product below beside former latter =>
    obtain ⟨first, left⟩ := former
    obtain ⟨second, right⟩ := latter
    refine ⟨first ++ second, ?_, ?_, fun unreserved => ⟨?_, trivial⟩⟩
    · simp only [Plan.gather_join, Plan.held, List.nil_append, Expression.classes_append, left.held, right.held,
        Account.filtered_add, Multiset.map_add]
      abel
    · intro predicate member
      exact (List.mem_append.mp member).elim (left.plain predicate) (right.plain predicate)
    · simp only [Plan.gather_join, Plan.ending, List.nil_append, (left.exact unreserved).1, (right.exact unreserved).1]

/-- The predicates that leaves and repeating operators are recorded to solve. -/
def Plan.recorded (arena : Arena ν) (plan : Plan) : Multiset (Quotient Expression.sameness) :=
  Expression.classes (plan.gather (Plan.solvedBy arena Plan.isLeaf)) +
    Expression.classes (plan.gather (Plan.solvedBy arena Plan.isRepeating))

theorem Plan.recorded_step {id : PlanId} {operator : Step} {input : Plan} :
    (Plan.step id operator input).recorded arena =
      Expression.classes (if operator.kind.isVarExpand then arena.solved id else []) + input.recorded arena := by
  have repeating : (Plan.step id operator input).isRepeating = operator.kind.isVarExpand := by
    cases operator <;> rfl
  simp only [Plan.recorded, Plan.gather_step, Plan.solvedBy, Plan.isLeaf, repeating, Expression.classes_append, Plan.id]
  simp only [Bool.false_eq_true, ↓reduceIte, Expression.classes_nil]
  abel

theorem Plan.recorded_trail {id : PlanId} {parameters : TrailParameters} {input inner : Plan} :
    (Plan.trail id parameters input inner).recorded arena = Expression.classes (arena.solved id) + input.recorded arena := by
  have repeating : (Plan.trail id parameters input inner).isRepeating = true := rfl
  simp only [Plan.recorded, Plan.gather_trail, Plan.solvedBy, Plan.isLeaf, repeating, Expression.classes_append, Plan.id]
  simp only [Bool.false_eq_true, ↓reduceIte, Expression.classes_nil]
  abel

theorem Plan.recorded_join {id : PlanId} {operator : Join} {left right : Plan} :
    (Plan.join id operator left right).recorded arena = left.recorded arena + right.recorded arena := by
  have repeating : (Plan.join id operator left right).isRepeating = false := by cases operator <;> rfl
  simp only [Plan.recorded, Plan.gather_join, Plan.solvedBy, Plan.isLeaf, repeating, Expression.classes_append]
  simp only [Bool.false_eq_true, ↓reduceIte, Expression.classes_nil]
  abel

theorem Plan.recorded_leaf {id : PlanId} {operator : Leaf} :
    (Plan.leaf id operator).recorded arena = Expression.classes (arena.solved id) := by
  have repeating : (Plan.leaf id operator).isRepeating = false := by cases operator <;> rfl
  simp [Plan.recorded, Plan.solvedBy, Plan.isLeaf, repeating, Plan.id]

theorem Filtered.recorded {input : Plan} {predicates : List Expression} (filtered : Filtered input predicates plan) :
    plan.recorded arena = input.recorded arena := by
  cases filtered with
  | untouched => rfl
  | filter => exact Plan.recorded_step.trans (zero_add _)

theorem LoopEnded.recorded {bound : NameSet} {boundary finish : String} {loop : Plan}
    (ended : LoopEnded bound boundary loop finish plan) : plan.recorded arena = loop.recorded arena := by
  cases ended with
  | reached => rfl
  | closed => exact Plan.recorded_step.trans (zero_add _)

theorem Scan.recorded {node : String} (scan : Scan arena graph node plan account) :
    plan.recorded arena = account.solved.map LedgerEntry.kind := by
  cases scan with
  | @scan ledger entries leaf id plan known sound recorded ready filtered =>
    have locals : List.Sublist (Ledger.predicates (ledger.filter (LedgerEntry.isLocalTo node))) ledger.predicates :=
      List.filter_sublist.map _
    have among : Expression.classes leaf.solved ≤ Expression.classes ledger.predicates :=
      Expression.classes_le ((List.subperm_of_subset sound.distinct sound.subset).trans locals.subperm)
    rw [filtered.recorded, Plan.recorded_leaf, recorded, Ledger.kinds_taken among]

theorem PatternPlanned.recorded {source operator : Plan} {request : QuantifiedRequest} {discharged : Bool}
    (planned : PatternPlanned environment arena source request operator plan discharged) :
    plan.recorded arena = Expression.classes (request.sorted source).solved + source.recorded arena := by
  cases planned with
  | @collapsed direction relationship others group id collapses possible relationships grouped recorded =>
    unfold QuantifiedRequest.collapseAbove
    rw [Plan.recorded_step, request.expansion_isVarExpand, recorded]
    rfl
  | @looped direction finish id inner _ kept possible built recorded ended =>
    rw [ended.recorded, Plan.recorded_trail, recorded]

/-- Whatever operators are recorded to solve has left the ledger for it. -/
theorem Assembled.recorded (assembled : Assembled environment arena graph plan assigned account) :
    plan.recorded arena = account.solved.map LedgerEntry.kind := by
  induction assembled with
  | argument recorded => rw [Plan.recorded_leaf, recorded]; rfl
  | scan declared scan => exact scan.recorded
  | placed below ready filtered further => rw [filtered.recorded, further, Account.solved_add, add_zero]
  | relationship below declared touches recorded further =>
    unfold PatternRelationship.expandAbove
    rw [Plan.recorded_step, recorded, further, ite_self, Expression.classes_nil, zero_add]
  | @quantified index pattern ledger done operator input plan discharged assigned account below declared fresh opened chosen further =>
    have outer := pattern.site_outer graph index input.available ledger
    have among : Expression.classes ((pattern.site graph index input.available ledger).request.sorted input).solved ≤
        Expression.classes ledger.predicates :=
      Expression.classes_le (QuantifiedPattern.solved_sublist.trans outer).subperm
    rw [chosen.recorded, further, Account.solved_add, Multiset.map_add, Ledger.kinds_taken among, add_comm]
  | joined below declared simple oriented nearBound farFree scan further =>
    rw [Plan.recorded_join, Plan.recorded_step, scan.recorded, further, Account.solved_add, Multiset.map_add]
    simp [Step.kind, OperatorKind.isVarExpand]
  | product below beside former latter => rw [Plan.recorded_join, former, latter, Account.solved_add, Multiset.map_add]

/-- Conditions in filters and recorded solutions make up everything that leaves the ledger otherwise than to a loop. -/
theorem Assembled.answered (valid : graph.Valid) (nodes : ∀ node ∈ graph.nodeNames, isReserved node = false)
    (assembled : Assembled environment arena graph plan assigned account) :
    Expression.classes (plan.gather Plan.conditions) + plan.recorded arena =
      (account.filtered + account.solved).map LedgerEntry.kind := by
  obtain ⟨closing, balanced⟩ := assembled.balanced valid
  have held := balanced.held
  rw [plan.classes_held, (balanced.exact nodes).1] at held
  rw [add_right_cancel held, assembled.recorded, Multiset.map_add]

/-- The obligations of a graph, parted into those that loops meet and those whose checks are left to filters. -/
structure Settled (graph : MatchGraph) (operators : List Plan) (account : Account) (discharged placed : List UniquenessObligation) :
    Prop where
  obligations : (discharged ++ placed).Perm graph.obligations
  kinds : (account.filtered + account.solved).map LedgerEntry.kind =
    Expression.classes (graph.atoms ++ placed.map UniquenessObligation.predicate)
  entries : ∀ obligation ∈ placed, ∃ entry ∈ account.filtered + account.solved, entry.predicate = obligation.predicate
  apart : ∀ obligation ∈ discharged, graph.KeptApart operators obligation.first obligation.second
  together : ∀ obligation ∈ placed, graph.Owns obligation.first.name → graph.Owns obligation.second.name →
    ¬ graph.KeptApart operators obligation.first obligation.second

theorem Assembled.settled {operators : List Plan} (assembled : Assembled environment arena graph plan assigned account)
    (balance : (Ledger.ofGraph graph : Multiset LedgerEntry) = account.entries) (arranges : assigned.Arranges operators) :
    ∃ discharged placed, Settled graph operators account discharged placed := by
  have known : ∀ entry ∈ account.entries, entry ∈ Ledger.ofGraph graph := fun entry member => by
    rw [← balance] at member
    exact member
  have predicate : ∀ {entry : LedgerEntry} {obligation : UniquenessObligation}, entry ∈ account.entries →
      entry.obligation = some obligation → entry.predicate = obligation.predicate := by
    intro entry obligation member checks
    obtain ⟨among, -, -, same⟩ := producers_of_entry (known entry member) checks
    exact same.trans (UniquenessObligation.predicate_of_mem among).symm
  have made : ∀ entry ∈ account.discharged, ∃ obligation, entry.obligation = some obligation ∧
      entry.predicate = obligation.predicate ∧ graph.KeptApart operators obligation.first obligation.second := by
    intro entry member
    obtain ⟨obligation, checks, apart⟩ := (assembled.makes entry member).keptApart arranges
    exact ⟨obligation, checks, predicate (Multiset.mem_add.mpr (.inr member)) checks, apart⟩
  have once : (account.filtered + account.solved + account.discharged).Nodup := by
    change account.entries.Nodup
    rw [← balance]
    exact Multiset.coe_nodup.mpr (Ledger.ofGraph_nodup graph)
  obtain ⟨discharged, left⟩ := Quotient.exists_rep (account.discharged.filterMap LedgerEntry.obligation)
  obtain ⟨placed, right⟩ := Quotient.exists_rep ((account.filtered + account.solved).filterMap LedgerEntry.obligation)
  rw [Multiset.quot_mk_to_coe] at left right
  have origin : ∀ obligation ∈ placed, ∃ entry ∈ account.filtered + account.solved, entry.obligation = some obligation :=
    fun obligation member => (Multiset.mem_filterMap _ _).mp (right ▸ Multiset.mem_coe.mpr member)
  refine ⟨discharged, placed, ?_, ?_, ?_, ?_, ?_⟩
  · apply Multiset.coe_eq_coe.mp
    rw [← Multiset.coe_add, left, right, ← Multiset.filterMap_add, add_comm, ← Account.entries, ← balance,
      Multiset.filterMap_coe, Ledger.obligations_ofGraph]
  · rw [Account.kinds_answered balance, Expression.classes_append, Expression.classes, Expression.classes, List.map_map, ← right]
    · rfl
    · intro entry member
      obtain ⟨obligation, checks, same, -⟩ := made entry member
      exact ⟨obligation, checks, same⟩
  · intro obligation member
    obtain ⟨entry, among, checks⟩ := origin obligation member
    exact ⟨entry, among, predicate (Multiset.mem_add.mpr (.inl among)) checks⟩
  · intro obligation member
    obtain ⟨entry, among, same⟩ := (Multiset.mem_filterMap _ _).mp (left ▸ Multiset.mem_coe.mpr member)
    obtain ⟨other, checks, -, apart⟩ := made entry among
    cases checks.symm.trans same
    exact apart
  · intro obligation member first second apart
    obtain ⟨entry, among, checks⟩ := origin obligation member
    have taken := assembled.discharged_of_keptApart arranges (known entry (Multiset.mem_add.mpr (.inl among))) checks first second apart
    exact Multiset.disjoint_left.mp (Multiset.nodup_add.mp once).2.2 among taken

variable [Quantity ν]

end

end MatchPlanner
