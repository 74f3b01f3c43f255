import MatchPlanner.Proofs.Account
import MatchPlanner.Proofs.Equivalence
import MatchPlanner.Proofs.Execution
import MatchPlanner.Proofs.Leaves
import MatchPlanner.Proofs.Patterns

/-! Plans put together from below, with the connections they cover and the entries they answer for. The ledger that one step
hands to the next is gone from this view. What matters of it is that no check leaves it before both its variables are bound,
so a loop still finds every check it could make. -/

namespace MatchPlanner

def QuantifiedSite.taken (site : QuantifiedSite) (ledger : Ledger) (solved : List Expression) (discharged : Bool) : Ledger :=
  if discharged then (ledger.solve solved).shared site.dischargeable else []

section

variable {ν : Type} (environment : Environment ν) (arena : Arena ν) (graph : MatchGraph)

/-- A scan of the nodes of one variable under a filter of what is ready there. -/
inductive Scan (node : String) : Plan → Account → Prop where
  | scan {ledger entries : Ledger} {leaf : LeafCandidate} {id : PlanId} {plan : Plan}
    (known : List.Sublist ledger (Ledger.ofGraph graph))
    (sound : LeafCandidate.Sound node (Ledger.predicates (ledger.filter (LedgerEntry.isLocalTo node))) leaf)
    (recorded : arena.solved id = leaf.solved)
    (ready : ∀ entry ∈ entries, entry ∈ Ledger.ofGraph graph ∧ entry.isReady (Plan.leaf id leaf.operator).available = true)
    (filtered : Filtered (.leaf id leaf.operator) (Ledger.predicates entries) plan) :
    Scan node plan ⟨entries, ledger.taken leaf.solved, 0⟩

inductive Assembled : Plan → Assignment → Account → Prop where
  | argument {id : PlanId} (recorded : arena.solved id = []) : Assembled (.leaf id (.argument graph.arguments.names)) [] 0
  | scan {node : String} {plan : Plan} {account : Account} (declared : node ∈ graph.nodeNames)
    (scan : Scan arena graph node plan account) : Assembled plan [] account
  | placed {input plan : Plan} {assigned : Assignment} {account : Account} {entries : Ledger}
    (below : Assembled input assigned account)
    (ready : ∀ entry ∈ entries, entry ∈ Ledger.ofGraph graph ∧ entry.isReady input.available = true)
    (filtered : Filtered input (Ledger.predicates entries) plan) : Assembled plan assigned (account + ⟨entries, 0, 0⟩)
  | relationship {index : Nat} {relationship : PatternRelationship} {id : PlanId} {input : Plan} {assigned : Assignment}
    {account : Account} (below : Assembled input assigned account)
    (declared : graph.connections[index]? = some (.relationship relationship))
    (touches : relationship.left ∈ input.available ∨ relationship.right ∈ input.available)
    (recorded : arena.solved id = []) :
    Assembled (relationship.expandAbove id input) (assigned ++ [(index, relationship.expandAbove id input)]) account
  | quantified {index : Nat} {pattern : QuantifiedPattern} {ledger : Ledger} {done : List Nat} {operator input plan : Plan}
    {discharged : Bool} {assigned : Assignment} {account : Account} (below : Assembled input assigned account)
    (declared : graph.connections[index]? = some (.quantified pattern)) (fresh : index ∉ done)
    (opened : ledger.Open graph done)
    (chosen : PatternPlanned environment arena input (pattern.site graph index input.available ledger).request operator plan
      discharged) :
    Assembled plan (assigned ++ [(index, operator)]) (account + ⟨0,
      ledger.taken ((pattern.site graph index input.available ledger).request.sorted input).solved,
      (pattern.site graph index input.available ledger).taken ledger
        ((pattern.site graph index input.available ledger).request.sorted input).solved discharged⟩)
  | joined {index : Nat} {relationship : PatternRelationship} {near far : String} {id joinId : PlanId} {input leaf : Plan}
    {assigned : Assignment} {account scanned : Account} (below : Assembled input assigned account)
    (declared : graph.connections[index]? = some (.relationship relationship)) (simple : relationship.isPath = false)
    (oriented : relationship.orientation input.available = (near, far)) (nearBound : near ∈ input.available)
    (farFree : far ∉ input.available) (scan : Scan arena graph far leaf scanned) :
    Assembled (.join joinId (.nodeHashJoin [near]) input
        (.step id (.expand (relationship.hop far near) relationship.name .all) leaf))
      (assigned ++ [(index, .step id (.expand (relationship.hop far near) relationship.name .all) leaf)]) (account + scanned)
  | product {id : PlanId} {left right : Plan} {former latter : Assignment} {first second : Account}
    (below : Assembled left former first) (beside : Assembled right latter second) :
    Assembled (.join id .cartesianProduct left right) (former ++ latter) (first + second)

end

theorem LeafCandidate.Sound.reads {node : String} {ledger : Ledger} {leaf : LeafCandidate}
    (sound : LeafCandidate.Sound node (Ledger.predicates (ledger.filter (LedgerEntry.isLocalTo node))) leaf) :
    ∀ predicate ∈ leaf.solved, ∀ name ∈ predicate.dependencies, name = node := by
  intro predicate solved name reads
  obtain ⟨entry, among, rfl⟩ := List.mem_map.mp (sound.subset solved)
  have alone := (Bool.and_eq_true_iff.mp (List.mem_filter.mp among).2).2
  have same : name ∈ [node] := beq_iff_eq.mp alone ▸ reads
  exact List.mem_singleton.mp same

/-! Only certain variables are ever bound. -/

/-- A bound variable is a node, or comes from outside, or is the end of a loop, or is exposed by a connection planned below. -/
def Assignment.Explains (graph : MatchGraph) (assigned : Assignment) (name : String) : Prop :=
  name ∈ graph.nodeNames ∨ name ∈ graph.arguments ∨ isReserved name = true ∨
    ∃ entry ∈ assigned, ∃ connection, graph.connections[entry.1]? = some connection ∧ name ∈ connection.exposed

namespace Assignment

variable {graph : MatchGraph} {assigned more : Assignment} {name : String}

theorem Explains.append_left (explains : assigned.Explains graph name) : Explains graph (assigned ++ more) name :=
  explains.imp_right <| Or.imp_right <| Or.imp_right fun ⟨entry, member, exposes⟩ => ⟨entry, List.mem_append_left _ member, exposes⟩

theorem Explains.append_right (explains : more.Explains graph name) : Explains graph (assigned ++ more) name :=
  explains.imp_right <| Or.imp_right <| Or.imp_right fun ⟨entry, member, exposes⟩ => ⟨entry, List.mem_append_right _ member, exposes⟩

theorem explains_exposed {index : Nat} {operator : Plan} {connection : Connection}
    (declared : graph.connections[index]? = some connection) (exposes : name ∈ connection.exposed) :
    Explains graph (assigned ++ [(index, operator)]) name :=
  .inr (.inr (.inr ⟨_, List.mem_append_right _ List.mem_cons_self, connection, declared, exposes⟩))

end Assignment

namespace MatchGraph.Valid

variable {graph : MatchGraph} {index : Nat} {connection : Connection}

theorem left_mem (valid : graph.Valid) (declared : graph.connections[index]? = some connection) :
    connection.left ∈ graph.nodeNames := (valid.ends connection (List.mem_of_getElem? declared)).1

theorem right_mem (valid : graph.Valid) (declared : graph.connections[index]? = some connection) :
    connection.right ∈ graph.nodeNames := (valid.ends connection (List.mem_of_getElem? declared)).2

theorem end_mem (valid : graph.Valid) (declared : graph.connections[index]? = some connection) {name : String}
    (ends : name = connection.left ∨ name = connection.right) : name ∈ graph.nodeNames := by
  rcases ends with rfl | rfl
  exacts [valid.left_mem declared, valid.right_mem declared]

end MatchGraph.Valid

section

variable {ν : Type} {environment : Environment ν} {arena : Arena ν} {graph : MatchGraph} {plan : Plan} {assigned : Assignment}
  {account : Account}

theorem Scan.mem_available {node name : String} (scan : Scan arena graph node plan account) :
    name ∈ plan.available ↔ name = node := by
  cases scan with
  | scan known sound recorded ready filtered =>
    rw [filtered.available, Plan.mem_available_leaf, sound.binds, List.mem_singleton]

theorem Assembled.explains (valid : graph.Valid) (assembled : Assembled environment arena graph plan assigned account) :
    ∀ name ∈ plan.available, assigned.Explains graph name := by
  induction assembled with
  | argument =>
    intro name bound
    exact .inr (.inl (Plan.mem_available_leaf.mp bound))
  | scan declared scan =>
    intro name bound
    rw [scan.mem_available.mp bound]
    exact .inl declared
  | placed below ready filtered explains => exact filtered.available ▸ explains
  | relationship below declared touches recorded explains =>
    intro name bound
    rcases PatternRelationship.mem_available_expandAbove.mp bound with early | rfl | rfl | rfl
    · exact (explains name early).append_left
    · exact .inl (valid.left_mem declared)
    · exact .inl (valid.right_mem declared)
    · exact Assignment.explains_exposed declared (List.mem_singleton_self _)
  | quantified below declared fresh opened chosen explains =>
    intro name bound
    rcases chosen.bound bound with early | rfl | rfl | reserved | group
    · exact (explains name early).append_left
    · exact .inl (valid.left_mem declared)
    · exact .inl (valid.right_mem declared)
    · exact .inr (.inr (.inl reserved))
    · exact Assignment.explains_exposed declared group
  | @joined index relationship near far id joinId input leaf assigned account scanned below declared simple oriented nearBound
      farFree scan explains =>
    intro name bound
    have nodes : name = near ∨ name = far → name ∈ graph.nodeNames := by
      rcases PatternRelationship.ends_of_orientation oriented with ⟨rfl, rfl⟩ | ⟨rfl, rfl⟩
      exacts [valid.end_mem declared, fun ends => valid.end_mem declared ends.symm]
    rcases Plan.mem_available_join.mp bound with early | beside
    · exact (explains name early).append_left
    · rcases Plan.mem_available_step.mp beside with here | hop
      · exact .inl (nodes (.inr (scan.mem_available.mp here)))
      · simp only [Step.binds, PatternRelationship.hop, List.mem_cons, List.not_mem_nil, or_false] at hop
        rcases hop with same | rfl | same
        · exact .inl (nodes (.inr same))
        · exact Assignment.explains_exposed declared (List.mem_singleton_self _)
        · exact .inl (nodes (.inl same))
  | product below beside former latter =>
    intro name bound
    rcases Plan.mem_available_join.mp bound with early | late
    · exact (former name early).append_left
    · exact (latter name late).append_right

theorem not_pending_node (valid : graph.Valid) {done : List Nat} {name : String} (node : name ∈ graph.nodeNames) :
    ¬ graph.Pending done name :=
  fun ⟨_, _, _, found, _, exposes⟩ => MatchGraph.exposed_not_node valid found exposes node

theorem not_pending_exposed (valid : graph.Valid) {done : List Nat} {index : Nat} {connection : Connection} {name : String}
    (found : graph.connections[index]? = some connection) (exposes : name ∈ connection.exposed) (planned : index ∈ done) :
    ¬ graph.Pending done name :=
  fun ⟨_, _, _, declared, fresh, also⟩ => fresh (MatchGraph.exposed_once valid declared found also exposes ▸ planned)

/-- A bound variable of the graph's own belongs to a connection that is planned. -/
theorem not_pending_of_explains (valid : graph.Valid) {done : List Nat} {name : String} (explains : assigned.Explains graph name)
    (planned : assigned.map Prod.fst ⊆ done) : ¬ graph.Pending done name := by
  rcases explains with node | argument | reserved | ⟨entry, member, connection, found, exposes⟩
  · exact not_pending_node valid node
  · exact fun pending => pending.1.1 argument
  · exact fun pending => Bool.false_ne_true (pending.1.2.symm.trans reserved)
  · exact not_pending_exposed valid found exposes (planned (List.mem_map_of_mem member))

theorem producers_of_entry {entry : LedgerEntry} (member : entry ∈ Ledger.ofGraph graph) {obligation : UniquenessObligation}
    (checks : entry.obligation = some obligation) : obligation ∈ graph.obligations ∧ obligation.first ∈ graph.producers ∧
      obligation.second ∈ graph.producers ∧ entry.predicate = obligation.first.distinctness obligation.second := by
  rcases Ledger.mem_ofGraph member with ⟨none, -⟩ | ⟨found, among, same, predicate⟩
  · rw [none] at checks
    cases checks
  · rw [same] at checks
    cases checks
    obtain ⟨-, first, second, -⟩ := UniquenessObligation.mem_ofProducers among
    exact ⟨among, first, second, predicate.trans (UniquenessObligation.predicate_of_mem among)⟩

/-- An entry that can be evaluated waits for no connection. -/
theorem settled_of_ready (valid : graph.Valid) {entry : LedgerEntry} {done : List Nat}
    (explains : ∀ name ∈ plan.available, assigned.Explains graph name) (ready : entry.isReady plan.available = true)
    (planned : assigned.map Prod.fst ⊆ done) : ¬ graph.Awaits done entry :=
  fun ⟨name, reads, pending⟩ =>
    not_pending_of_explains valid (explains name (NameSet.within_iff.mp ready name reads)) planned pending

/-- Solving predicates that wait for no connection takes out only entries that wait for none. -/
theorem settled_of_taken {entry : LedgerEntry} {done : List Nat} {ledger : Ledger} {solved : List Expression}
    (present : ∀ predicate ∈ solved, ∀ name ∈ predicate.dependencies, ¬ graph.Pending done name)
    (member : entry ∈ ledger.taken solved) : ¬ graph.Awaits done entry := by
  rintro ⟨name, reads, pending⟩
  obtain ⟨predicate, among, same⟩ := Ledger.same_of_mem_taken member
  rw [LedgerEntry.dependencies, Expression.dependencies_of_same same] at reads
  exact present predicate among name reads pending

theorem plain_of_taken {ledger : Ledger} {solved : List Expression} (plain : ∀ predicate ∈ solved, predicate.isCheck = false)
    {entry : LedgerEntry} (member : entry ∈ ledger.taken solved) : entry.predicate.isCheck = false := by
  obtain ⟨predicate, among, same⟩ := Ledger.same_of_mem_taken member
  rw [Expression.isCheck_of_same same]
  exact plain predicate among

/-- What a pattern takes from the ledger besides the predicates it solves are checks that could be made there. -/
theorem QuantifiedSite.mem_taken {site : QuantifiedSite} {ledger : Ledger} {solved : List Expression} {discharged : Bool}
    {entry : LedgerEntry} (known : List.Sublist ledger (Ledger.ofGraph graph)) (dischargeable : site.dischargeable ⊆ ledger) :
    entry ∈ site.taken ledger solved discharged ↔
      discharged = true ∧ entry ∈ ledger.solve solved ∧ entry ∈ site.dischargeable := by
  unfold taken
  cases discharged with
  | false => simp
  | true =>
    simp only [↓reduceIte, true_and, Ledger.shared, List.mem_filter, List.any_eq_true, beq_iff_eq]
    refine and_congr_right fun present => ⟨?_, fun member => ⟨entry, member, rfl⟩⟩
    rintro ⟨other, member, same⟩
    have equal : other = entry := Ledger.eq_of_position (known.subset (dischargeable member))
      (known.subset ((ledger.solve_sublist _).subset present)) same
    exact equal ▸ member

theorem QuantifiedPattern.dischargeable_subset (pattern : QuantifiedPattern) (index : Nat) (bound : NameSet) (ledger : Ledger) :
    (pattern.site graph index bound ledger).dischargeable ⊆ ledger := by
  intro entry member
  obtain ⟨own, counterpart, concern, -⟩ := QuantifiedPattern.mem_dischargeable.mp member
  exact (Ledger.mem_obligationsOf.mp concern).1

end

end MatchPlanner
