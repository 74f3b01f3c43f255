import MatchPlanner.Proofs.Observation
import MatchPlanner.Proofs.Pairs

/-! Which groups a loop collects. Nothing but a quantified pattern binds its groups, so whatever reads one of them is still open
when the pattern is planned. The groups it has to bind are therefore decided by the clause, not by the order in which the clause is
planned. -/

namespace MatchPlanner

/-! Every predicate of a clause has an entry. -/

namespace Ledger

variable {graph : MatchGraph}

private theorem entry_of_mem {predicate : Expression} {obligation : Option UniquenessObligation}
    (member : (predicate, obligation) ∈ graph.atoms.map (fun atom => (atom, none)) ++
      graph.obligations.map fun obligation => (obligation.predicate, some obligation)) :
    ∃ entry ∈ Ledger.ofGraph graph, entry.predicate = predicate ∧ entry.obligation = obligation := by
  obtain ⟨position, found⟩ := List.mem_iff_getElem?.mp member
  have indexed : ((predicate, obligation), position) ∈ List.zipIdx _ := List.mem_zipIdx_iff_getElem?.mpr found
  exact ⟨⟨position, predicate, obligation⟩, List.mem_map.mpr ⟨((predicate, obligation), position), indexed, rfl⟩, rfl, rfl⟩

theorem entry_of_atom {atom : Expression} (member : atom ∈ graph.atoms) :
    ∃ entry ∈ Ledger.ofGraph graph, entry.predicate = atom ∧ entry.obligation = none :=
  entry_of_mem (List.mem_append_left _ (List.mem_map_of_mem member))

theorem entry_of_obligation {obligation : UniquenessObligation} (member : obligation ∈ graph.obligations) :
    ∃ entry ∈ Ledger.ofGraph graph, entry.predicate = obligation.predicate ∧ entry.obligation = some obligation :=
  entry_of_mem (List.mem_append_right _ (List.mem_map_of_mem member))

end Ledger

/-- Label tests read nodes, so an atom that reads an exposed variable is a WHERE atom. -/
theorem MatchGraph.whereAtom_of_reads {graph : MatchGraph} (valid : graph.Valid) {index : Nat} {connection : Connection}
    (found : graph.connections[index]? = some connection) {name : String} (exposes : name ∈ connection.exposed) {atom : Expression}
    (member : atom ∈ graph.atoms) (reads : name ∈ atom.dependencies) : atom ∈ graph.whereAtoms := by
  refine (List.mem_append.mp member).resolve_left fun label => ?_
  obtain ⟨node, declared, labelled⟩ := List.mem_flatMap.mp label
  obtain ⟨test, -, rfl⟩ := List.mem_map.mp labelled
  rw [Expression.dependencies, NameSet.mem_ofList, List.mem_singleton] at reads
  exact exposed_not_node valid found exposes (reads ▸ List.mem_map_of_mem declared)

/-- Every clash is an obligation, whichever of the two producers comes first. -/
theorem UniquenessObligation.of_clashes {producers : List RelationshipProducer} {first second : RelationshipProducer}
    (ordered : producers.Pairwise RelationshipProducer.Precedes) (former : first ∈ producers) (latter : second ∈ producers)
    (clashes : first.clashes second = true) : ∃ obligation ∈ ofProducers producers,
      obligation.own? first.connection = some first ∧ obligation.counterpart? first.connection = some second := by
  simp only [RelationshipProducer.clashes, Bool.and_eq_true, bne_iff_ne] at clashes
  obtain ⟨apart, overlap⟩ := clashes
  rcases Nat.lt_or_gt_of_ne apart with before | after
  · exact ⟨_, mem_ofProducers_of_clashes ordered former latter before overlap, if_pos rfl, if_pos rfl⟩
  · refine ⟨_, mem_ofProducers_of_clashes ordered latter former after (TypeSet.overlap_comm _ _ ▸ overlap), ?_, ?_⟩
    · exact (if_neg apart.symm).trans (if_pos rfl)
    · exact (if_neg apart.symm).trans (if_pos rfl)

namespace QuantifiedRequest

variable {request : QuantifiedRequest} {source : Plan} {atom : Expression}

theorem mem_solved : atom ∈ (request.sorted source).solved ↔
    atom ∈ request.outer ∧ (request.pattern.extract? source.available atom).isSome = true := by
  rw [sorted, QuantifiedPattern.solved_eq, List.mem_filter]

theorem mem_postFilters : atom ∈ (request.sorted source).postFilters ↔
    atom ∈ request.outer ∧ atom ∉ (request.sorted source).solved := by
  rw [mem_solved, sorted, QuantifiedPattern.classify, List.mem_filter, Option.isNone_iff_eq_none]
  refine and_congr_right fun shown => ?_
  rw [and_iff_right shown, Option.not_isSome_iff_eq_none]

end QuantifiedRequest

/-! What a pattern finds when it is planned. -/

/-- Everything that reads a group of the pattern is open, and none of the groups is bound. -/
structure QuantifiedPattern.Faces (pattern : QuantifiedPattern) (graph : MatchGraph) (bound : NameSet) (ledger : Ledger) : Prop where
  known : List.Sublist ledger (Ledger.ofGraph graph)
  present : ∀ entry ∈ Ledger.ofGraph graph, ∀ group ∈ pattern.groups, group ∈ entry.dependencies → entry ∈ ledger
  free : ∀ group ∈ pattern.groups, group ∉ bound

/-- Something above the operator of a pattern reads a group: what follows the clause, a WHERE atom that the operator does not solve
itself, or the check against a connection that is not planned below it. -/
def MatchGraph.ReadsAbove (graph : MatchGraph) (index : Nat) (pattern : QuantifiedPattern) (bound : NameSet)
    (solved : List Expression) (group : String) : Prop :=
  group ∈ graph.required ∨ (∃ atom ∈ graph.whereAtoms, group ∈ atom.dependencies ∧ atom ∉ solved) ∨
    ∃ own ∈ (Connection.quantified pattern).producers index, own.name = group ∧
      ∃ other ∈ graph.producers, own.clashes other = true ∧ other.name ∉ bound

namespace QuantifiedPattern.Faces

variable {graph : MatchGraph} {index : Nat} {pattern : QuantifiedPattern} {bound : NameSet} {ledger : Ledger}

/-- A pattern is shown exactly the WHERE atoms that read a group of it. -/
theorem mem_outer (faces : pattern.Faces graph bound ledger) (valid : graph.Valid)
    (found : graph.connections[index]? = some (.quantified pattern)) {atom : Expression} :
    atom ∈ (pattern.site graph index bound ledger).request.outer ↔
      atom ∈ graph.whereAtoms ∧ ∃ group ∈ pattern.groups, group ∈ atom.dependencies := by
  simp only [site, List.partition_eq_filter_filter, List.mem_map, List.mem_filter, LedgerEntry.reads, Bool.and_eq_true]
  constructor
  · rintro ⟨entry, ⟨⟨open_, atom⟩, -, touches⟩, rfl⟩
    obtain ⟨group, reads, own⟩ : ∃ group ∈ entry.dependencies, group ∈ pattern.groups := by
      by_contra apart
      have disjoint := NameSet.disjoint_iff.mpr fun name reads own => apart ⟨name, reads, NameSet.mem_ofList.mp own⟩
      rw [disjoint] at touches
      cases touches
    rcases Ledger.mem_ofGraph (faces.known.subset open_) with ⟨-, listed⟩ | ⟨obligation, -, checks, -⟩
    · exact ⟨MatchGraph.whereAtom_of_reads valid found own listed reads, group, own, reads⟩
    · rw [LedgerEntry.isAtom, checks] at atom
      cases atom
  · rintro ⟨member, group, own, reads⟩
    obtain ⟨entry, listed, rfl, origin⟩ := Ledger.entry_of_atom (List.mem_append_right graph.labelAtoms member)
    have atom : entry.isAtom = true := by rw [LedgerEntry.isAtom, origin, Option.isNone_none]
    have touches : (!entry.dependencies.disjoint (NameSet.ofList pattern.groups)) = true := by
      rw [Bool.not_eq_true', Bool.eq_false_iff]
      exact fun apart => NameSet.disjoint_iff.mp apart group reads (NameSet.mem_ofList.mpr own)
    exact ⟨entry, ⟨⟨faces.present entry listed group own reads, atom⟩, atom, touches⟩, rfl⟩

/-- The checks of a pattern are all open: one for every clash of a producer of it. -/
theorem mem_obligationsOf (faces : pattern.Faces graph bound ledger)
    (ordered : graph.producers.Pairwise RelationshipProducer.Precedes)
    (found : graph.connections[index]? = some (.quantified pattern)) {own other : RelationshipProducer} :
    (∃ entry, (entry, own, other) ∈ ledger.obligationsOf index) ↔ own ∈ (Connection.quantified pattern).producers index ∧
      other ∈ graph.producers ∧ own.clashes other = true := by
  constructor
  · rintro ⟨entry, concern⟩
    exact Ledger.clash_of_obligation faces.known.subset found concern
  · rintro ⟨mine, theirs, clashes⟩
    cases Connection.index_of_producer mine
    have known := MatchGraph.mem_producers.mpr ⟨_, found, mine⟩
    obtain ⟨obligation, obliged, owned, countered⟩ := UniquenessObligation.of_clashes ordered known theirs clashes
    obtain ⟨entry, listed, predicate, checks⟩ := Ledger.entry_of_obligation obliged
    have reads : own.name ∈ entry.dependencies := by
      rw [LedgerEntry.dependencies, predicate, UniquenessObligation.predicate_of_mem obliged,
        RelationshipProducer.mem_dependencies_distinctness]
      obtain ⟨-, ⟨rfl, -⟩ | ⟨rfl, -⟩⟩ := UniquenessObligation.own_cases owned countered
      exacts [.inl rfl, .inr rfl]
    have open_ := faces.present entry listed own.name (MatchGraph.exposed_of_producer mine) reads
    exact ⟨entry, Ledger.mem_obligationsOf.mpr ⟨open_, obligation, checks, owned, countered⟩⟩

/-- A pattern may make the checks against connections whose producers are bound; it keeps its group for the others. -/
theorem mem_siblings (faces : pattern.Faces graph bound ledger)
    (ordered : graph.producers.Pairwise RelationshipProducer.Precedes)
    (found : graph.connections[index]? = some (.quantified pattern)) {sibling : RelationshipProducer} :
    sibling ∈ (pattern.site graph index bound ledger).request.siblings ↔ sibling.name ∈ bound ∧
      ∃ own ∈ (Connection.quantified pattern).producers index, sibling ∈ graph.producers ∧ own.clashes sibling = true := by
  rw [QuantifiedPattern.mem_siblings]
  constructor
  · rintro ⟨entry, own, concern, taken⟩
    exact ⟨taken, own, (faces.mem_obligationsOf ordered found).mp ⟨entry, concern⟩⟩
  · rintro ⟨taken, own, clash⟩
    obtain ⟨entry, concern⟩ := (faces.mem_obligationsOf ordered found).mpr clash
    exact ⟨entry, own, concern, taken⟩

theorem mem_retained (faces : pattern.Faces graph bound ledger)
    (ordered : graph.producers.Pairwise RelationshipProducer.Precedes)
    (found : graph.connections[index]? = some (.quantified pattern)) {group : String} :
    group ∈ (pattern.site graph index bound ledger).request.retained ↔
      ∃ own ∈ (Connection.quantified pattern).producers index, own.name = group ∧
        ∃ other ∈ graph.producers, own.clashes other = true ∧ other.name ∉ bound := by
  simp only [site, List.partition_eq_filter_filter, NameSet.mem_ofList, List.mem_map, List.mem_filter, Function.comp_apply,
    Bool.not_eq_true', decide_eq_false_iff_not]
  constructor
  · rintro ⟨⟨entry, own, other⟩, ⟨concern, free⟩, rfl⟩
    obtain ⟨mine, theirs, clashes⟩ := (faces.mem_obligationsOf ordered found).mp ⟨entry, concern⟩
    exact ⟨own, mine, rfl, other, theirs, clashes, free⟩
  · rintro ⟨own, mine, rfl, other, theirs, clashes, free⟩
    obtain ⟨entry, concern⟩ := (faces.mem_obligationsOf ordered found).mpr ⟨mine, theirs, clashes⟩
    exact ⟨(entry, own, other), ⟨concern, free⟩, rfl⟩

theorem mem_downstream {group : String} (member : group ∈ pattern.groups) :
    group ∈ (pattern.site graph index bound ledger).request.downstream ↔ group ∈ graph.required := by
  simp only [site, List.partition_eq_filter_filter, NameSet.mem_union, NameSet.mem_unionOf, List.mem_map, List.mem_filter]
  refine or_iff_left ?_
  rintro ⟨_, ⟨entry, ⟨⟨-, atom⟩, apart⟩, rfl⟩, reads⟩
  simp only [Function.comp_apply, LedgerEntry.reads, atom, Bool.true_and, Bool.not_not] at apart
  exact NameSet.disjoint_iff.mp apart group reads (NameSet.mem_ofList.mpr member)

/-- The groups that the operator of a pattern has to bind are those that something above it reads. -/
theorem mem_needs {source : Plan} (faces : pattern.Faces graph source.available ledger) (valid : graph.Valid)
    (ordered : graph.producers.Pairwise RelationshipProducer.Precedes)
    (found : graph.connections[index]? = some (.quantified pattern)) {group : String} (member : group ∈ pattern.groups) :
    group ∈ (pattern.site graph index source.available ledger).request.needs source ↔
      graph.ReadsAbove index pattern source.available
        ((pattern.site graph index source.available ledger).request.sorted source).solved group := by
  rw [QuantifiedRequest.mem_needs, site_pattern, and_iff_left member, faces.mem_retained ordered found, mem_downstream member]
  refine or_congr_right (or_congr_left ?_)
  rw [Classification.postFilterDependencies, Expression.mem_dependenciesOf]
  constructor
  · rintro ⟨atom, postponed, reads⟩
    obtain ⟨shown, unsolved⟩ := QuantifiedRequest.mem_postFilters.mp postponed
    exact ⟨atom, ((faces.mem_outer valid found).mp shown).1, reads, unsolved⟩
  · rintro ⟨atom, asked, reads, unsolved⟩
    have shown := (faces.mem_outer valid found).mpr ⟨asked, group, member, reads⟩
    exact ⟨atom, QuantifiedRequest.mem_postFilters.mpr ⟨shown, unsolved⟩, reads⟩

end QuantifiedPattern.Faces

/-! The loops of a plan. -/

/-- The loop of a pattern collects the groups that are observed, in the order of the pattern, and no others. -/
structure TrailParameters.Collects (parameters : TrailParameters) (pattern : QuantifiedPattern) (observed : String → Prop) : Prop where
  nodesOrdered : parameters.groupNodes.Sublist pattern.nodeGroupings
  relationshipsOrdered : parameters.groupRelationships.Sublist pattern.relationshipGroupings
  nodes : ∀ grouping ∈ pattern.nodeGroupings, grouping ∈ parameters.groupNodes ↔ observed grouping.group
  relationships : ∀ grouping ∈ pattern.relationshipGroupings, grouping ∈ parameters.groupRelationships ↔ observed grouping.group

theorem TrailRequest.collects (request : TrailRequest) (finish : String) {observed : String → Prop}
    (needed : ∀ group ∈ request.pattern.groups, group ∈ request.needed ↔ observed group) :
    (request.parameters finish).Collects request.pattern observed := by
  have kept : ∀ groupings : List Grouping, (∀ grouping ∈ groupings, grouping.group ∈ request.pattern.groups) →
      ∀ grouping ∈ groupings, grouping ∈ request.keep groupings ↔ observed grouping.group := by
    intro groupings own grouping member
    rw [keep, List.mem_filter, and_iff_right member, decide_eq_true_eq, needed _ (own grouping member)]
  exact
    { nodesOrdered := List.filter_sublist
      relationshipsOrdered := List.filter_sublist
      nodes := kept _ fun _ member => List.mem_append_left _ (List.mem_map_of_mem member)
      relationships := kept _ fun _ member => List.mem_append_right _ (List.mem_map_of_mem member) }

section

variable {ν : Type} {environment : Environment ν} {arena : Arena ν} {graph : MatchGraph} {plan : Plan} {assigned : Assignment}
  {account : Account} {index : Nat} {operator : Plan} {pattern : QuantifiedPattern}

/-- The operator of a pattern was chosen when everything that reads a group of the pattern was open. -/
theorem Assembled.faces (valid : graph.Valid)
    (owned : ∀ connection ∈ graph.connections, ∀ name ∈ connection.exposed, graph.Owns name)
    (assembled : Assembled environment arena graph plan assigned account) (once : (assigned.map Prod.fst).Nodup)
    (member : (index, operator) ∈ assigned) (found : graph.connections[index]? = some (.quantified pattern)) :
    ∃ source ledger planned discharged, pattern.Faces graph source.available ledger ∧
      PatternPlanned environment arena source (pattern.site graph index source.available ledger).request operator planned
        discharged := by
  induction assembled with
  | argument | scan => exact absurd member List.not_mem_nil
  | placed below ready filtered further => exact further once member
  | relationship below declared touches recorded further =>
    rw [List.map_append] at once
    rcases List.mem_append.mp member with early | here
    · exact further (List.nodup_append.mp once).1 early
    · cases List.mem_singleton.mp here
      cases declared.symm.trans found
  | @quantified position other ledger done _ source planned discharged assigned account below declared fresh opened chosen further =>
    rw [List.map_append, List.map_singleton, List.nodup_append] at once
    obtain ⟨distinct, -, apart⟩ := once
    rcases List.mem_append.mp member with early | here
    · exact further distinct early
    cases List.mem_singleton.mp here
    cases declared.symm.trans found
    have owns := fun group own => owned _ (List.mem_of_getElem? found) group own
    refine ⟨source, ledger, planned, discharged, ⟨opened.known, fun entry listed group own reads => ?_, fun group own taken => ?_⟩, chosen⟩
    · exact opened.awaiting entry listed ⟨group, reads, owns group own, index, _, found, fresh, own⟩
    · -- The group of a pattern is not bound before the pattern is planned.
      have unplanned : index ∉ assigned.map Prod.fst := fun early => apart index early index List.mem_cons_self rfl
      exact not_pending_of_explains valid (below.explains valid group taken) (List.Subset.refl _)
        ⟨owns group own, index, _, found, unplanned, own⟩
  | joined below declared simple oriented nearBound farFree scan further =>
    rw [List.map_append] at once
    rcases List.mem_append.mp member with early | here
    · exact further (List.nodup_append.mp once).1 early
    · cases List.mem_singleton.mp here
      cases declared.symm.trans found
  | product below beside former latter =>
    rw [List.map_append] at once
    rcases List.mem_append.mp member with first | second
    · exact former (List.nodup_append.mp once).1 first
    · exact latter (List.nodup_append.mp once).2.1 second

theorem PatternPlanned.collects {source planned input inner : Plan} {ledger : Ledger} {discharged : Bool} {id : PlanId}
    {parameters : TrailParameters} (valid : graph.Valid) (ordered : graph.producers.Pairwise RelationshipProducer.Precedes)
    (found : graph.connections[index]? = some (.quantified pattern)) (faces : pattern.Faces graph source.available ledger)
    (chosen : PatternPlanned environment arena source (pattern.site graph index source.available ledger).request
      (.trail id parameters input inner) planned discharged) :
    parameters.Collects pattern (graph.ReadsAbove index pattern input.available (arena.solved id)) := by
  generalize same : Plan.trail id parameters input inner = operator at chosen
  cases chosen with
  | collapsed => cases same
  | @looped direction finish _ inner _ kept possible built recorded ended =>
    cases same
    rw [recorded]
    exact TrailRequest.collects _ finish fun group own => faces.mem_needs valid ordered found own

/-- In a returned plan every quantified pattern has an operator, which was chosen when all that reads a group of the pattern was open. -/
theorem Environment.faced_of_plan [Quantity ν] (standard : environment.StandardLeaves)
    (formed : ∀ pattern, .quantified pattern ∈ graph.connections → pattern.WellFormed)
    (given : ∀ connection ∈ graph.connections, ∀ name ∈ connection.exposed, name ∉ graph.arguments)
    (exposed : ∀ connection ∈ graph.connections, ∀ name ∈ connection.exposed, isReserved name = false)
    {before after : Session ν} {query : PlannedQuery ν} (ran : environment.plan graph before = .ok query after) :
    graph.Valid ∧ graph.producers.Pairwise RelationshipProducer.Precedes ∧ ∃ operators, operators.Perm query.root.expansions ∧
      List.Forall₂ (Realises query.root) graph.connections operators ∧
      ∀ (index : Nat) (pattern : QuantifiedPattern) (operator : Plan), graph.connections[index]? = some (.quantified pattern) →
        operators[index]? = some operator → ∃ source ledger planned discharged, pattern.Faces graph source.available ledger ∧
          PatternPlanned environment query.arena source (pattern.site graph index source.available ledger).request operator planned
            discharged := by
  obtain ⟨valid, assigned, account, operators, assembled, once, -, arranges, permuted, realised⟩ :=
    environment.arranged_of_plan standard ran
  have owned : ∀ connection ∈ graph.connections, ∀ name ∈ connection.exposed, graph.Owns name :=
    fun connection member name exposes => ⟨given connection member name exposes, exposed connection member name exposes⟩
  refine ⟨valid, MatchGraph.producers_pairwise valid formed, operators, permuted, realised, fun index pattern operator found placed => ?_⟩
  exact assembled.faces valid owned once ((arranges index operator).mp placed) found

end

/-- Every loop of a plan collects exactly the groups that are read above it. -/
structure PlannedQuery.Collects {ν : Type} (query : PlannedQuery ν) (graph : MatchGraph) (operators : List Plan) : Prop where
  expansions : operators.Perm query.root.expansions
  realises : List.Forall₂ (Realises query.root) graph.connections operators
  loops : ∀ (index : Nat) (pattern : QuantifiedPattern) (id : PlanId) (parameters : TrailParameters) (input inner : Plan),
    graph.connections[index]? = some (.quantified pattern) → operators[index]? = some (.trail id parameters input inner) →
      parameters.Collects pattern (graph.ReadsAbove index pattern input.available (query.arena.solved id))

/-- Whatever the order in which a clause is planned, a loop collects the groups that are read above it and no others. -/
theorem Environment.plan_collects {ν : Type} [Quantity ν] {environment : Environment ν} {graph : MatchGraph}
    (standard : environment.StandardLeaves)
    (built : ∀ pattern, .quantified pattern ∈ graph.connections → ∃ draft : QuantifiedDraft, draft.build = .ok pattern)
    (given : ∀ connection ∈ graph.connections, ∀ name ∈ connection.exposed, name ∉ graph.arguments)
    (exposed : ∀ connection ∈ graph.connections, ∀ name ∈ connection.exposed, isReserved name = false)
    {before after : Session ν} {query : PlannedQuery ν} (ran : environment.plan graph before = .ok query after) :
    ∃ operators, query.Collects graph operators := by
  obtain ⟨valid, ordered, operators, permuted, realised, faced⟩ :=
    Environment.faced_of_plan standard (MatchGraph.wellFormed_of_built built) given exposed ran
  refine ⟨operators, permuted, realised, fun index pattern id parameters input inner found placed => ?_⟩
  obtain ⟨source, ledger, planned, discharged, faces, chosen⟩ := faced index pattern _ found placed
  exact chosen.collects valid ordered found faces

theorem operator_at {plan : Plan} {connections : List Connection} {operators : List Plan}
    (realised : List.Forall₂ (Realises plan) connections operators) (index : Nat) {connection : Connection}
    (found : connections[index]? = some connection) :
    ∃ operator, operators[index]? = some operator ∧ Realises plan connection operator := by
  obtain ⟨length, realises⟩ := List.forall₂_iff_get.mp realised
  obtain ⟨first, rfl⟩ := List.getElem?_eq_some_iff.mp found
  have second := length ▸ first
  exact ⟨operators[index], List.getElem?_eq_getElem second, realises index first second⟩

/-! Two loops side by side, each with a condition on its nodes. -/

namespace QuantifiedDraft

def former : QuantifiedDraft where
  left := ⟨"a", "n"⟩
  right := ⟨"b", "m"⟩
  relationships := [⟨"s", "n", "m", .outgoing, ["S"], .simple⟩]
  repetition := .oneOrMore
  nodeGroupings := [⟨"n", "f"⟩]
  relationshipGroupings := [⟨"s", "s"⟩]
  selections := []
  groupByName := false

/-- The nodes are collected under a name of choice. -/
def latter (group : String) (selections : List Expression) : QuantifiedDraft where
  left := ⟨"a", "x"⟩
  right := ⟨"b", "y"⟩
  relationships := [⟨"r", "x", "y", .outgoing, ["R"], .simple⟩]
  repetition := .oneOrMore
  nodeGroupings := [⟨"x", group⟩]
  relationshipGroupings := [⟨"r", "r"⟩]
  selections := selections
  groupByName := false

end QuantifiedDraft

namespace MatchGraph

/-- Both ends are given from outside. -/
def twin (group : String) (selections : List Expression) : MatchGraph where
  nodes := [⟨"a", []⟩, ⟨"b", []⟩]
  connections := [.quantified QuantifiedDraft.former.pattern, .quantified (QuantifiedDraft.latter group selections).pattern]
  selections := [.equals (.property "f" "p") (.literal (.integer 1)), .equals (.property group "p") (.literal (.integer 1))]
  arguments := .ofList ["a", "b"]
  required := ∅
  distinctEndpoints := false

theorem twin_built {group : String} {selections : List Expression}
    (accepted : (QuantifiedDraft.latter group selections).build = .ok (QuantifiedDraft.latter group selections).pattern) :
    ∀ pattern, .quantified pattern ∈ (twin group selections).connections → ∃ draft : QuantifiedDraft, draft.build = .ok pattern := by
  intro pattern member
  simp only [twin, List.mem_cons, Connection.quantified.injEq, List.not_mem_nil, or_false] at member
  rcases member with rfl | rfl
  exacts [⟨.former, rfl⟩, ⟨.latter group selections, accepted⟩]

theorem twin_exposed {group : String} {selections : List Expression} : ∀ connection ∈ (twin group selections).connections,
    ∀ name ∈ connection.exposed, name ∈ ["f", "s", group, "r"] :=
  fun connection member _ exposes => List.mem_flatMap.mpr ⟨connection, member, exposes⟩

/-- Both loops collect the nodes that a condition reads and leave out their relationships, which nothing reads. -/
theorem twin_collected : ∃ query after,
    Environment.counting.plan (twin "g" [.literal (.boolean true)]) (.initial false) = .ok query after ∧
      ∃ operators, query.Collects (twin "g" [.literal (.boolean true)]) operators := by
  have returns : Environment.counting.returns (twin "g" [.literal (.boolean true)]) (fun _ => true) = true := by decide +kernel
  have free : ∀ name ∈ ["f", "s", "g", "r"], name ∉ (twin "g" []).arguments ∧ isReserved name = false := by decide +kernel
  obtain ⟨query, after, ran, -⟩ := Environment.returns_ok returns
  refine ⟨query, after, ran, Environment.plan_collects Environment.counting_standard (twin_built rfl) ?_ ?_ ran⟩
  · exact fun connection member name exposes => (free name (twin_exposed connection member name exposes)).1
  · exact fun connection member name exposes => (free name (twin_exposed connection member name exposes)).2

/-- The second of the loops collects no nodes and solves no condition. -/
private def leavesOut (arena : Arena Nat) : Plan → Bool
  | .trail id parameters _ _ => decide (parameters.innerStart = "n") || decide (parameters.innerStart = "m") ||
    parameters.groupNodes.isEmpty && (arena.solved id).isEmpty
  | _ => false

/-- A group that is named like the end of a loop counts as bound above that loop. The condition on it is placed there, and the group
is left out. -/
theorem twin_left_out : Environment.counting.StandardLeaves ∧
    (∀ pattern, .quantified pattern ∈ (twin "  trail_end_0" [.literal (.boolean true)]).connections →
      ∃ draft : QuantifiedDraft, draft.build = .ok pattern) ∧
    (∀ connection ∈ (twin "  trail_end_0" [.literal (.boolean true)]).connections, ∀ name ∈ connection.exposed,
      name ∉ (twin "  trail_end_0" [.literal (.boolean true)]).arguments) ∧
    ∃ query after, Environment.counting.plan (twin "  trail_end_0" [.literal (.boolean true)]) (.initial false) = .ok query after ∧
      ∀ operators, ¬ query.Collects (twin "  trail_end_0" [.literal (.boolean true)]) operators := by
  have returns : Environment.counting.returns (twin "  trail_end_0" [.literal (.boolean true)])
      (fun query => query.root.expansions.all (leavesOut query.arena)) = true := by decide +kernel
  have free : ∀ name ∈ ["f", "s", "  trail_end_0", "r"], name ∉ (twin "  trail_end_0" []).arguments := by decide +kernel
  obtain ⟨query, after, ran, accepted⟩ := Environment.returns_ok returns
  refine ⟨Environment.counting_standard, twin_built rfl,
    fun connection member name exposes => free name (twin_exposed connection member name exposes), query, after, ran, ?_⟩
  intro operators collects
  obtain ⟨operator, placed, realises⟩ := operator_at collects.realises 1 rfl
  have out := List.all_eq_true.mp accepted operator (collects.expansions.subset (List.mem_of_getElem? placed))
  cases realises with
  | collapsed | pruned | breadthFirst => cases out
  | @looped _ direction parameters id input inner loops ends =>
    have other : parameters.innerStart = "x" ∨ parameters.innerStart = "y" := by
      rw [loops.innerStart]
      cases direction
      exacts [.inl rfl, .inr rfl]
    obtain ⟨empty, unsolved⟩ : parameters.groupNodes = [] ∧ query.arena.solved id = [] := by
      rcases other with start | start <;> simpa [leavesOut, start] using out
    have kept := (collects.loops 1 _ id parameters input inner rfl placed).nodes ⟨"x", "  trail_end_0"⟩ List.mem_cons_self
    rw [empty, unsolved] at kept
    have asked : Expression.equals (.property "  trail_end_0" "p") (.literal (.integer 1)) ∈
        (twin "  trail_end_0" [.literal (.boolean true)]).whereAtoms := List.mem_cons_of_mem _ List.mem_cons_self
    exact List.not_mem_nil (kept.mpr (.inr (.inl ⟨_, asked, by decide +kernel, List.not_mem_nil⟩)))

end MatchGraph

end MatchPlanner
