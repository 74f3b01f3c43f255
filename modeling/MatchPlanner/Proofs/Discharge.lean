import MatchPlanner.Proofs.Realisation

/-! Checks that a loop makes by itself. A check is discharged by a loop exactly when the loop lists the other variable, and then
the loop does filter every step that could violate it. -/

namespace MatchPlanner

namespace TypeSet

theorem overlap_comm (first second : TypeSet) : first.overlap second = second.overlap first := by
  have swapped : ∀ {first second : NameSet}, first.disjoint second = true → second.disjoint first = true := by
    intro first second apart
    rw [NameSet.disjoint_iff] at apart ⊢
    intro name late early
    exact apart name early late
  cases first <;> cases second
  case some.some first second => exact congrArg not (Bool.eq_iff_iff.mpr ⟨swapped, swapped⟩)
  all_goals rfl

end TypeSet

theorem RelationshipProducer.clashes_comm (first second : RelationshipProducer) : first.clashes second = second.clashes first := by
  rw [clashes, clashes, TypeSet.overlap_comm, bne_comm]

/-- What overlaps the types of one relationship overlaps the types of the pattern. -/
theorem QuantifiedPattern.overlap_typeSet {pattern : QuantifiedPattern} {relationship : PatternRelationship} {types : TypeSet}
    (member : relationship ∈ pattern.relationships) (overlap : relationship.typeSet.overlap types = true) :
    pattern.typeSet.overlap types = true := by
  unfold QuantifiedPattern.typeSet
  split
  · rfl
  next typed =>
    have some : relationship.types.isEmpty = false :=
      Bool.eq_false_iff.mpr fun any => typed (List.any_eq_true.mpr ⟨relationship, member, any⟩)
    cases types with
    | none => rfl
    | some types =>
      simp only [PatternRelationship.typeSet, TypeSet.ofList, some, Bool.false_eq_true, ↓reduceIte, TypeSet.overlap,
        Bool.not_eq_true'] at overlap ⊢
      refine Bool.eq_false_iff.mpr fun apart => Bool.eq_false_iff.mp overlap ?_
      rw [NameSet.disjoint_iff] at apart ⊢
      intro name here
      exact apart name (NameSet.mem_ofList.mpr (List.mem_flatMap.mpr ⟨relationship, member, NameSet.mem_ofList.mp here⟩))

theorem QuantifiedPattern.relationship_of_producer {pattern : QuantifiedPattern} {index : Nat} {producer : RelationshipProducer}
    (member : producer ∈ Connection.producers index (.quantified pattern)) : ∃ relationship ∈ pattern.relationships,
      pattern.relationshipGroup? relationship.name = some producer.name ∧ producer = ⟨index, producer.name, .list, relationship.typeSet⟩ := by
  obtain ⟨relationship, among, grouped⟩ := List.mem_filterMap.mp member
  obtain ⟨group, found, rfl⟩ := Option.map_eq_some_iff.mp grouped
  exact ⟨relationship, among, found, rfl⟩

/-- A loop has the variable of another producer among those bound before. -/
def Plan.Lists (other : RelationshipProducer) : Plan → Prop
  | .trail _ parameters _ _ => other.name ∈ parameters.listed other.form
  | _ => False

/-- A loop filters the step that binds a producer of its pattern against another producer, which its input binds. -/
def Plan.KeepsClear (pattern : QuantifiedPattern) (own other : RelationshipProducer) : Plan → Prop
  | .trail _ parameters input inner => other.name ∈ input.available ∧ other.name ∈ parameters.listed other.form ∧
    ∃ direction, ∃ step ∈ pattern.steps direction, pattern.relationshipGroup? step.relationship = some own.name ∧
      inner.FiltersStep step (step.checkAgainst other)
  | _ => False

theorem Plan.KeepsClear.lists {pattern : QuantifiedPattern} {own other : RelationshipProducer} {plan : Plan}
    (keeps : plan.KeepsClear pattern own other) : plan.Lists other := by
  cases plan with
  | trail => exact keeps.2.1
  | leaf | step | join => exact keeps.elim

section

variable {ν : Type} {environment : Environment ν} {arena : Arena ν} {graph : MatchGraph} {plan : Plan} {assigned : Assignment}
  {account : Account}

/-- An operator that may take checks over is a loop that filters the steps of each. -/
theorem PatternPlanned.keepsClear {source operator : Plan} {request : QuantifiedRequest} {index : Nat}
    {own other : RelationshipProducer} (planned : PatternPlanned environment arena source request operator plan true)
    (mine : own ∈ Connection.producers index (.quantified request.pattern)) (sibling : other ∈ request.siblings)
    (bound : other.name ∈ source.available) (overlap : own.types.overlap other.types = true) :
    operator.KeepsClear request.pattern own other := by
  cases planned with
  | @looped direction finish id inner _ kept possible built recorded ended =>
    obtain ⟨relationship, among, grouped, same⟩ := QuantifiedPattern.relationship_of_producer mine
    have types : relationship.typeSet.overlap other.types = true := by
      rw [same] at overlap
      exact overlap
    have listed : other.name ∈ (request.trail source direction).boundNames other.form :=
      TrailRequest.mem_boundNames.mpr ⟨other, sibling, rfl, rfl, bound, QuantifiedPattern.overlap_typeSet among types⟩
    obtain ⟨step, taken, name, traversed, -⟩ := QuantifiedPattern.step_of_relationship direction among
    refine ⟨bound, by rwa [TrailRequest.listed_parameters], direction, step, taken, name ▸ grouped, ?_⟩
    refine built.filters step taken _ (List.mem_map_of_mem (List.mem_filter.mpr ⟨?_, ?_⟩))
    · exact QuantifiedRequest.mem_checked.mpr ⟨sibling, listed⟩
    · rwa [TrailStep.typeSet, traversed]

theorem PatternPlanned.bound_of_lists {source operator : Plan} {request : QuantifiedRequest} {discharged : Bool}
    {other : RelationshipProducer} (planned : PatternPlanned environment arena source request operator plan discharged)
    (lists : operator.Lists other) : discharged = true ∧ other.name ∈ source.available := by
  cases planned with
  | collapsed => exact lists.elim
  | looped =>
    simp only [Plan.Lists, TrailRequest.listed_parameters] at lists
    obtain ⟨-, -, -, -, bound, -⟩ := TrailRequest.mem_boundNames.mp lists
    exact ⟨rfl, bound⟩

theorem overlap_of_own {obligation : UniquenessObligation} {index : Nat} {own other : RelationshipProducer}
    (member : obligation ∈ graph.obligations) (mine : obligation.own? index = some own)
    (theirs : obligation.counterpart? index = some other) : own.types.overlap other.types = true := by
  have clashes := (UniquenessObligation.mem_ofProducers member).2.2.2
  simp only [RelationshipProducer.clashes, Bool.and_eq_true] at clashes
  obtain ⟨-, ⟨rfl, rfl⟩ | ⟨rfl, rfl⟩⟩ := UniquenessObligation.own_cases mine theirs
  · exact clashes.2
  · exact TypeSet.overlap_comm _ _ ▸ clashes.2

/-- An open check of a connection is one against a producer that clashes with one of its own. -/
theorem Ledger.clash_of_obligation {ledger : Ledger} (known : ledger ⊆ Ledger.ofGraph graph) {index : Nat} {connection : Connection}
    (found : graph.connections[index]? = some connection) {entry : LedgerEntry} {own other : RelationshipProducer}
    (concern : (entry, own, other) ∈ ledger.obligationsOf index) :
    own ∈ connection.producers index ∧ other ∈ graph.producers ∧ own.clashes other = true := by
  obtain ⟨present, obligation, checks, mine, theirs⟩ := Ledger.mem_obligationsOf.mp concern
  obtain ⟨obliged, -⟩ := producers_of_entry (known present) checks
  obtain ⟨-, first, second, clashes⟩ := UniquenessObligation.mem_ofProducers obliged
  obtain ⟨rfl, produces⟩ := own_mem_producers obliged mine theirs
  obtain ⟨declared, same, among⟩ := MatchGraph.mem_producers.mp produces
  cases found.symm.trans same
  refine ⟨among, ?_⟩
  obtain ⟨-, ⟨rfl, rfl⟩ | ⟨rfl, rfl⟩⟩ := UniquenessObligation.own_cases mine theirs
  · exact ⟨second, clashes⟩
  · exact ⟨first, RelationshipProducer.clashes_comm _ _ ▸ clashes⟩

/-- A planned loop makes the check of an entry. -/
def Assignment.Makes (graph : MatchGraph) (assigned : Assignment) (entry : LedgerEntry) : Prop :=
  ∃ obligation index own other pattern operator, entry.obligation = some obligation ∧ obligation.own? index = some own ∧
    obligation.counterpart? index = some other ∧ graph.connections[index]? = some (.quantified pattern) ∧
    (index, operator) ∈ assigned ∧ operator.KeepsClear pattern own other

theorem Assignment.Makes.grow {more : Assignment} {entry : LedgerEntry} (makes : assigned.Makes graph entry)
    (subset : assigned ⊆ more) : more.Makes graph entry := by
  obtain ⟨obligation, index, own, other, pattern, operator, checks, mine, theirs, declared, member, keeps⟩ := makes
  exact ⟨obligation, index, own, other, pattern, operator, checks, mine, theirs, declared, subset member, keeps⟩

/-- Every check taken over from the ledger is made by a loop. -/
theorem Assembled.makes (assembled : Assembled environment arena graph plan assigned account) :
    ∀ entry ∈ account.discharged, assigned.Makes graph entry := by
  induction assembled with
  | argument =>
    intro _ impossible
    exact absurd impossible (Multiset.notMem_zero _)
  | scan declared scan =>
    cases scan
    intro _ impossible
    exact absurd impossible (Multiset.notMem_zero _)
  | placed below ready filtered further => simpa using further
  | relationship below declared touches recorded further =>
    intro entry member
    exact (further entry member).grow (List.subset_append_left _ _)
  | @quantified index pattern ledger done operator input plan discharged assigned account below declared fresh opened chosen
      further =>
    intro entry member
    rcases Multiset.mem_add.mp member with before | here
    · exact (further entry before).grow (List.subset_append_left _ _)
    · obtain ⟨rfl, -, among⟩ := (QuantifiedSite.mem_taken opened.known (pattern.dischargeable_subset _ _ _)).mp here
      obtain ⟨own, other, concern, bound⟩ := QuantifiedPattern.mem_dischargeable.mp among
      obtain ⟨present, obligation, checks, mine, theirs⟩ := Ledger.mem_obligationsOf.mp concern
      obtain ⟨known, -⟩ := producers_of_entry (opened.known.subset present) checks
      obtain ⟨rfl, producer⟩ := own_mem_producers known mine theirs
      obtain ⟨connection, found, produces⟩ := MatchGraph.mem_producers.mp producer
      cases declared.symm.trans found
      exact ⟨obligation, own.connection, own, other, pattern, operator, checks, mine, theirs, declared,
        List.mem_append_right _ List.mem_cons_self,
        chosen.keepsClear produces (QuantifiedPattern.mem_siblings.mpr ⟨entry, own, concern, bound⟩) bound
          (overlap_of_own known mine theirs)⟩
  | joined below declared simple oriented nearBound farFree scan further =>
    cases scan
    intro entry member
    rcases Multiset.mem_add.mp member with before | impossible
    · exact (further entry before).grow (List.subset_append_left _ _)
    · exact absurd impossible (Multiset.notMem_zero _)
  | product below beside former latter =>
    intro entry member
    rcases Multiset.mem_add.mp member with first | second
    · exact (former entry first).grow (List.subset_append_left _ _)
    · exact (latter entry second).grow (List.subset_append_right _ _)

/-- The entry checks variables the graph owns, and the loop of a connection lists the variable on the other side. -/
def Assignment.ListedFor (graph : MatchGraph) (assigned : Assignment) (entry : LedgerEntry) : Prop :=
  ∃ obligation index own other operator, entry.obligation = some obligation ∧ obligation.own? index = some own ∧
    obligation.counterpart? index = some other ∧ graph.Owns own.name ∧ graph.Owns other.name ∧
    (index, operator) ∈ assigned ∧ operator.Lists other

theorem Assignment.ListedFor.of_append {more : Assignment} {entry : LedgerEntry}
    (listed : Assignment.ListedFor graph (assigned ++ more) entry) :
    assigned.ListedFor graph entry ∨ more.ListedFor graph entry := by
  obtain ⟨obligation, index, own, other, operator, checks, mine, theirs, owned, free, member, lists⟩ := listed
  exact (List.mem_append.mp member).imp
    (fun early => ⟨obligation, index, own, other, operator, checks, mine, theirs, owned, free, early, lists⟩)
    fun late => ⟨obligation, index, own, other, operator, checks, mine, theirs, owned, free, late, lists⟩

private theorem listedFor_singleton {index : Nat} {operator : Plan} {entry : LedgerEntry}
    (listed : Assignment.ListedFor graph [(index, operator)] entry) : ∃ other, operator.Lists other := by
  obtain ⟨_, _, _, other, _, _, _, _, _, _, member, lists⟩ := listed
  cases List.mem_singleton.mp member
  exact ⟨other, lists⟩

/-- A check that a loop could make has been left to it. -/
theorem Assembled.left_to_loop (assembled : Assembled environment arena graph plan assigned account) :
    ∀ entry ∈ Ledger.ofGraph graph, assigned.ListedFor graph entry → entry ∈ account.discharged := by
  induction assembled with
  | argument | scan =>
    rintro entry known ⟨_, _, _, _, _, _, _, _, _, _, impossible, _⟩
    exact absurd impossible List.not_mem_nil
  | placed below ready filtered further => simpa using further
  | relationship below declared touches recorded further =>
    intro entry known listed
    rcases listed.of_append with before | here
    · exact further entry known before
    · obtain ⟨other, lists⟩ := listedFor_singleton here
      exact lists.elim
  | @quantified index pattern ledger done operator input plan discharged assigned account below declared fresh opened chosen
      further =>
    intro entry known listed
    refine Multiset.mem_add.mpr (listed.of_append.imp (further entry known) ?_)
    rintro ⟨obligation, position, own, other, operator, checks, mine, theirs, owned, free, member, lists⟩
    cases List.mem_singleton.mp member
    obtain ⟨rfl, bound⟩ := chosen.bound_of_lists lists
    obtain ⟨obliged, -, -, predicate⟩ := producers_of_entry known checks
    -- The connection is not planned yet, so its checks wait for it and no filter has taken them.
    have awaits : graph.Awaits done entry := by
      obtain ⟨rfl, producer⟩ := own_mem_producers obliged mine theirs
      obtain ⟨connection, found, produces⟩ := MatchGraph.mem_producers.mp producer
      refine ⟨own.name, ?_, owned, own.connection, connection, found, fresh, MatchGraph.exposed_of_producer produces⟩
      rw [LedgerEntry.dependencies, predicate, RelationshipProducer.mem_dependencies_distinctness]
      obtain ⟨-, ⟨rfl, rfl⟩ | ⟨rfl, rfl⟩⟩ := UniquenessObligation.own_cases mine theirs
      exacts [.inl rfl, .inr rfl]
    have present := opened.awaiting entry known awaits
    have remains : entry ∈ ledger.solve ((pattern.site graph index input.available ledger).request.sorted input).solved := by
      have split : entry ∈ (ledger : Multiset LedgerEntry) := present
      rw [ledger.solve_split, Multiset.mem_add] at split
      refine split.resolve_right fun taken => ?_
      have plain := plain_of_taken QuantifiedPattern.solved_plain taken
      rw [predicate, RelationshipProducer.isCheck_distinctness] at plain
      cases plain
    refine (QuantifiedSite.mem_taken opened.known (pattern.dischargeable_subset _ _ _)).mpr ⟨rfl, remains, ?_⟩
    exact QuantifiedPattern.mem_dischargeable.mpr
      ⟨own, other, Ledger.mem_obligationsOf.mpr ⟨present, obligation, checks, mine, theirs⟩, bound⟩
  | joined below declared simple oriented nearBound farFree scan further =>
    intro entry known listed
    rcases listed.of_append with before | here
    · exact Multiset.mem_add.mpr (.inl (further entry known before))
    · obtain ⟨other, lists⟩ := listedFor_singleton here
      exact lists.elim
  | product below beside former latter =>
    intro entry known listed
    exact Multiset.mem_add.mpr (listed.of_append.imp (former entry known) (latter entry known))

/-! In terms of the operators that realise the connections. -/

/-- The loop that realises the connection of a producer keeps it clear of another producer. -/
def MatchGraph.KeptClear (graph : MatchGraph) (operators : List Plan) (own other : RelationshipProducer) : Prop :=
  ∃ pattern operator, graph.connections[own.connection]? = some (.quantified pattern) ∧
    operators[own.connection]? = some operator ∧ operator.KeepsClear pattern own other

def MatchGraph.KeptApart (graph : MatchGraph) (operators : List Plan) (first second : RelationshipProducer) : Prop :=
  graph.KeptClear operators first second ∨ graph.KeptClear operators second first

theorem Assignment.Makes.keptApart {operators : List Plan} {entry : LedgerEntry} (makes : assigned.Makes graph entry)
    (arranges : assigned.Arranges operators) : ∃ obligation, entry.obligation = some obligation ∧
      graph.KeptApart operators obligation.first obligation.second := by
  obtain ⟨obligation, index, own, other, pattern, operator, checks, mine, theirs, declared, member, keeps⟩ := makes
  refine ⟨obligation, checks, ?_⟩
  have found := (arranges index operator).mpr member
  obtain ⟨rfl, ⟨rfl, rfl⟩ | ⟨rfl, rfl⟩⟩ := UniquenessObligation.own_cases mine theirs
  exacts [.inl ⟨pattern, operator, declared, found, keeps⟩, .inr ⟨pattern, operator, declared, found, keeps⟩]

/-- A pair that a loop keeps apart has its check left to a loop. -/
theorem Assembled.discharged_of_keptApart {operators : List Plan} {entry : LedgerEntry} {obligation : UniquenessObligation}
    (assembled : Assembled environment arena graph plan assigned account) (arranges : assigned.Arranges operators)
    (known : entry ∈ Ledger.ofGraph graph) (checks : entry.obligation = some obligation)
    (first : graph.Owns obligation.first.name) (second : graph.Owns obligation.second.name)
    (apart : graph.KeptApart operators obligation.first obligation.second) : entry ∈ account.discharged := by
  apply assembled.left_to_loop entry known
  have different := UniquenessObligation.connections_ne (producers_of_entry known checks).1
  rcases apart with ⟨pattern, operator, declared, found, keeps⟩ | ⟨pattern, operator, declared, found, keeps⟩
  · refine ⟨obligation, obligation.first.connection, obligation.first, obligation.second, operator, checks, ?_, ?_, first, second,
      (arranges _ operator).mp found, keeps.lists⟩
    · exact if_pos rfl
    · exact if_pos rfl
  · refine ⟨obligation, obligation.second.connection, obligation.second, obligation.first, operator, checks, ?_, ?_, second, first,
      (arranges _ operator).mp found, keeps.lists⟩
    · exact (if_neg different).trans (if_pos rfl)
    · exact (if_neg different).trans (if_pos rfl)

end

end MatchPlanner
