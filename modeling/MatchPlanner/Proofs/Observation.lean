import MatchPlanner.Proofs.Conservation

/-! What a quantified pattern leaves bound for those who read its groups later. A predicate of the clause that stays open after
the pattern is planned finds every group of the pattern it reads, and what follows the clause finds the groups it asks for. -/

namespace MatchPlanner

namespace QuantifiedPattern

variable {pattern : QuantifiedPattern} {bound : NameSet} {atom : Expression}

theorem extract?_isSome_of_same {first second : Expression} (same : first.same second = true)
    (found : (pattern.extract? bound first).isSome = true) : (pattern.extract? bound second).isSome = true := by
  obtain ⟨element, group, predicate, rfl, grouped, plain, reads⟩ := extract?_isSome.mp found
  cases second with
  | every element' list predicate' =>
    simp only [Expression.same, Bool.and_eq_true, beq_iff_eq] at same
    obtain ⟨⟨rfl, sameList⟩, samePredicate⟩ := same
    cases list with
    | reference group' =>
      simp only [Expression.same, beq_iff_eq] at sameList
      subst sameList
      refine extract?_isSome.mpr ⟨element, group, predicate', rfl, grouped, ?_, ?_⟩
      · rw [← Expression.runsSubquery_of_same samePredicate, plain]
      · rwa [← Expression.dependencies_of_same samePredicate]
    | _ => simp [Expression.same] at sameList
  | _ => simp [Expression.same] at same

/-! What stays open. -/

variable {graph : MatchGraph} {index : Nat} {ledger : Ledger} {entry : LedgerEntry}

/-- Of the atoms that read a group, all copies of those taken over leave the ledger. -/
theorem extract?_of_mem_solve (known : List.Sublist ledger (Ledger.ofGraph graph))
    (member : entry ∈ ledger.solve (pattern.classify (pattern.site graph index bound ledger).request.outer bound).solved)
    (reads : entry.reads (NameSet.ofList pattern.groups) = true) : pattern.extract? bound entry.predicate = none := by
  by_contra extracted
  have found : (pattern.extract? bound entry.predicate).isSome = true := Option.isSome_iff_ne_none.mpr extracted
  -- Copies of the predicate: none is lost on the way from the ledger to the predicates solved, so none stays behind.
  have gathered : entry.predicate.copies ledger.predicates ≤
      entry.predicate.copies (pattern.classify (pattern.site graph index bound ledger).request.outer bound).solved := by
    simp only [solved_eq, Expression.copies, site, List.partition_eq_filter_filter, List.countP_filter, Ledger.predicates,
      List.countP_map]
    apply List.countP_mono_left
    intro other among same
    have alike : entry.predicate.same other.predicate = true := same
    have taken := extract?_isSome_of_same alike found
    have atom : other.isAtom = true := by
      obtain ⟨obligation, checks⟩ | none := (Option.eq_none_or_eq_some other.obligation).symm
      · obtain ⟨-, -, -, predicate⟩ := producers_of_entry (known.subset among) checks
        obtain ⟨_, _, _, every, -⟩ := extract?_isSome.mp taken
        rw [every] at predicate
        have check := congrArg Expression.isCheck predicate
        rw [RelationshipProducer.isCheck_distinctness] at check
        cases check
      · rw [LedgerEntry.isAtom, none]
        rfl
    have touches : other.dependencies.disjoint (NameSet.ofList pattern.groups) = false := by
      rw [LedgerEntry.dependencies, ← Expression.dependencies_of_same alike]
      exact (Bool.not_eq_true' _).mp (Bool.and_eq_true_iff.mp reads).2
    simp [alike, taken, atom, touches, LedgerEntry.reads]
  have solved : Expression.classes (pattern.classify (pattern.site graph index bound ledger).request.outer bound).solved ≤
      Expression.classes ledger.predicates :=
    Expression.classes_le (solved_sublist.trans (pattern.site_outer graph index bound ledger)).subperm
  have kinds := Ledger.kinds_taken solved
  rw [← Ledger.classes_predicates] at kinds
  have split := congrArg (Multiset.map LedgerEntry.kind) (ledger.solve_split
    (pattern.classify (pattern.site graph index bound ledger).request.outer bound).solved)
  rw [Multiset.map_add, ← Ledger.classes_predicates, ← Ledger.classes_predicates, ← Ledger.classes_predicates,
    ← Expression.classes_append] at split
  have counted : entry.predicate.copies _ = _ := Expression.copies_eq_of_classes split
  rw [Expression.copies_append, Expression.copies_eq_of_classes kinds] at counted
  have remaining : 0 < entry.predicate.copies
      (ledger.solve (pattern.classify (pattern.site graph index bound ledger).request.outer bound).solved).predicates :=
    List.countP_pos_iff.mpr ⟨entry.predicate, List.mem_map_of_mem member, Expression.same_refl _⟩
  omega

end QuantifiedPattern

/-! What is bound. -/

/-- No relationship of the pattern is collected under two names. -/
def QuantifiedPattern.GroupsOnce (pattern : QuantifiedPattern) : Prop :=
  (pattern.relationshipGroupings.map Grouping.singleton).Nodup

theorem QuantifiedPattern.GroupsOnce.group {pattern : QuantifiedPattern} {grouping : Grouping} {name : String}
    (once : pattern.GroupsOnce) (member : grouping ∈ pattern.relationshipGroupings) (found : pattern.relationshipGroup?
      grouping.singleton = some name) : grouping.group = name := by
  obtain ⟨first, searched, rfl⟩ := Option.map_eq_some_iff.mp found
  have same : first.singleton = grouping.singleton := by simpa using List.find?_some searched
  rw [List.inj_on_of_nodup_map once (List.mem_of_find?_eq_some searched) member same]

/-- A pattern of one relationship that is collected once has one group. -/
theorem QuantifiedPattern.GroupsOnce.only {pattern : QuantifiedPattern} (once : pattern.GroupsOnce) (formed : pattern.WellFormed)
    {relationship : PatternRelationship} (single : pattern.relationships = [relationship]) {group : String}
    (grouped : pattern.relationshipGroup? relationship.name = some group) : ∀ name ∈ pattern.relationshipGroups, name = group := by
  intro name among
  obtain ⟨grouping, member, rfl⟩ := List.mem_map.mp among
  have inside : grouping.singleton = relationship.name := by
    simpa [relationshipNames, single] using formed.relationshipMembers grouping member
  exact once.group member (by rw [inside, grouped])

theorem QuantifiedRequest.mem_needs {request : QuantifiedRequest} {source : Plan} {name : String} :
    name ∈ request.needs source ↔ (name ∈ request.downstream ∨ name ∈ (request.sorted source).postFilterDependencies ∨
      name ∈ request.retained) ∧ name ∈ request.pattern.groups := by
  simp only [needs, neededGroups, NameSet.mem_filter, NameSet.mem_union, decide_eq_true_eq, or_assoc]

section

variable {ν : Type} {environment : Environment ν} {arena : Arena ν} {graph : MatchGraph} {source operator plan : Plan}
  {request : QuantifiedRequest} {discharged : Bool} {name : String}

theorem QuantifiedRequest.mem_collapseAbove {config : PlannerConfig} {relationship : PatternRelationship} {group : String}
    {direction : TraversalDirection} {id : PlanId} (kept : group ∈ request.needs source ∨ request.siblings ≠ []) :
    group ∈ (request.collapseAbove config relationship group direction id source).available := by
  have unpruned : ∀ farBound, request.prunes config (request.needs source) group farBound = false := by
    intro farBound
    rcases kept with needed | siblings
    · simp [prunes, needed]
    · simp [prunes, siblings]
  refine Plan.mem_available_step.mpr (.inr ?_)
  rcases request.expansion_cases config (request.hop relationship direction) group
    ((request.sorted source).extracted.map ExtractedPredicate.element)
    (request.prunes config (request.needs source) group (decide ((request.hop relationship direction).target ∈ source.available)))
    (decide ((request.hop relationship direction).target ∈ source.available)) with full | ⟨pruned, -⟩
  · rw [full]
    exact List.mem_cons_of_mem _ List.mem_cons_self
  · rw [unpruned] at pruned
    cases pruned

/-- The groups asked for are bound. A single expansion has one group to offer, so the pattern must not ask for another. -/
theorem PatternPlanned.supplies (planned : PatternPlanned environment arena source request operator plan discharged)
    (formed : request.pattern.WellFormed) (once : request.pattern.GroupsOnce) (needed : name ∈ request.needs source) :
    name ∈ plan.available := by
  have own := (QuantifiedRequest.mem_needs.mp needed).2
  cases planned with
  | @collapsed direction relationship others group id collapses possible relationships grouped recorded =>
    simp only [QuantifiedRequest.collapses, Bool.and_eq_true, Bool.not_eq_true', List.any_eq_false, decide_eq_true_eq] at collapses
    have among : name ∈ request.pattern.relationshipGroups :=
      (List.mem_append.mp own).resolve_left fun node => collapses.1.2 name node needed
    have single : others = [] := by simpa [QuantifiedPattern.isSingle, relationships] using collapses.1.1.1.2
    have same : name = group := once.only formed (single ▸ relationships) grouped name among
    rw [same] at needed ⊢
    exact QuantifiedRequest.mem_collapseAbove (.inl needed)
  | @looped direction finish id inner _ kept possible built recorded ended =>
    rw [ended.available, Plan.mem_available_trail]
    refine .inr (.inr ?_)
    have chosen : ∀ groupings : List Grouping, name ∈ groupsOf groupings →
        name ∈ groupsOf ((request.trail source direction).keep groupings) := by
      intro groupings among
      obtain ⟨grouping, member, rfl⟩ := List.mem_map.mp among
      exact List.mem_map_of_mem (List.mem_filter.mpr ⟨member, decide_eq_true needed⟩)
    rcases List.mem_append.mp own with node | relationship
    · exact List.mem_append_left _ (chosen _ node)
    · exact List.mem_append_right _ (chosen _ relationship)

/-- A single expansion that leaves checks to a filter binds the group they read. -/
theorem PatternPlanned.supplies_producer (planned : PatternPlanned environment arena source request operator plan false) {index : Nat}
    {own : RelationshipProducer} (mine : own ∈ Connection.producers index (.quantified request.pattern))
    (siblings : request.siblings ≠ []) : own.name ∈ plan.available := by
  cases planned with
  | @collapsed direction relationship others group id collapses possible relationships grouped recorded =>
    obtain ⟨producing, among, produced, -⟩ := QuantifiedPattern.relationship_of_producer mine
    simp only [QuantifiedRequest.collapses, Bool.and_eq_true] at collapses
    have single : others = [] := by simpa [QuantifiedPattern.isSingle, relationships] using collapses.1.1.1.2
    rw [relationships, single, List.mem_singleton] at among
    rw [among, grouped] at produced
    cases produced
    exact QuantifiedRequest.mem_collapseAbove (.inr siblings)

/-- Something reads the variable: what follows the clause, or a predicate that is still open. -/
def MatchGraph.Observed (graph : MatchGraph) (ledger : Ledger) (name : String) : Prop :=
  name ∈ graph.required ∨ ∃ entry ∈ ledger, name ∈ entry.dependencies

theorem MatchGraph.Observed.mono {ledger later : Ledger} (observed : graph.Observed later name) (subset : later ⊆ ledger) :
    graph.Observed ledger name :=
  observed.imp_right fun ⟨entry, member, reads⟩ => ⟨entry, subset member, reads⟩

/-- A check that reads a variable of a connection has that variable as the producer of the connection. -/
theorem own_of_reads (valid : graph.Valid) {entry : LedgerEntry} {obligation : UniquenessObligation}
    (member : entry ∈ Ledger.ofGraph graph) (checks : entry.obligation = some obligation) {index : Nat} {connection : Connection}
    (found : graph.connections[index]? = some connection) (exposes : name ∈ connection.exposed) (reads : name ∈ entry.dependencies) :
    ∃ own counterpart, obligation.own? index = some own ∧ obligation.counterpart? index = some counterpart ∧ own.name = name ∧
      own ∈ connection.producers index := by
  obtain ⟨among, first, second, predicate⟩ := producers_of_entry member checks
  have located : ∀ producer ∈ graph.producers, name = producer.name →
      producer.connection = index ∧ producer ∈ connection.producers index := by
    rintro producer known rfl
    obtain ⟨other, also, produces⟩ := MatchGraph.mem_producers.mp known
    have same := MatchGraph.exposed_once valid also found (MatchGraph.exposed_of_producer produces) exposes
    rw [same] at also produces
    cases found.symm.trans also
    exact ⟨same, produces⟩
  rw [LedgerEntry.dependencies, predicate, RelationshipProducer.mem_dependencies_distinctness] at reads
  rcases reads with one | other
  · obtain ⟨same, produces⟩ := located _ first one
    exact ⟨_, _, if_pos same, if_pos same, one.symm, produces⟩
  · obtain ⟨same, produces⟩ := located _ second other
    have different : obligation.first.connection ≠ index := same ▸ UniquenessObligation.connections_ne among
    exact ⟨_, _, by rw [UniquenessObligation.own?, if_neg different, if_pos same],
      by rw [UniquenessObligation.counterpart?, if_neg different, if_pos same], other.symm, produces⟩

/-- Once a pattern is planned, whatever of its groups is still read is bound. -/
theorem PatternPlanned.supplies_observed (valid : graph.Valid) {index : Nat} {pattern : QuantifiedPattern} {ledger : Ledger}
    (found : graph.connections[index]? = some (.quantified pattern)) (formed : pattern.WellFormed) (once : pattern.GroupsOnce)
    (known : List.Sublist ledger (Ledger.ofGraph graph))
    (planned : PatternPlanned environment arena source (pattern.site graph index source.available ledger).request operator plan
      discharged) (member : name ∈ pattern.groups)
    (observed : graph.Observed ((pattern.site graph index source.available ledger).remaining ledger
      ((pattern.site graph index source.available ledger).request.sorted source).solved discharged) name) :
    name ∈ plan.available := by
  have supplies := fun needed => planned.supplies formed once (QuantifiedRequest.mem_needs.mpr ⟨needed, member⟩)
  rcases observed with required | ⟨entry, remains, reads⟩
  · exact supplies (.inl (NameSet.mem_union.mpr (.inl required)))
  have unsolved : entry ∈ ledger.solve ((pattern.site graph index source.available ledger).request.sorted source).solved := by
    unfold QuantifiedSite.remaining at remains
    split at remains
    · exact (List.mem_filter.mp remains).1
    · exact remains
  have present := (ledger.solve_sublist _).subset unsolved
  cases checks : entry.obligation with
  | none =>
    have touches : entry.reads (NameSet.ofList pattern.groups) = true := by
      have shared : entry.dependencies.disjoint (NameSet.ofList pattern.groups) = false := by
        refine Bool.eq_false_iff.mpr fun apart => ?_
        exact NameSet.disjoint_iff.mp apart name reads (NameSet.mem_ofList.mpr member)
      simp [LedgerEntry.reads, LedgerEntry.isAtom, checks, shared]
    have kept := QuantifiedPattern.extract?_of_mem_solve known unsolved touches
    refine supplies (.inr (.inl (Expression.mem_dependenciesOf.mpr ⟨entry.predicate, List.mem_filter.mpr ⟨?_, ?_⟩, reads⟩)))
    · simp only [QuantifiedPattern.site, List.partition_eq_filter_filter]
      exact List.mem_map_of_mem (List.mem_filter.mpr ⟨List.mem_filter.mpr ⟨present, by simp [LedgerEntry.isAtom, checks]⟩, touches⟩)
    · exact Option.isNone_iff_eq_none.mpr kept
  | some obligation =>
    obtain ⟨own, counterpart, mine, theirs, rfl, produces⟩ := own_of_reads valid (known.subset present) checks found member reads
    have concern : (entry, own, counterpart) ∈ ledger.obligationsOf index :=
      Ledger.mem_obligationsOf.mpr ⟨present, obligation, checks, mine, theirs⟩
    by_cases settled : counterpart.name ∈ source.available
    · cases discharged with
      | true =>
        -- The loop takes the check over, so it is no longer open.
        have taken : entry ∈ (pattern.site graph index source.available ledger).dischargeable :=
          QuantifiedPattern.mem_dischargeable.mpr ⟨own, counterpart, concern, settled⟩
        have left := (List.mem_filter.mp remains).2
        simp only [Bool.not_eq_true', List.any_eq_false, beq_iff_eq] at left
        exact absurd rfl (left entry taken)
      | false =>
        have sibling : counterpart ∈ (pattern.site graph index source.available ledger).request.siblings :=
          QuantifiedPattern.mem_siblings.mpr ⟨entry, own, concern, settled⟩
        exact planned.supplies_producer produces (List.ne_nil_of_mem sibling)
    · refine supplies (.inr (.inr ?_))
      simp only [QuantifiedPattern.site, List.partition_eq_filter_filter, NameSet.mem_ofList, List.mem_map, List.mem_filter,
        Function.comp_apply]
      exact ⟨_, ⟨concern, by simpa using settled⟩, rfl⟩

end

end MatchPlanner
