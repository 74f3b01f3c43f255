import MatchPlanner.Proofs.Conservation
import MatchPlanner.Proofs.Pairs

/-! Two connections never bind the same relationship: every pair of variables that could is kept apart by one filter or by one
loop, and no pair by both. -/

namespace MatchPlanner

/-- Sorting again what a pattern takes over changes nothing inside the repetition. -/
theorem QuantifiedPattern.innerPredicates_classify (pattern : QuantifiedPattern) (outer : List Expression) (bound : NameSet) :
    (pattern.classify (pattern.classify outer bound).solved bound).innerPredicates =
      (pattern.classify outer bound).innerPredicates := by
  have extracted : ((outer.filterMap (pattern.extract? bound)).map ExtractedPredicate.atom).filterMap (pattern.extract? bound) =
      outer.filterMap (pattern.extract? bound) := by
    rw [List.filterMap_map]
    refine (List.filterMap_congr fun extracted member => ?_).trans List.filterMap_some
    have found : extracted.atom ∈ outer ∧ pattern.extract? bound extracted.atom = some extracted := mem_extracted member
    exact found.2
  simp only [Classification.innerPredicates, Classification.solved, classify, extracted]

/-- A loop filters its steps by what its pattern asks for and by checks against one another and against some producers. -/
def Plan.StepsChecked {ν : Type} (arena : Arena ν) (graph : MatchGraph) (pattern : QuantifiedPattern) : Plan → Prop
  | .trail id parameters input inner => ∃ direction siblings, parameters.reversedGroups = direction.isReversed ∧
    (∀ sibling ∈ siblings, sibling ∈ graph.producers) ∧ inner.filterPredicates.Perm
      ((pattern.classify (arena.solved id) input.available).innerPredicates ++
        TrailStep.generated siblings [] (pattern.steps direction))
  | _ => True

/-- A loop checks no step that binds the one producer against the other, beyond what its pattern asks for and what its own steps
give rise to. -/
def Plan.Ignores {ν : Type} (arena : Arena ν) (pattern : QuantifiedPattern) (own other : RelationshipProducer) : Plan → Prop
  | .trail id parameters input inner => ∃ direction, parameters.reversedGroups = direction.isReversed ∧
    ∀ step ∈ pattern.steps direction, pattern.relationshipGroup? step.relationship = some own.name →
      (step.checkAgainst other).copies inner.filterPredicates = (step.checkAgainst other).copies
        ((pattern.classify (arena.solved id) input.available).innerPredicates ++
          TrailStep.generated [] [] (pattern.steps direction))
  | _ => True

/-- The check of two producers stands in a filter outside loops that binds both their variables. -/
def Plan.Checks (plan : Plan) (first second : RelationshipProducer) : Prop :=
  ∃ id predicates input, .step id (.filter predicates) input ∈ plan.outer ∧ first.distinctness second ∈ predicates ∧
    first.name ∈ input.available ∧ second.name ∈ input.available

namespace TrailStep

/-- Checks against siblings count for nothing when none of them is the check in question. -/
theorem copies_generated {check : Expression} {siblings : List RelationshipProducer} {steps : List TrailStep}
    (absent : ∀ step ∈ steps, ∀ made ∈ step.checksAgainstSiblings siblings, check.same made = false) (earlier : List TrailStep) :
    check.copies (generated siblings earlier steps) = check.copies (generated [] earlier steps) := by
  induction steps generalizing earlier with
  | nil => rfl
  | cons step rest further =>
    have none := Expression.copies_eq_zero (absent step List.mem_cons_self)
    rw [generated, generated, Expression.copies_append, Expression.copies_append,
      further (fun other member => absent other (List.mem_cons_of_mem _ member)), uniquenessChecks, uniquenessChecks,
      Expression.copies_append, Expression.copies_append, none]
    rfl

theorem names_of_same {step other : TrailStep} {first second : RelationshipProducer}
    (same : (step.checkAgainst first).same (other.checkAgainst second) = true) :
    step.relationship = other.relationship ∧ first.name = second.name := by
  unfold checkAgainst at same
  split at same <;> split at same
  · simpa [Expression.same, Expression.equals] using same
  · simp [Expression.same, Expression.equals, Expression.isMember] at same
  · simp [Expression.same, Expression.equals, Expression.isMember] at same
  · simpa [Expression.same, Expression.isMember] using same

end TrailStep

section

variable {ν : Type} {environment : Environment ν} {arena : Arena ν} {graph : MatchGraph} {plan : Plan} {assigned : Assignment}
  {account : Account}

theorem PatternPlanned.stepsChecked {source operator : Plan} {request : QuantifiedRequest} {discharged : Bool}
    (planned : PatternPlanned environment arena source request operator plan discharged)
    (known : ∀ sibling ∈ request.siblings, sibling ∈ graph.producers) : operator.StepsChecked arena graph request.pattern := by
  cases planned with
  | collapsed => exact trivial
  | @looped direction finish id inner _ kept possible built recorded ended =>
    refine ⟨direction, request.checked source direction finish, rfl, ?_, ?_⟩
    · intro sibling member
      exact known sibling (QuantifiedRequest.mem_checked.mp member).1
    · rw [recorded, QuantifiedRequest.sorted, QuantifiedPattern.innerPredicates_classify]
      exact built.filterPredicates

theorem Assembled.stepsChecked (assembled : Assembled environment arena graph plan assigned account) :
    ∀ entry ∈ assigned, ∀ pattern, graph.connections[entry.1]? = some (.quantified pattern) →
      entry.2.StepsChecked arena graph pattern := by
  induction assembled with
  | argument | scan =>
    intro _ impossible
    exact absurd impossible List.not_mem_nil
  | placed below ready filtered further => exact further
  | relationship below declared touches recorded further =>
    intro entry member pattern found
    rcases List.mem_append.mp member with before | here
    · exact further entry before pattern found
    · cases List.mem_singleton.mp here
      cases declared.symm.trans found
  | quantified below declared fresh opened chosen further =>
    intro entry member pattern found
    rcases List.mem_append.mp member with before | here
    · exact further entry before pattern found
    · cases List.mem_singleton.mp here
      cases declared.symm.trans found
      apply chosen.stepsChecked
      intro sibling beside
      obtain ⟨_, _, concern, -⟩ := QuantifiedPattern.mem_siblings.mp beside
      exact (Ledger.clash_of_obligation opened.known.subset found concern).2.1
  | joined below declared simple oriented nearBound farFree scan further =>
    intro entry member pattern found
    rcases List.mem_append.mp member with before | here
    · exact further entry before pattern found
    · cases List.mem_singleton.mp here
      exact trivial
  | product below beside former latter =>
    intro entry member pattern found
    rcases List.mem_append.mp member with first | second
    · exact former entry first pattern found
    · exact latter entry second pattern found

/-- The loop of a pattern does not check a step against what its relationship cannot clash with. -/
theorem Plan.StepsChecked.ignores {operator : Plan} {pattern : QuantifiedPattern} {own other : RelationshipProducer}
    (checked : operator.StepsChecked arena graph pattern) (valid : graph.Valid)
    (formed : ∀ pattern, .quantified pattern ∈ graph.connections → pattern.WellFormed)
    (declared : graph.connections[own.connection]? = some (.quantified pattern)) (mine : own ∈ graph.producers)
    (theirs : other ∈ graph.producers) (apart : own.types.overlap other.types = false) : operator.Ignores arena pattern own other := by
  have wellFormed := formed pattern (List.mem_of_getElem? declared)
  cases operator with
  | leaf | step | join => exact trivial
  | trail id parameters input inner =>
    obtain ⟨direction, siblings, reversed, known, filters⟩ := checked
    refine ⟨direction, reversed, fun step taken grouped => ?_⟩
    rw [Expression.copies, filters.countP_eq, ← Expression.copies, Expression.copies_append, Expression.copies_append,
      TrailStep.copies_generated]
    intro another among made member
    obtain ⟨sibling, clashing, rfl⟩ := List.mem_map.mp member
    obtain ⟨beside, overlap⟩ := List.mem_filter.mp clashing
    apply Bool.eq_false_iff.mpr
    intro same
    obtain ⟨name, called⟩ := TrailStep.names_of_same same
    cases MatchGraph.eq_of_name (MatchGraph.producers_pairwise valid formed) theirs (known sibling beside) called
    obtain ⟨connection, found, produces⟩ := MatchGraph.mem_producers.mp mine
    cases declared.symm.trans found
    obtain ⟨relationship, inside, group, producer⟩ := QuantifiedPattern.relationship_of_producer produces
    obtain ⟨traversed, alsoInside, named, types⟩ := QuantifiedPattern.relationship_of_step among
    have equal : traversed = relationship := by
      apply List.inj_on_of_nodup_map wellFormed.distinctNames alsoInside inside
      rw [← named, ← name]
      exact QuantifiedPattern.eq_of_relationshipGroup? wellFormed.distinctGroups.of_append_right grouped group
    rw [producer] at apart
    rw [TrailStep.typeSet, types, equal] at overlap
    exact Bool.false_ne_true (apart.symm.trans overlap)

/-! Where checks stand, and how often. -/

/-- The predicate of an entry stands in a filter right above a plan that binds all it reads. -/
def Plan.Holds (plan : Plan) (entry : LedgerEntry) : Prop :=
  ∃ id predicates input, .step id (.filter predicates) input ∈ plan.outer ∧ entry.predicate ∈ predicates ∧
    entry.isReady input.available = true

theorem Plan.Holds.grow {larger : Plan} {entry : LedgerEntry} (holds : plan.Holds entry) (grows : plan.outer ⊆ larger.outer) :
    larger.Holds entry := by
  obtain ⟨id, predicates, input, member, among, ready⟩ := holds
  exact ⟨id, predicates, input, grows member, among, ready⟩

theorem Filtered.holds {input : Plan} {entries : Ledger} (filtered : Filtered input (Ledger.predicates entries) plan)
    (ready : ∀ entry ∈ entries, entry.isReady input.available = true) : ∀ entry ∈ entries, plan.Holds entry := by
  intro entry member
  have among : entry.predicate ∈ Ledger.predicates entries := List.mem_map_of_mem member
  obtain ⟨id, stands⟩ := filtered.placed among
  exact ⟨id, _, input, stands, among, ready entry member⟩

theorem Scan.holds {node : String} (scan : Scan arena graph node plan account) : ∀ entry ∈ account.filtered, plan.Holds entry := by
  cases scan with
  | scan known sound recorded ready filtered => exact filtered.holds fun entry member => (ready entry member).2

theorem Assembled.holds (assembled : Assembled environment arena graph plan assigned account) :
    ∀ entry ∈ account.filtered, plan.Holds entry := by
  induction assembled with
  | argument =>
    intro _ impossible
    exact absurd impossible (Multiset.notMem_zero _)
  | scan declared scan => exact scan.holds
  | placed below ready filtered further =>
    intro entry member
    rcases Multiset.mem_add.mp member with before | here
    · exact (further entry before).grow filtered.outer_subset
    · exact filtered.holds (fun entry among => (ready entry among).2) entry here
  | relationship below declared touches recorded further =>
    intro entry member
    exact (further entry member).grow (List.subset_cons_self ..)
  | quantified below declared fresh opened chosen further =>
    intro entry member
    exact (further entry (by simpa using member)).grow chosen.outer_subset
  | joined below declared simple oriented nearBound farFree scan further =>
    intro entry member
    rcases Multiset.mem_add.mp member with before | here
    · exact (further entry before).grow fun node inside => List.mem_cons_of_mem _ (List.mem_append_left _ inside)
    · exact (scan.holds entry here).grow fun node inside =>
        List.mem_cons_of_mem _ (List.mem_append_right _ (List.mem_cons_of_mem _ inside))
  | product below beside former latter =>
    intro entry member
    rcases Multiset.mem_add.mp member with first | second
    · exact (former entry first).grow fun node inside => List.mem_cons_of_mem _ (List.mem_append_left _ inside)
    · exact (latter entry second).grow fun node inside => List.mem_cons_of_mem _ (List.mem_append_right _ inside)

theorem Scan.solved_plain {node : String} (scan : Scan arena graph node plan account) :
    ∀ entry ∈ account.solved, entry.predicate.isCheck = false := by
  cases scan with
  | scan known sound recorded ready filtered =>
    intro entry member
    exact plain_of_taken sound.plain member

theorem Assembled.solved_plain (assembled : Assembled environment arena graph plan assigned account) :
    ∀ entry ∈ account.solved, entry.predicate.isCheck = false := by
  induction assembled with
  | argument =>
    intro _ impossible
    exact absurd impossible (Multiset.notMem_zero _)
  | scan declared scan => exact scan.solved_plain
  | placed below ready filtered further => simpa using further
  | relationship below declared touches recorded further => exact further
  | quantified below declared fresh opened chosen further =>
    intro entry member
    rcases Multiset.mem_add.mp member with before | here
    · exact further entry before
    · exact plain_of_taken QuantifiedPattern.solved_plain here
  | joined below declared simple oriented nearBound farFree scan further =>
    intro entry member
    exact (Multiset.mem_add.mp member).elim (further entry) (scan.solved_plain entry)
  | product below beside former latter =>
    intro entry member
    exact (Multiset.mem_add.mp member).elim (former entry) (latter entry)

/-- A check occurs in filters once for every atom that states it and once for every obligation left to filters. -/
theorem Assembled.copies_held {operators : List Plan} {discharged placed : List UniquenessObligation} {check : Expression}
    (assembled : Assembled environment arena graph plan assigned account) (valid : graph.Valid)
    (settled : Settled graph operators account discharged placed) (checks : check.isCheck = true) :
    check.copies (plan.gather Plan.held) =
      check.copies graph.atoms + placed.countP fun obligation => check.same obligation.predicate := by
  obtain ⟨closing, balanced⟩ := assembled.balanced valid
  obtain ⟨solved, same⟩ := Quotient.exists_rep account.solved
  rw [Multiset.quot_mk_to_coe] at same
  have absent : ∀ predicates : List Expression, (∀ predicate ∈ predicates, predicate.isCheck = false) →
      check.copies predicates = 0 := by
    intro predicates plain
    refine Expression.copies_eq_zero fun other member => Bool.eq_false_iff.mpr fun equal => ?_
    rw [Expression.isCheck_of_same equal, plain other member] at checks
    cases checks
  have equal : Expression.classes (plan.gather Plan.held ++ Ledger.predicates solved) =
      Expression.classes (graph.atoms ++ placed.map UniquenessObligation.predicate ++ closing) := by
    rw [Expression.classes_append, balanced.held, Ledger.classes_predicates, same, Expression.classes_append, ← settled.kinds,
      Multiset.map_add]
    abel
  have counted : check.copies _ = check.copies _ := Expression.copies_eq_of_classes equal
  have plain : ∀ predicate ∈ Ledger.predicates solved, predicate.isCheck = false := by
    intro predicate member
    obtain ⟨entry, among, rfl⟩ := List.mem_map.mp member
    exact assembled.solved_plain entry (same ▸ Multiset.mem_coe.mpr among)
  rw [Expression.copies_append, Expression.copies_append, Expression.copies_append, absent _ plain, absent _ balanced.plain,
    add_zero, add_zero] at counted
  rw [counted, Expression.copies, Expression.copies, List.countP_map]
  rfl

private theorem countP_single {α : Type} {values : List α} {value : α} {holds : α → Bool} (distinct : values.Nodup)
    (only : ∀ other ∈ values, holds other = true → other = value) (member : value ∈ values) (holding : holds value = true) :
    values.countP holds = 1 := by
  obtain ⟨before, after, rfl⟩ := List.append_of_mem member
  obtain ⟨once, -⟩ := List.nodup_cons.mp (List.nodup_middle.mp distinct)
  have none : (before ++ after).countP holds = 0 := by
    refine List.countP_eq_zero.mpr fun other among holding => once ?_
    have inside : other ∈ before ++ value :: after := by
      rcases List.mem_append.mp among with early | late
      exacts [List.mem_append_left _ early, List.mem_append_right _ (List.mem_cons_of_mem _ late)]
    exact only other inside holding ▸ among
  rw [List.countP_append] at none
  rw [List.countP_append, List.countP_cons_of_pos holding]
  omega

/-- Filters outside loops check a pair once more than the clause itself asks for. -/
structure MatchGraph.PlacedOnce (graph : MatchGraph) (plan : Plan) (first second : RelationshipProducer) : Prop where
  once : (first.distinctness second).copies (plan.gather Plan.held) = (first.distinctness second).copies graph.atoms + 1
  stands : plan.Checks first second

/-- Filters outside loops check a pair only as often as the clause itself asks for. -/
def MatchGraph.Unplaced (graph : MatchGraph) (plan : Plan) (first second : RelationshipProducer) : Prop :=
  (first.distinctness second).copies (plan.gather Plan.held) = (first.distinctness second).copies graph.atoms

/-- The operator of the one connection checks no step against the variable of the other. -/
def MatchGraph.Unchecked (graph : MatchGraph) (arena : Arena ν) (operators : List Plan) (own other : RelationshipProducer) : Prop :=
  ∀ pattern operator, graph.connections[own.connection]? = some (.quantified pattern) →
    operators[own.connection]? = some operator → operator.Ignores arena pattern own other

section

variable {operators : List Plan} {discharged placed : List UniquenessObligation} {first second : RelationshipProducer}

theorem Assembled.checks_of_placed (assembled : Assembled environment arena graph plan assigned account)
    (settled : Settled graph operators account discharged placed) (member : .ofPair first second ∈ placed) :
    plan.Checks first second := by
  obtain ⟨entry, among, same⟩ := settled.entries _ member
  have predicate : entry.predicate = first.distinctness second := same
  rcases Multiset.mem_add.mp among with filtered | solved
  · obtain ⟨id, predicates, input, stands, holds, ready⟩ := assembled.holds entry filtered
    have reads := NameSet.within_iff.mp ready
    simp only [LedgerEntry.dependencies, predicate, RelationshipProducer.mem_dependencies_distinctness] at reads
    exact ⟨id, predicates, input, stands, predicate ▸ holds, reads _ (.inl rfl), reads _ (.inr rfl)⟩
  · have plain := assembled.solved_plain entry solved
    rw [predicate, RelationshipProducer.isCheck_distinctness] at plain
    cases plain

/-- A pair that could clash is left either to one filter or to one loop. -/
theorem Assembled.separates (assembled : Assembled environment arena graph plan assigned account) (valid : graph.Valid)
    (ordered : graph.producers.Pairwise RelationshipProducer.Precedes)
    (settled : Settled graph operators account discharged placed) (former : first ∈ graph.producers)
    (latter : second ∈ graph.producers) (before : first.connection < second.connection) (one : graph.Owns first.name)
    (two : graph.Owns second.name) (overlap : first.types.overlap second.types = true) :
    graph.PlacedOnce plan first second ∧ ¬ graph.KeptApart operators first second ∨
      graph.Unplaced plan first second ∧ graph.KeptApart operators first second := by
  have pair := UniquenessObligation.mem_ofProducers_of_clashes ordered former latter before overlap
  have distinct : (discharged ++ placed).Nodup :=
    settled.obligations.nodup_iff.mpr (UniquenessObligation.ofProducers_nodup ordered)
  have only : ∀ obligation ∈ placed, (first.distinctness second).same obligation.predicate = true → obligation = .ofPair first second :=
    fun obligation member same => MatchGraph.obligation_of_same ordered former latter before
      (settled.obligations.subset (List.mem_append_right _ member)) same
  have copies := assembled.copies_held valid settled (RelationshipProducer.isCheck_distinctness first second)
  obtain ⟨-, distinctPlaced, disjoint⟩ := List.nodup_append.mp distinct
  rcases List.mem_append.mp (settled.obligations.symm.subset pair) with left | right
  · refine .inr ⟨copies.trans ?_, settled.apart _ left⟩
    rw [List.countP_eq_zero.mpr, add_zero]
    intro obligation member same
    exact disjoint _ left _ member (only obligation member same).symm
  · refine .inl ⟨⟨copies.trans ?_, assembled.checks_of_placed settled right⟩, settled.together _ right one two⟩
    rw [countP_single distinctPlaced only right (Expression.same_refl _)]

/-- Nothing is generated for a pair that cannot clash. -/
theorem Assembled.unplaced (assembled : Assembled environment arena graph plan assigned account) (valid : graph.Valid)
    (ordered : graph.producers.Pairwise RelationshipProducer.Precedes)
    (settled : Settled graph operators account discharged placed) (former : first ∈ graph.producers)
    (latter : second ∈ graph.producers) (before : first.connection < second.connection)
    (apart : first.types.overlap second.types = false) : graph.Unplaced plan first second := by
  apply (assembled.copies_held valid settled (RelationshipProducer.isCheck_distinctness first second)).trans
  rw [List.countP_eq_zero.mpr, add_zero]
  intro obligation member same
  have known := settled.obligations.subset (List.mem_append_right _ member)
  have clashes := (UniquenessObligation.mem_ofProducers known).2.2.2
  rw [MatchGraph.obligation_of_same ordered former latter before known same] at clashes
  simp only [UniquenessObligation.ofPair, RelationshipProducer.clashes, apart, Bool.and_false, Bool.false_eq_true] at clashes

end

/-- How a plan treats pairs of variables of different connections, given the operators that realise the connections. Two variables
that could hold the same relationship are kept apart by one filter or by one loop; nothing is generated for two that could not. -/
structure PlannedQuery.Separates (query : PlannedQuery ν) (graph : MatchGraph) (operators : List Plan) : Prop where
  expansions : operators.Perm query.root.expansions
  realises : List.Forall₂ (Realises query.root) graph.connections operators
  clashing : ∀ first ∈ graph.producers, ∀ second ∈ graph.producers, first.connection < second.connection →
    first.types.overlap second.types = true →
      graph.PlacedOnce query.root first second ∧ ¬ graph.KeptApart operators first second ∨
      graph.Unplaced query.root first second ∧ graph.KeptApart operators first second
  unrelated : ∀ first ∈ graph.producers, ∀ second ∈ graph.producers, first.connection < second.connection →
    first.types.overlap second.types = false → graph.Unplaced query.root first second ∧
      graph.Unchecked query.arena operators first second ∧ graph.Unchecked query.arena operators second first

variable [Quantity ν]

/-- A returned plan enforces that connections share no relationship, for every pair by exactly one mechanism. -/
theorem Environment.plan_separates (standard : environment.StandardLeaves)
    (built : ∀ pattern, .quantified pattern ∈ graph.connections → ∃ draft : QuantifiedDraft, draft.build = .ok pattern)
    (given : ∀ connection ∈ graph.connections, ∀ name ∈ connection.exposed, name ∉ graph.arguments)
    (exposed : ∀ connection ∈ graph.connections, ∀ name ∈ connection.exposed, isReserved name = false)
    {before after : Session ν} {query : PlannedQuery ν} (ran : environment.plan graph before = .ok query after) :
    ∃ operators, query.Separates graph operators := by
  obtain ⟨valid, assigned, account, operators, assembled, balance, arranges, permuted, realised⟩ :=
    environment.operators_of_plan standard ran
  obtain ⟨discharged, placed, settled⟩ := assembled.settled balance arranges
  have formed : ∀ pattern, .quantified pattern ∈ graph.connections → pattern.WellFormed := by
    intro pattern member
    obtain ⟨draft, accepted⟩ := built pattern member
    exact QuantifiedDraft.build_ok accepted
  have ordered := MatchGraph.producers_pairwise valid formed
  have owns : ∀ producer ∈ graph.producers, graph.Owns producer.name := by
    intro producer produced
    obtain ⟨connection, found, exposes⟩ := MatchGraph.mem_producers.mp produced
    have member := List.mem_of_getElem? found
    have name := MatchGraph.exposed_of_producer exposes
    exact ⟨given connection member _ name, exposed connection member _ name⟩
  have unchecked : ∀ own ∈ graph.producers, ∀ other ∈ graph.producers, own.types.overlap other.types = false →
      graph.Unchecked query.arena operators own other := by
    intro own mine other theirs apart pattern operator declared found
    have checked := assembled.stepsChecked _ ((arranges _ operator).mp found) pattern declared
    exact checked.ignores valid formed declared mine theirs apart
  refine ⟨operators, permuted, realised, ?_, ?_⟩
  · intro first former second latter before overlap
    exact assembled.separates valid ordered settled former latter before (owns _ former) (owns _ latter) overlap
  · intro first former second latter before apart
    refine ⟨assembled.unplaced valid ordered settled former latter before apart, ?_, ?_⟩
    · exact unchecked first former second latter apart
    · exact unchecked second latter first former (TypeSet.overlap_comm _ _ ▸ apart)

/-- In the clause of parallel loops the relationship clashes with both loops, and the loops with one another not at all. -/
theorem MatchGraph.parallel_separated : ∃ query after,
    Environment.counting.plan (parallel "g") (.initial false) = .ok query after ∧
      ∃ operators, query.Separates (parallel "g") operators := by
  have returns : parallelReturns "g" (fun _ => true) = true := by decide +kernel
  have free : ∀ name ∈ ["q", "r", "g", "w"], isReserved name = false := by decide +kernel
  obtain ⟨query, after, ran, -⟩ := parallel_returns returns
  refine ⟨query, after, ran, Environment.plan_separates Environment.counting_standard (parallel_built rfl) ?_ ?_ ran⟩
  · intro _ _ name _
    exact NameSet.not_mem_empty name
  · intro connection member name exposes
    exact free name (parallel_exposed connection member name exposes)

end

/-! A group that is named like the end of a loop counts as bound when that loop is planned. -/

/-- A filter right above an expansion holds a predicate the same as a check. -/
def Plan.filtersStep (plan : Plan) (step : TrailStep) (check : Expression) : Bool :=
  plan.subtrees.any fun node =>
    match node with
    | .step _ (.filter predicates) (.step _ (.expand hop relationship _) _) =>
      hop == step.hop && relationship == step.relationship && predicates.any check.same
    | _ => false

theorem TrailStep.eq_of_same {step : TrailStep} {other : RelationshipProducer} {predicate : Expression}
    (same : (step.checkAgainst other).same predicate = true) : predicate = step.checkAgainst other := by
  have reference : ∀ {name : String} {expression : Expression}, (Expression.reference name).same expression = true →
      expression = .reference name := by
    intro name expression same
    cases expression <;> simp [Expression.same] at same
    rw [same]
  have negated : ∀ {operator : BinaryOperator} {first second : String},
      (Expression.negation (.binary operator (.reference first) (.reference second))).same predicate = true →
        predicate = .negation (.binary operator (.reference first) (.reference second)) := by
    intro operator first second same
    cases predicate with
    | negation operand =>
      cases operand with
      | binary other left right =>
        simp only [Expression.same, Bool.and_eq_true, beq_iff_eq] at same
        rw [reference same.1.2, reference same.2, same.1.1]
      | _ => simp [Expression.same] at same
    | _ => simp [Expression.same] at same
  unfold checkAgainst at same ⊢
  split at same
  · exact negated same
  · exact negated same

theorem Plan.filtersStep_sound {plan : Plan} {step : TrailStep} {other : RelationshipProducer}
    (filters : plan.filtersStep step (step.checkAgainst other) = true) : plan.FiltersStep step (step.checkAgainst other) := by
  obtain ⟨node, member, holds⟩ := List.any_eq_true.mp filters
  split at holds
  next filterId predicates expandId hop relationship mode below =>
    simp only [Bool.and_eq_true, beq_iff_eq] at holds
    obtain ⟨⟨rfl, rfl⟩, present⟩ := holds
    obtain ⟨predicate, among, same⟩ := List.any_eq_true.mp present
    exact ⟨filterId, predicates, expandId, mode, below, member, TrailStep.eq_of_same same ▸ among⟩
  next => cases holds

/-- The loop over the longer of the parallel patterns checks its first step against the relationship beside it. -/
private def guardsFirst (own : TrailStep) (other : RelationshipProducer) : Plan → Bool
  | .trail _ parameters input inner => !(parameters.innerStart == "x" || parameters.innerStart == "z") ||
    decide (other.name ∈ input.available) && decide (other.name ∈ parameters.listed other.form) &&
      inner.filtersStep own (own.checkAgainst other)
  | _ => true

/-- Without the restriction on names a pair can be checked by a filter and by a loop. -/
theorem MatchGraph.parallel_checked_twice : Environment.counting.StandardLeaves ∧
    (∀ pattern, .quantified pattern ∈ (parallel "  trail_end_4").connections →
      ∃ draft : QuantifiedDraft, draft.build = .ok pattern) ∧
    (∀ connection ∈ (parallel "  trail_end_4").connections, ∀ name ∈ connection.exposed,
      name ∉ (parallel "  trail_end_4").arguments) ∧
    ∃ query after, Environment.counting.plan (parallel "  trail_end_4") (.initial false) = .ok query after ∧
      ∀ operators, ¬ query.Separates (parallel "  trail_end_4") operators := by
  let first : RelationshipProducer := ⟨0, "q", .single, none⟩
  let second : RelationshipProducer := ⟨2, "  trail_end_4", .list, some (.ofList ["U"])⟩
  let step : TrailStep := ⟨"u", ⟨"x", "y", .outgoing, ["U"]⟩⟩
  have returns : parallelReturns "  trail_end_4" (fun query => query.root.expansions.all (guardsFirst step first) &&
      (first.distinctness second).copies (query.root.gather Plan.held) == 1) = true := by decide +kernel
  obtain ⟨query, after, ran, accepted⟩ := parallel_returns returns
  refine ⟨Environment.counting_standard, parallel_built rfl, fun _ _ name _ => NameSet.not_mem_empty name, query, after, ran, ?_⟩
  intro operators separates
  simp only [Bool.and_eq_true, List.all_eq_true, beq_iff_eq] at accepted
  obtain ⟨guards, copies⟩ := accepted
  have apart : (parallel "  trail_end_4").KeptApart operators first second := by
    obtain ⟨operator, member, found, realises⟩ : ∃ operator ∈ query.root.expansions, operators[2]? = some operator ∧
        Realises query.root (.quantified (QuantifiedDraft.long "  trail_end_4").pattern) operator := by
      obtain ⟨length, realises⟩ := List.forall₂_iff_get.mp separates.realises
      have inside : 2 < operators.length := length ▸ Nat.lt_succ_self 2
      exact ⟨operators[2], separates.expansions.subset (List.getElem_mem inside), List.getElem?_eq_getElem inside,
        realises 2 (Nat.lt_succ_self 2) inside⟩
    refine .inr ⟨_, operator, rfl, found, ?_⟩
    have guarded := guards operator member
    cases realises with
    | collapsed single | pruned single | breadthFirst single => cases single
    | @looped _ direction parameters id input inner loops ends =>
      have start : parameters.innerStart == "x" || parameters.innerStart == "z" := by
        rw [loops.innerStart]
        cases direction <;> rfl
      simp only [guardsFirst, start, Bool.not_true, Bool.false_or, Bool.and_eq_true, decide_eq_true_eq] at guarded
      obtain ⟨⟨bound, listed⟩, filters⟩ := guarded
      exact ⟨bound, listed, .forward, step, List.mem_cons_self, rfl, Plan.filtersStep_sound filters⟩
  have clash : first ∈ (parallel "  trail_end_4").producers ∧ second ∈ (parallel "  trail_end_4").producers := by decide +kernel
  rcases separates.clashing first clash.1 second clash.2 (by decide) rfl with ⟨-, together⟩ | ⟨unplaced, -⟩
  · exact together apart
  · rw [Unplaced, copies] at unplaced
    cases unplaced

end MatchPlanner
