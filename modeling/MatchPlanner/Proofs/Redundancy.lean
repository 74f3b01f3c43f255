import MatchPlanner.Proofs.Capture

/-! No step of a loop is checked twice for the same thing. A step is checked against every step before it and against every sibling
of the loop; the siblings come one for each obligation, so the checks differ as long as no sibling faces a pattern by two of its
relationships. -/

namespace MatchPlanner

namespace TrailStep

/-- A check that keeps the relationship of a step apart from a variable. -/
def SetsApart (step : TrailStep) (name : String) (check : Expression) : Prop :=
  check = .negation (.equals (.reference step.relationship) (.reference name)) ∨
    check = .negation (.isMember (.reference step.relationship) (.reference name))

/-- Besides what was given from outside, the predicates hold one check against earlier repetitions and at most one against each
variable. -/
def ChecksOnce (step : TrailStep) (given predicates : List Expression) : Prop :=
  ∃ own checks, predicates = own ++ step.repeatCheck :: checks ∧ own.Sublist given ∧
    (∀ check ∈ checks, ∃ name, step.SetsApart name check) ∧
    checks.Pairwise fun former latter => ∀ name, step.SetsApart name former → ¬ step.SetsApart name latter

theorem SetsApart.unique {step : TrailStep} {first second : String} {check : Expression} (one : step.SetsApart first check)
    (other : step.SetsApart second check) : first = second := by
  rcases one with rfl | rfl <;> rcases other with same | same <;>
    simp_all [Expression.equals, Expression.isMember]

theorem setsApart_checkAgainst (step : TrailStep) (sibling : RelationshipProducer) :
    step.SetsApart sibling.name (step.checkAgainst sibling) := by
  unfold checkAgainst
  split
  exacts [.inl rfl, .inr rfl]

/-- Checks against different variables are different checks. -/
theorem pairwise_checks {α : Type} {step : TrailStep} {values : List α} {name : α → String} {check : α → Expression}
    (apart : ∀ value, step.SetsApart (name value) (check value)) (distinct : (values.map name).Nodup) :
    (values.map check).Pairwise fun former latter => ∀ name, step.SetsApart name former → ¬ step.SetsApart name latter := by
  refine List.pairwise_map.mpr ((List.pairwise_map.mp distinct).imp ?_)
  intro former latter different other first second
  exact different (((apart former).unique first).trans (second.unique (apart latter)))

/-- The checks of a step are all different when everything it is checked against has a name of its own. -/
theorem checksOnce_uniquenessChecks {step : TrailStep} {earlier : List TrailStep} {siblings : List RelationshipProducer}
    {own given : List Expression} (kept : own.Sublist given) (steps : (earlier.map TrailStep.relationship).Nodup)
    (names : (siblings.map RelationshipProducer.name).Nodup)
    (apart : ∀ sibling ∈ siblings, sibling.name ∉ earlier.map TrailStep.relationship) :
    step.ChecksOnce given (own ++ step.uniquenessChecks earlier siblings) := by
  refine ⟨own, step.checksAgainstSteps earlier ++ step.checksAgainstSiblings siblings, rfl, kept, ?_, ?_⟩
  · intro check member
    rcases List.mem_append.mp member with among | beside
    · obtain ⟨other, -, rfl⟩ := List.mem_map.mp among
      exact ⟨other.relationship, .inl rfl⟩
    · obtain ⟨sibling, -, rfl⟩ := List.mem_map.mp beside
      exact ⟨sibling.name, step.setsApart_checkAgainst sibling⟩
  · refine List.pairwise_append.mpr ⟨?_, ?_, ?_⟩
    · exact pairwise_checks (fun _ => .inl rfl) ((List.filter_sublist.map _).nodup steps)
    · exact pairwise_checks step.setsApart_checkAgainst ((List.filter_sublist.map _).nodup names)
    · intro former among latter beside name first second
      obtain ⟨other, overlapping, rfl⟩ := List.mem_map.mp among
      obtain ⟨sibling, clashing, rfl⟩ := List.mem_map.mp beside
      have same : other.relationship = sibling.name :=
        (SetsApart.unique (.inl rfl) first).trans (second.unique (step.setsApart_checkAgainst sibling))
      exact apart sibling (List.mem_filter.mp clashing).1 (same ▸ List.mem_map_of_mem (List.mem_filter.mp overlapping).1)

private theorem countP_le_one {α : Type} {apart : α → α → Prop} {holds : α → Bool} {values : List α} (pairs : values.Pairwise apart)
    (meets : ∀ first second, holds first = true → holds second = true → ¬ apart first second) : values.countP holds ≤ 1 := by
  induction pairs with
  | nil => simp
  | @cons first rest before _ further =>
    by_cases here : holds first = true
    · have none : rest.countP holds = 0 :=
        List.countP_eq_zero.mpr fun second member there => meets first second here there (before second member)
      rw [List.countP_cons_of_pos here]
      omega
    · rwa [List.countP_cons_of_neg here]

/-- A check against a variable is made at most once more than what was given asks for. -/
theorem ChecksOnce.copies_le {step : TrailStep} {given predicates : List Expression} (once : step.ChecksOnce given predicates)
    (other : RelationshipProducer) :
    (step.checkAgainst other).copies predicates ≤ (step.checkAgainst other).copies given + 1 := by
  obtain ⟨own, checks, rfl, kept, -, pairs⟩ := once
  have before : (step.checkAgainst other).copies own ≤ (step.checkAgainst other).copies given := kept.countP_le
  have repeats : (step.checkAgainst other).same step.repeatCheck = false := by
    unfold checkAgainst
    split <;> rfl
  have after : (step.checkAgainst other).copies checks ≤ 1 := by
    refine countP_le_one pairs fun first second one two apart => apart other.name ?_ ?_
    · exact eq_of_same one ▸ step.setsApart_checkAgainst other
    · exact eq_of_same two ▸ step.setsApart_checkAgainst other
  have split : (step.checkAgainst other).copies (step.repeatCheck :: checks) = (step.checkAgainst other).copies checks :=
    List.countP_cons_of_neg (Bool.eq_false_iff.mp repeats)
  rw [Expression.copies_append, split]
  omega

end TrailStep

/-- Every step of an inner plan stands below a filter, which holds its checks once each. -/
structure Plan.StepsOnce (inner : Plan) (given : List Expression) : Prop where
  filtered : ∀ id hop relationship mode below, .step id (.expand hop relationship mode) below ∈ inner.subtrees →
    ∃ filterId predicates, .step filterId (.filter predicates) (.step id (.expand hop relationship mode) below) ∈ inner.subtrees
  once : ∀ filterId predicates id hop relationship mode below,
    .step filterId (.filter predicates) (.step id (.expand hop relationship mode) below) ∈ inner.subtrees →
      TrailStep.ChecksOnce ⟨relationship, hop⟩ given predicates

theorem Filtered.of_subtree {input plan subtree : Plan} {predicates : List Expression} (filtered : Filtered input predicates plan)
    (member : subtree ∈ plan.subtrees) :
    (∃ id predicates, subtree = .step id (.filter predicates) input) ∨ subtree ∈ input.subtrees := by
  cases filtered with
  | untouched => exact .inr member
  | @filter id => exact (List.mem_cons.mp member).imp_left fun same => ⟨id, predicates, same⟩

/-- What is pending in a repetition are predicates it was given. -/
theorem InnerSteps.stepsOnce {siblings : List RelationshipProducer} {earlier steps : List TrailStep}
    {progress last : InnerProgress} {given : List Expression} (stepped : InnerSteps siblings earlier progress steps last)
    (distinct : ((earlier ++ steps).map TrailStep.relationship).Nodup) (names : (siblings.map RelationshipProducer.name).Nodup)
    (apart : ∀ sibling ∈ siblings, sibling.name ∉ (earlier ++ steps).map TrailStep.relationship)
    (pending : progress.pending.Sublist given) (once : progress.plan.StepsOnce given) : last.plan.StepsOnce given := by
  induction stepped with
  | done => exact once
  | @step earlier rest step progress placed last id expanded onward further =>
    have regrouped : earlier ++ step :: rest = earlier ++ [step] ++ rest := by simp
    rw [regrouped] at distinct apart
    have before : (earlier.map TrailStep.relationship).Sublist ((earlier ++ [step] ++ rest).map TrailStep.relationship) := by
      simp
    have checks : step.ChecksOnce given (progress.pending.filter (isReadyIn (progress.expand id step).scope) ++
        step.uniquenessChecks earlier siblings) := by
      refine TrailStep.checksOnce_uniquenessChecks (List.filter_sublist.trans pending) (before.nodup distinct) names ?_
      exact fun sibling beside taken => apart sibling beside (before.subset taken)
    obtain ⟨filterId, above⟩ := expanded.filtered.step (List.append_ne_nil_of_right_ne_nil _ (List.cons_ne_nil _ _))
    refine further distinct apart (expanded.pending ▸ List.filter_sublist.trans pending) ?_
    rw [above]
    constructor
    · intro other hop relationship mode below member
      rcases List.mem_cons.mp member with impossible | member
      · cases impossible
      rcases List.mem_cons.mp member with here | deeper
      · cases here
        exact ⟨filterId, _, List.mem_cons_self⟩
      · obtain ⟨filter, predicates, stands⟩ := once.filtered other hop relationship mode below deeper
        exact ⟨filter, predicates, List.mem_cons_of_mem _ (List.mem_cons_of_mem _ stands)⟩
    · intro filter predicates other hop relationship mode below member
      rcases List.mem_cons.mp member with here | member
      · cases here
        exact checks
      rcases List.mem_cons.mp member with impossible | deeper
      · cases impossible
      · exact once.once filter predicates other hop relationship mode below deeper

theorem InnerBuilt.stepsOnce {pending : List Expression} {arguments : NameSet} {steps : List TrailStep}
    {siblings : List RelationshipProducer} {plan : Plan} (built : InnerBuilt pending arguments steps siblings plan)
    (distinct : (steps.map TrailStep.relationship).Nodup) (names : (siblings.map RelationshipProducer.name).Nodup)
    (apart : ∀ sibling ∈ siblings, sibling.name ∉ steps.map TrailStep.relationship) : plan.StepsOnce pending := by
  cases built with
  | @built id started last begun stepped complete =>
    refine stepped.stepsOnce distinct names apart (begun.pending ▸ List.filter_sublist) ?_
    constructor
    · intro other hop relationship mode below member
      rcases begun.filtered.of_subtree member with ⟨filterId, predicates, impossible⟩ | leaf
      · cases impossible
      · cases List.mem_singleton.mp leaf
    · intro filterId predicates other hop relationship mode below member
      rcases begun.filtered.of_subtree member with ⟨_, _, impossible⟩ | leaf
      · cases impossible
      · cases List.mem_singleton.mp leaf

/-! The siblings of a loop. -/

/-- A variable outside a pattern can clash with one variable of the pattern at most, and is not called like a relationship inside when
it can clash with any. -/
structure MatchGraph.FacesOnce (graph : MatchGraph) (index : Nat) (pattern : QuantifiedPattern) : Prop where
  alone : ∀ own ∈ (Connection.quantified pattern).producers index, ∀ second ∈ (Connection.quantified pattern).producers index,
    ∀ other ∈ graph.producers, own.clashes other = true → second.clashes other = true → own = second
  apart : ∀ own ∈ (Connection.quantified pattern).producers index, ∀ other ∈ graph.producers, own.clashes other = true →
    other.name ∉ pattern.relationshipNames

section

variable {graph : MatchGraph} {ledger : Ledger} {index : Nat} {pattern : QuantifiedPattern}

/-- An obligation is known by the two producers it concerns. -/
theorem UniquenessObligation.eq_of_own {first second : UniquenessObligation} {own other : RelationshipProducer}
    (ordered : graph.producers.Pairwise RelationshipProducer.Precedes) (former : first ∈ graph.obligations)
    (latter : second ∈ graph.obligations) (mine : first.own? index = some own) (theirs : first.counterpart? index = some other)
    (also : second.own? index = some own) (those : second.counterpart? index = some other) : first = second := by
  have one := (UniquenessObligation.mem_ofProducers former).1
  have two := (UniquenessObligation.mem_ofProducers latter).1
  have early := UniquenessObligation.connections_lt ordered former
  have late := UniquenessObligation.connections_lt ordered latter
  obtain ⟨-, ⟨rfl, rfl⟩ | ⟨rfl, rfl⟩⟩ := UniquenessObligation.own_cases mine theirs <;>
    obtain ⟨-, ⟨same, others⟩ | ⟨same, others⟩⟩ := UniquenessObligation.own_cases also those <;>
    rw [one, two, same, others] <;> rw [same, others] at early <;> omega

/-- No two entries of a ledger come from one obligation. -/
theorem Ledger.obligations_pairwise (ordered : graph.producers.Pairwise RelationshipProducer.Precedes)
    (known : ledger.Sublist (Ledger.ofGraph graph)) : ledger.Pairwise fun former latter =>
      ∀ obligation, former.obligation = some obligation → latter.obligation ≠ some obligation := by
  have distinct : ((Ledger.ofGraph graph).filterMap LedgerEntry.obligation).Nodup := by
    rw [Ledger.obligations_ofGraph]
    exact UniquenessObligation.ofProducers_nodup ordered
  refine ((List.pairwise_filterMap.mp distinct).imp fun different obligation former latter => ?_).sublist known
  exact different obligation former obligation latter rfl

theorem Ledger.obligationsOf_sublist (ledger : Ledger) (index : Nat) :
    ((ledger.obligationsOf index).map Prod.fst).Sublist ledger := by
  induction ledger with
  | nil => exact .slnil
  | cons entry rest further =>
    rw [obligationsOf, List.filterMap_cons]
    split
    · exact further.cons entry
    next concern made =>
      simp only [Option.bind_eq_bind, Option.bind_eq_some_iff, Option.pure_def, Option.some.injEq] at made
      obtain ⟨_, -, _, -, _, -, rfl⟩ := made
      exact further.cons_cons entry

/-- What concerns a connection is told apart by its counterpart when no counterpart faces it twice. -/
theorem Ledger.counterparts_nodup (ordered : graph.producers.Pairwise RelationshipProducer.Precedes)
    (known : ledger.Sublist (Ledger.ofGraph graph)) (found : graph.connections[index]? = some (.quantified pattern))
    (faces : graph.FacesOnce index pattern) : ((ledger.obligationsOf index).map fun concern => concern.2.2.name).Nodup := by
  have entries := (Ledger.obligations_pairwise ordered known).sublist (ledger.obligationsOf_sublist index)
  refine List.pairwise_map.mpr ((List.pairwise_map.mp entries).imp_of_mem ?_)
  rintro ⟨entry, own, other⟩ ⟨next, second, another⟩ former latter different same
  obtain ⟨mine, theirs, clashes⟩ := Ledger.clash_of_obligation known.subset found former
  obtain ⟨also, those, collides⟩ := Ledger.clash_of_obligation known.subset found latter
  cases MatchGraph.eq_of_name ordered theirs those same
  cases faces.alone own mine second also other theirs clashes collides
  obtain ⟨present, obligation, checks, owned, countered⟩ := Ledger.mem_obligationsOf.mp former
  obtain ⟨follows, repeated, again, possessed, opposed⟩ := Ledger.mem_obligationsOf.mp latter
  refine different obligation checks (again.trans (congrArg some ?_))
  exact UniquenessObligation.eq_of_own ordered (producers_of_entry (known.subset follows) again).1
    (producers_of_entry (known.subset present) checks).1 possessed opposed owned countered

/-- The siblings of a pattern have different names, and none of them is called like a relationship of the pattern. -/
theorem QuantifiedPattern.siblings_once (ordered : graph.producers.Pairwise RelationshipProducer.Precedes)
    (known : ledger.Sublist (Ledger.ofGraph graph)) (found : graph.connections[index]? = some (.quantified pattern))
    (faces : graph.FacesOnce index pattern) (bound : NameSet) :
    ((pattern.site graph index bound ledger).request.siblings.map RelationshipProducer.name).Nodup ∧
      ∀ sibling ∈ (pattern.site graph index bound ledger).request.siblings, sibling.name ∉ pattern.relationshipNames := by
  constructor
  · simp only [site, List.partition_eq_filter_filter, List.map_map]
    exact (List.filter_sublist.map _).nodup (Ledger.counterparts_nodup ordered known found faces)
  · intro sibling beside
    obtain ⟨_, own, concern, -⟩ := QuantifiedPattern.mem_siblings.mp beside
    obtain ⟨mine, theirs, clashes⟩ := Ledger.clash_of_obligation known.subset found concern
    exact faces.apart own mine sibling theirs clashes

end

/-! The loops of a plan. -/

/-- Every loop of a plan is the loop of a pattern of the graph, and its steps are checked once each. -/
def PlannedQuery.ChecksOnce {ν : Type} (query : PlannedQuery ν) (graph : MatchGraph) : Prop :=
  ∀ id parameters input inner, .trail id parameters input inner ∈ query.root.subtrees →
    ∃ (index : Nat) (pattern : QuantifiedPattern) (direction : TraversalDirection),
      graph.connections[index]? = some (.quantified pattern) ∧ Loops pattern direction parameters inner ∧
        inner.StepsOnce (pattern.classify (query.arena.solved id) input.available).innerPredicates

theorem PatternPlanned.stepsOnce {ν : Type} {environment : Environment ν} {arena : Arena ν}
    {source operator planned input inner : Plan} {request : QuantifiedRequest} {discharged : Bool} {id : PlanId}
    {parameters : TrailParameters}
    (chosen : PatternPlanned environment arena source request operator planned discharged) (formed : request.pattern.WellFormed)
    (names : (request.siblings.map RelationshipProducer.name).Nodup)
    (apart : ∀ sibling ∈ request.siblings, sibling.name ∉ request.pattern.relationshipNames)
    (loop : operator = .trail id parameters input inner) :
    inner.StepsOnce (request.pattern.classify (arena.solved id) input.available).innerPredicates := by
  cases chosen with
  | collapsed => cases loop
  | @looped direction finish _ _ _ kept possible built recorded ended =>
    cases loop
    have steps := request.pattern.relationships_steps direction
    rw [recorded, QuantifiedRequest.sorted, QuantifiedPattern.innerPredicates_classify]
    refine built.stepsOnce (steps.nodup_iff.mpr formed.distinctNames) ((List.filter_sublist.map _).nodup names) ?_
    intro sibling checked taken
    exact apart sibling (QuantifiedRequest.mem_checked.mp checked).1 (steps.subset taken)

/-- When no variable faces a pattern twice, every loop of a plan checks each of its steps once against earlier repetitions, once at most
against each earlier step and once at most against each variable outside. -/
theorem Environment.plan_checksOnce {ν : Type} [Quantity ν] {environment : Environment ν} {graph : MatchGraph}
    (built : ∀ pattern, .quantified pattern ∈ graph.connections → ∃ draft : QuantifiedDraft, draft.build = .ok pattern)
    (faces : ∀ index pattern, graph.connections[index]? = some (.quantified pattern) → graph.FacesOnce index pattern)
    {before after : Session ν} {query : PlannedQuery ν} (ran : environment.plan graph before = .ok query after) :
    query.ChecksOnce graph := by
  obtain ⟨valid, assigned, composed⟩ := environment.composed_of_plan ran
  have formed := MatchGraph.wellFormed_of_built built
  have ordered := MatchGraph.producers_pairwise valid formed
  intro id parameters input inner member
  obtain ⟨index, pattern, ledger, source, planned, discharged, found, known, chosen⟩ :=
    composed.loops _ (List.mem_filter.mpr ⟨member, rfl⟩)
  have wellFormed := formed pattern (List.mem_of_getElem? found)
  obtain ⟨names, apart⟩ := QuantifiedPattern.siblings_once ordered known found (faces index pattern found) source.available
  have once := chosen.stepsOnce wellFormed names apart rfl
  cases chosen.realises.2 with
  | looped loops ends => exact ⟨index, pattern, _, found, loops, once⟩

namespace MatchGraph

/-- A relationship beside a loop over another one. -/
def beside : MatchGraph where
  nodes := [⟨"a", []⟩, ⟨"b", []⟩]
  connections := [.relationship ⟨"q", "a", "b", .outgoing, [], .simple⟩, .quantified QuantifiedDraft.short.pattern]
  selections := []
  arguments := ∅
  required := ∅
  distinctEndpoints := false

theorem beside_pattern {index : Nat} {pattern : QuantifiedPattern} (found : beside.connections[index]? = some (.quantified pattern)) :
    index = 1 ∧ pattern = QuantifiedDraft.short.pattern := by
  rcases index with _ | _ | index
  · cases found
  · cases found
    exact ⟨rfl, rfl⟩
  · cases found

/-- The loop checks its step against the relationship beside it once. -/
theorem beside_checked_once : ∃ query after, Environment.counting.plan beside (.initial false) = .ok query after ∧
    query.ChecksOnce beside := by
  have returns : Environment.counting.returns beside (fun _ => true) = true := by decide +kernel
  obtain ⟨query, after, ran, -⟩ := Environment.returns_ok returns
  refine ⟨query, after, ran, Environment.plan_checksOnce (fun pattern member => ?_) (fun index pattern found => ?_) ran⟩
  · obtain ⟨index, found⟩ := List.mem_iff_getElem?.mp member
    exact (beside_pattern found).2 ▸ ⟨.short, rfl⟩
  · obtain ⟨rfl, rfl⟩ := beside_pattern found
    exact ⟨by decide +kernel, by decide +kernel⟩

/-- A loop that takes over nothing of the clause and checks its first step twice against the same relationship. -/
private def repeats (arena : Arena Nat) (step : TrailStep) (other : RelationshipProducer) : Plan → Bool
  | .trail id _ _ inner => (arena.solved id).isEmpty && inner.subtrees.any fun
    | .step _ (.filter predicates) (.step _ (.expand hop relationship _) _) =>
      hop == step.hop && relationship == step.relationship && decide (1 < (step.checkAgainst other).copies predicates)
    | _ => false
  | _ => false

/-- Both relationships of the longer loop face the relationship beside it, so each of its steps is checked against it twice. -/
theorem parallel_repeats :
    (∀ pattern, .quantified pattern ∈ (parallel "g").connections → ∃ draft : QuantifiedDraft, draft.build = .ok pattern) ∧
    ∃ query after, Environment.counting.plan (parallel "g") (.initial false) = .ok query after ∧
      ¬ query.ChecksOnce (parallel "g") := by
  let step : TrailStep := ⟨"u", ⟨"x", "y", .outgoing, ["U"]⟩⟩
  let other : RelationshipProducer := ⟨0, "q", .single, none⟩
  have returns : parallelReturns "g" (fun query => query.root.subtrees.any (repeats query.arena step other)) = true := by
    decide +kernel
  obtain ⟨query, after, ran, accepted⟩ := parallel_returns returns
  refine ⟨parallel_built rfl, query, after, ran, fun once => ?_⟩
  obtain ⟨loop, member, twice⟩ := List.any_eq_true.mp accepted
  cases loop with
  | leaf | step | join => cases twice
  | trail id parameters input inner =>
    simp only [repeats, Bool.and_eq_true, List.isEmpty_iff, List.any_eq_true] at twice
    obtain ⟨free, node, inside, counted⟩ := twice
    obtain ⟨index, pattern, direction, found, -, steps⟩ := once id parameters input inner member
    split at counted
    next filterId predicates expandId hop relationship mode below =>
      simp only [Bool.and_eq_true, beq_iff_eq, decide_eq_true_eq] at counted
      obtain ⟨⟨rfl, rfl⟩, more⟩ := counted
      have most := (steps.once _ _ _ _ _ _ _ inside).copies_le other
      have none : (step.checkAgainst other).copies
          (pattern.classify (query.arena.solved id) input.available).innerPredicates = 0 := by
        rw [free]
        rcases index with _ | _ | _ | index
        · cases found
        · cases found
          rfl
        · cases found
          rfl
        · cases found
      have total : (step.checkAgainst other).copies predicates ≤ 0 + 1 := none ▸ most
      omega
    next => cases counted

end MatchGraph

end MatchPlanner
