import MatchPlanner.Proofs.Completion
import MatchPlanner.Proofs.Settlement

/-! Planning returns. There is one statement for each function of the planner, and each says that the function has a value to
return: a pattern finds the variables its selections read, every search meets a candidate, and a component never runs out of
connections that touch its plan. Only the failures put up with end a run early. -/

namespace MatchPlanner

open Planning

/-! What the predicates of one repetition read. -/

namespace Expression

mutual

theorem mem_dependencies_rename {old new name : String} (expression : Expression)
    (reads : name ∈ (expression.rename old new).dependencies) : name = new ∨ name ∈ expression.dependencies ∧ name ≠ old := by
  have renamed : ∀ other, name = renameName old new other → name = new ∨ name = other ∧ name ≠ old := by
    intro other same
    unfold renameName at same
    split at same
    · exact .inl same
    next different => exact .inr ⟨same, same ▸ different⟩
  cases expression with
  | literal | parameter => exact absurd reads (NameSet.not_mem_empty _)
  | binary operator left right =>
    simp only [rename, dependencies, NameSet.mem_union] at reads ⊢
    rcases reads with reads | reads
    · exact (mem_dependencies_rename left reads).imp_right fun ⟨inside, different⟩ => ⟨.inl inside, different⟩
    · exact (mem_dependencies_rename right reads).imp_right fun ⟨inside, different⟩ => ⟨.inr inside, different⟩
  | negation operand => exact mem_dependencies_rename operand reads
  | call function arguments => exact mem_dependenciesOfAll_renameAll arguments reads
  | every element list predicate =>
    simp only [rename, dependencies, NameSet.mem_union, NameSet.mem_erase] at reads ⊢
    rcases reads with reads | ⟨reads, free⟩
    · exact (mem_dependencies_rename list reads).imp_right fun ⟨inside, different⟩ => ⟨.inl inside, different⟩
    · split at reads
      next same => exact .inr ⟨.inr ⟨reads, free⟩, same ▸ free⟩
      next =>
        exact (mem_dependencies_rename predicate reads).imp_right fun ⟨inside, different⟩ => ⟨.inr ⟨inside, free⟩, different⟩
  | subquery outside text =>
    simp only [rename, dependencies, NameSet.mem_ofList, List.mem_map] at reads ⊢
    obtain ⟨other, among, same⟩ := reads
    exact (renamed other same.symm).imp_right fun ⟨equal, different⟩ => ⟨equal ▸ among, different⟩
  | reference | property | hasLabels | hasTypes =>
    simp only [rename, dependencies, NameSet.mem_ofList, List.mem_singleton] at reads ⊢
    exact renamed _ reads

theorem mem_dependenciesOfAll_renameAll {old new name : String} (expressions : List Expression)
    (reads : name ∈ dependenciesOfAll (renameAll old new expressions)) :
    name = new ∨ name ∈ dependenciesOfAll expressions ∧ name ≠ old := by
  cases expressions with
  | nil => exact absurd reads (NameSet.not_mem_empty _)
  | cons first rest =>
    simp only [renameAll, dependenciesOfAll, NameSet.mem_union] at reads ⊢
    rcases reads with reads | reads
    · exact (mem_dependencies_rename first reads).imp_right fun ⟨inside, different⟩ => ⟨.inl inside, different⟩
    · exact (mem_dependenciesOfAll_renameAll rest reads).imp_right fun ⟨inside, different⟩ => ⟨.inr inside, different⟩

end

end Expression

/-- What the selections of a pattern read is bound inside a repetition or below the pattern. -/
def QuantifiedPattern.Served (pattern : QuantifiedPattern) (bound : NameSet) : Prop :=
  ∀ name ∈ Expression.dependenciesOf pattern.selections, name ∈ pattern.innerVariables ∨ name ∈ bound

/-- All selections can be placed, unless it is put up with that they cannot. -/
def QuantifiedPattern.Placeable (faults : PlanningError → Prop) (pattern : QuantifiedPattern) (bound : NameSet) : Prop :=
  pattern.Served bound ∨ ∀ predicate missing, faults (.unsolvablePredicate predicate missing)

theorem QuantifiedPattern.WellFormed.singleton_inner {pattern : QuantifiedPattern} (formed : pattern.WellFormed) {group : String}
    {kind : GroupKind} {grouping : Grouping} (grouped : pattern.groupingOf? group = some (kind, grouping)) :
    grouping.singleton ∈ pattern.innerVariables := by
  refine NameSet.mem_ofList.mpr ?_
  unfold groupingOf? at grouped
  split at grouped
  next found =>
    cases grouped
    exact List.mem_append_left _ (formed.nodeMembers _ (List.mem_of_find?_eq_some found))
  next =>
    obtain ⟨_, found, same⟩ := Option.map_eq_some_iff.mp grouped
    cases same
    exact List.mem_append_right _ (formed.relationshipMembers _ (List.mem_of_find?_eq_some found))

/-- A predicate of the clause in its form for a single step reads an inner variable, and besides what is bound below the pattern. -/
theorem QuantifiedPattern.WellFormed.perStep_reads {pattern : QuantifiedPattern} (formed : pattern.WellFormed) {outer : List Expression}
    {bound : NameSet} {extracted : ExtractedPredicate} (member : extracted ∈ (pattern.classify outer bound).extracted) :
    ∀ name ∈ extracted.perStep.dependencies, name ∈ pattern.innerVariables ∨ name ∈ bound := by
  intro name reads
  obtain ⟨-, -, ⟨group, grouping, grouped, single⟩, outside⟩ := extract?_some (mem_extracted member).2
  rcases Expression.mem_dependencies_rename _ reads with rfl | ⟨inside, different⟩
  · exact .inl (single ▸ formed.singleton_inner grouped)
  · exact .inr ((outside name inside).resolve_left different)

theorem QuantifiedPattern.Served.innerPredicates {pattern : QuantifiedPattern} {bound : NameSet} (served : pattern.Served bound)
    (formed : pattern.WellFormed) (outer : List Expression) :
    ∀ predicate ∈ (pattern.classify outer bound).innerPredicates, ∀ name ∈ predicate.dependencies,
      name ∈ pattern.innerVariables ∨ name ∈ bound := by
  intro predicate member name reads
  rcases List.mem_append.mp member with selection | perStep
  · simp only [classify, List.map_map] at selection
    obtain ⟨atom, among, rfl⟩ := List.mem_map.mp selection
    exact served name (mem_dependenciesOf_atoms.mp (Expression.mem_dependenciesOf.mpr ⟨atom, among, reads⟩))
  · obtain ⟨extracted, among, rfl⟩ := List.mem_map.mp perStep
    exact formed.perStep_reads among name reads

/-! One repetition. -/

/-- What a repetition has not placed is not ready where it has got to. -/
def InnerProgress.Settled (progress : InnerProgress) : Prop := ∀ predicate ∈ progress.pending, isReadyIn progress.scope predicate = false

theorem InnerPlaced.settled {progress placed : InnerProgress} {checks : List Expression} (above : InnerPlaced progress checks placed) :
    placed.Settled ∧ placed.pending ⊆ progress.pending := by
  constructor
  · intro predicate member
    rw [above.pending] at member
    rw [above.scope]
    exact (Bool.not_eq_true' _).mp (List.mem_filter.mp member).2
  · rw [above.pending]
    exact List.filter_subset_self _

theorem InnerSteps.settled {siblings : List RelationshipProducer} {earlier steps : List TrailStep} {progress last : InnerProgress}
    (stepped : InnerSteps siblings earlier progress steps last) (settled : progress.Settled) :
    last.Settled ∧ last.pending ⊆ progress.pending := by
  induction stepped with
  | done => exact ⟨settled, List.Subset.refl _⟩
  | step expanded _ further =>
    obtain ⟨still, subset⟩ := further expanded.settled.1
    exact ⟨still, List.Subset.trans subset expanded.settled.2⟩

namespace Environment

variable {ν : Type} {environment : Environment ν} {faults : PlanningError → Prop}

theorem Dependable.placeInner (dependable : environment.Dependable faults) (progress : InnerProgress) (checks : List Expression) :
    Completes faults (environment.placeInner progress checks) fun _ => True := by
  unfold Environment.placeInner
  exact (dependable.filter _ _).bind fun _ _ => completes_pure trivial

theorem Dependable.innerSteps (dependable : environment.Dependable faults) (siblings : List RelationshipProducer)
    (earlier steps : List TrailStep) (progress : InnerProgress) :
    Completes faults (environment.innerSteps siblings earlier progress steps) fun _ => True := by
  induction steps generalizing earlier progress with
  | nil => exact completes_pure trivial
  | cons step rest further =>
    unfold Environment.innerSteps
    exact (dependable.finish _ _ fun _ => rfl).bind fun _ _ => (dependable.placeInner _ _).bind fun _ _ => further _ _

/-- At the end of a repetition everything it binds and everything given to it is in scope, so all predicates are placed. -/
theorem Dependable.innerPlan (dependable : environment.Dependable faults) {pattern : QuantifiedPattern} (formed : pattern.WellFormed)
    {bound : NameSet} (outer : List Expression)
    (placeable : pattern.Placeable faults bound) (direction : TraversalDirection) (siblings : List RelationshipProducer) :
    Completes faults (environment.innerPlan pattern (pattern.classify outer bound) bound (pattern.near direction).inner
      (pattern.steps direction) siblings) fun _ => True := by
  unfold Environment.innerPlan
  refine ((dependable.finish _ _ fun _ => rfl).known fun final => environment.yields_finish _ _ fun _ => rfl).bind ?_
  rintro argument ⟨-, final, id, rfl, -⟩
  refine ((dependable.placeInner _ _).known fun final => environment.yields_placeInner _ _).bind ?_
  rintro started ⟨-, _, begun⟩
  refine ((dependable.innerSteps _ _ _ _).known fun final => environment.yields_innerSteps _ _ _ _).bind ?_
  rintro last ⟨-, _, stepped⟩
  split
  next => exact completes_pure trivial
  next unsolved others pending =>
    rcases placeable with served | tolerated
    · exfalso
      have given : (pattern.near direction).inner ∈ innerArguments pattern (pattern.classify outer bound).innerPredicates bound
          (pattern.near direction).inner siblings := mem_innerArguments.mpr (.inl rfl)
      have initial : (InnerProgress.initial id _ (pattern.classify outer bound).innerPredicates).Sound _ [] _ := .initial given
      have above := initial.place begun fun _ impossible => absurd impossible List.not_mem_nil
      have sound := stepped.sound (formed.walk direction) above fun sibling member =>
        mem_innerArguments.mpr (.inr (.inr ⟨sibling, member, rfl⟩))
      rw [List.nil_append] at sound
      obtain ⟨nodes, relationships⟩ := sound.members given
      obtain ⟨settled, subset⟩ := stepped.settled begun.settled.1
      have remains : unsolved ∈ last.pending := pending ▸ List.mem_cons_self
      have among := begun.settled.2 (subset remains)
      refine Bool.false_ne_true ((settled unsolved remains).symm.trans (NameSet.within_iff.mpr fun name reads => ?_))
      by_cases inner : name ∈ pattern.innerVariables
      · refine (sound.scope name).mpr ?_
        rcases List.mem_append.mp (NameSet.mem_ofList.mp inner) with node | relationship
        exacts [nodes name node, relationships name relationship]
      · have outside := (served.innerPredicates formed outer unsolved among name reads).resolve_left inner
        have read := Expression.mem_dependenciesOf.mpr ⟨unsolved, among, reads⟩
        exact sound.given name (mem_innerArguments.mpr (.inr (.inl ⟨read, inner, outside⟩)))
    · exact completes_throw (tolerated _ _)

end Environment

/-! A quantified pattern. -/

theorem QuantifiedRequest.directions_ne_nil {request : QuantifiedRequest} {bound : NameSet}
    (touches : request.pattern.left.outer ∈ bound ∨ request.pattern.right.outer ∈ bound) : request.directions bound ≠ [] := by
  unfold directions
  rcases touches with left | right
  · simp [left]
  · simp [right]

theorem TrailRequest.completes_build {ν : Type} {faults : PlanningError → Prop} (request : TrailRequest)
    (near : request.near.outer ∈ request.bound) :
    Completes (ν := ν) faults request.build fun built => ∃ finish, built.1 = request.parameters finish := by
  unfold build
  rw [if_neg (not_not.mpr near)]
  split
  · exact (completes_freshName _).bind fun fresh _ => completes_pure ⟨fresh, rfl⟩
  · exact completes_pure ⟨_, rfl⟩

theorem keepCheaper_isSome {ν β : Type} [Quantity ν] (estimate : β → Estimate ν) (best : Option β) (candidate : β) :
    (keepCheaper estimate best candidate).isSome = true := by
  unfold keepCheaper
  split
  · rfl
  · split <;> rfl

namespace Environment

variable {ν : Type} {environment : Environment ν} {faults : PlanningError → Prop}

theorem Dependable.varExpandCandidate (dependable : environment.Dependable faults) (source : Plan) {request : QuantifiedRequest}
    (formed : request.pattern.WellFormed) (classification : Classification) (needed bound : NameSet) (direction : TraversalDirection) :
    Completes faults (environment.varExpandCandidate source request classification needed bound direction) fun _ => True := by
  unfold Environment.varExpandCandidate
  split
  next none => exact absurd none formed.nonempty
  next relationship others relationships =>
    split
    next ungrouped =>
      obtain ⟨grouping, member, same⟩ := formed.grouped relationship.name
        (by simp [QuantifiedPattern.relationshipNames, relationships])
      have missing := List.find?_eq_none.mp (Option.map_eq_none_iff.mp ungrouped) grouping member
      simp [same] at missing
    next group grouped =>
      exact (dependable.finish _ _ fun _ => rfl).bind fun plan _ => (dependable.estimate plan).bind fun _ _ => completes_pure trivial

theorem Dependable.trailCandidate (dependable : environment.Dependable faults) (source : Plan) {request : QuantifiedRequest}
    (formed : request.pattern.WellFormed) {bound : NameSet} (placeable : request.pattern.Placeable faults bound) (needed : NameSet)
    {direction : TraversalDirection} (possible : direction ∈ request.directions bound) :
    Completes faults (environment.trailCandidate source request (request.pattern.classify request.outer bound) needed bound direction)
      fun _ => True := by
  unfold Environment.trailCandidate
  refine (TrailRequest.completes_build _ (request.near_bound possible)).bind ?_
  rintro ⟨_, equality⟩ ⟨finish, rfl⟩
  refine (dependable.innerPlan formed request.outer placeable direction _).bind fun inner _ =>
    (dependable.finish _ _ fun _ => rfl).bind fun trail _ => ?_
  cases equality with
  | none => exact (dependable.estimate trail).bind fun _ _ => completes_pure trivial
  | some equality =>
    exact (dependable.filter _ _).bind fun plan _ => (dependable.estimate plan).bind fun _ _ => completes_pure trivial

variable [Quantity ν]

/-- A search that tries something ends with a candidate or with a failure. -/
theorem completes_cheapestDirection {candidate : TraversalDirection → Planning ν (PlannedPattern ν)}
    (directions : List TraversalDirection) (each : ∀ direction ∈ directions, Completes faults (candidate direction) fun _ => True)
    (best : Option (PlannedPattern ν)) (failure : Option PlanningError) (fault : ∀ error, failure = some error → faults error) :
    Completes faults (cheapestDirection candidate best failure directions) fun result =>
      (∀ error, result.2 = some error → faults error) ∧
        (best.isSome = true ∨ failure.isSome = true ∨ directions ≠ [] → result.1.isSome = true ∨ result.2.isSome = true) := by
  induction directions generalizing best failure with
  | nil => exact completes_pure ⟨fault, fun some => some.imp_right fun either => either.resolve_right (absurd rfl)⟩
  | cons direction rest further =>
    have others := fun direction member => each direction (List.mem_cons_of_mem _ member)
    unfold cheapestDirection
    refine (each direction List.mem_cons_self).attempt.bind ?_
    rintro _ (⟨planned, rfl, -⟩ | ⟨error, rfl, put⟩)
    · refine (further others _ _ fault).weaken ?_
      rintro result ⟨faulty, found⟩
      exact ⟨faulty, fun _ => found (.inl (keepCheaper_isSome _ _ _))⟩
    · refine (further others _ _ ?_).weaken ?_
      · intro first same
        cases failure with
        | none => exact Option.some.inj same ▸ put
        | some former => exact fault first same
      · rintro result ⟨faulty, found⟩
        refine ⟨faulty, fun _ => found (.inr (.inl ?_))⟩
        cases failure <;> rfl

theorem Dependable.planPattern (dependable : environment.Dependable faults) (source : Plan) {request : QuantifiedRequest}
    (formed : request.pattern.WellFormed) (placeable : request.pattern.Placeable faults source.available)
    (touches : request.pattern.left.outer ∈ source.available ∨ request.pattern.right.outer ∈ source.available) :
    Completes faults (environment.planPattern source request) fun _ => True := by
  have some := QuantifiedRequest.directions_ne_nil touches
  unfold Environment.planPattern
  rw [if_neg (by simpa using some)]
  refine (completes_cheapestDirection _ ?_ none none fun _ impossible => by cases impossible).bind ?_
  · intro direction possible
    split
    · exact dependable.varExpandCandidate source formed _ _ _ direction
    · exact dependable.trailCandidate source formed placeable _ possible
  · rintro ⟨best, failure⟩ ⟨fault, found⟩
    cases best with
    | some best => exact completes_pure trivial
    | none =>
      cases failure with
      | some error => exact completes_throw (fault error rfl)
      | none => simp [some] at found

end Environment

/-! Partial plans. -/

/-- A connection can be added to a plan that binds certain variables. -/
structure Connection.Addable (faults : PlanningError → Prop) (connection : Connection) (bound : NameSet) : Prop where
  touches : connection.left ∈ bound ∨ connection.right ∈ bound
  formed : ∀ pattern, connection = .quantified pattern → pattern.WellFormed
  placeable : ∀ pattern, connection = .quantified pattern → pattern.Placeable faults bound

namespace Environment

variable {ν : Type} {environment : Environment ν} {faults : PlanningError → Prop}

theorem Dependable.placeReady (dependable : environment.Dependable faults) (plan : Plan) (ledger : Ledger) :
    Completes faults (environment.placeReady plan ledger) fun _ => True := by
  unfold Environment.placeReady
  exact (dependable.filter _ _).bind fun _ _ => completes_pure trivial

theorem Dependable.candidate (dependable : environment.Dependable faults) (plan : Plan) (remaining : Ledger) (description : String)
    (connection : Option Nat) : Completes faults (environment.candidate plan remaining description connection) fun _ => True := by
  unfold Environment.candidate
  exact (dependable.estimate plan).bind fun _ _ => completes_pure trivial

theorem Dependable.argumentPlan (dependable : environment.Dependable faults) (graph : MatchGraph) :
    Completes faults (environment.argumentPlan graph) fun _ => True := by
  unfold Environment.argumentPlan
  exact dependable.finish _ _ fun _ => rfl

theorem Dependable.argumentStart (dependable : environment.Dependable faults) (graph : MatchGraph) (ledger : Ledger) :
    Completes faults (environment.argumentStart graph ledger) fun _ => True := by
  unfold Environment.argumentStart
  exact (dependable.argumentPlan graph).bind fun _ _ => (dependable.placeReady _ _).bind fun _ _ => dependable.candidate _ _ _ _

variable [Quantity ν]

theorem Dependable.expand (dependable : environment.Dependable faults) (graph : MatchGraph) (index : Nat) {connection : Connection}
    {input : Plan} (addable : connection.Addable faults input.available) (ledger : Ledger) :
    Completes faults (environment.expand graph index connection input ledger) fun _ => True := by
  unfold Environment.expand
  cases connection with
  | relationship relationship =>
    unfold expandRelationship
    exact (dependable.finish _ _ fun _ => rfl).bind fun _ _ => (dependable.placeReady _ _).bind fun _ _ => dependable.candidate _ _ _ _
  | quantified pattern =>
    exact (dependable.planPattern input (addable.formed pattern rfl) (addable.placeable pattern rfl) addable.touches).bind fun _ _ =>
      (dependable.placeReady _ _).bind fun _ _ => dependable.candidate _ _ _ _

theorem Dependable.cheapestLeaf (dependable : environment.Dependable faults) (ledger : Ledger) (best : Option (Candidate ν))
    (leaves : List LeafCandidate) : Completes faults (environment.cheapestLeaf ledger best leaves) fun result =>
      best.isSome = true ∨ leaves ≠ [] → result.isSome = true := by
  induction leaves generalizing best with
  | nil => exact completes_pure fun some => some.resolve_right (absurd rfl)
  | cons leaf rest further =>
    unfold Environment.cheapestLeaf
    refine (dependable.finish _ _ fun _ => rfl).bind fun _ _ => (dependable.placeReady _ _).bind fun _ _ =>
      (dependable.candidate _ _ _ _).bind fun candidate _ => (further _).weaken fun result found _ => found (.inl ?_)
    exact keepCheaper_isSome _ _ _

/-- There always is the scan of all nodes. -/
theorem Dependable.bestLeaf (dependable : environment.Dependable faults) (node : String) (ledger : Ledger) :
    Completes faults (environment.bestLeaf node ledger) fun leaf => node ∈ leaf.plan.available := by
  have scanned : Completes faults (environment.bestLeaf node ledger) fun _ => True := by
    unfold Environment.bestLeaf
    refine (dependable.leafCandidates _ _).bind ?_
    rintro _ rfl
    refine (dependable.cheapestLeaf ledger none _).bind fun best found => ?_
    cases best with
    | some best => exact completes_pure trivial
    | none => simp [LeafCandidate.standard] at found
  refine (scanned.known fun final => yields_bestLeaf node ledger).weaken ?_
  rintro leaf ⟨-, final, -, scan⟩
  exact (scan.mem_available dependable.standardLeaves).mpr rfl

/-! Where a component starts. -/

variable {graph : MatchGraph} {index : Nat} {connection : Connection}

theorem Dependable.endpointStart (dependable : environment.Dependable faults) (ledger : Ledger) (best : Option (Candidate ν))
    (endpoints : List String) (addable : ∀ endpoint ∈ endpoints, ∀ bound : NameSet, endpoint ∈ bound → connection.Addable faults bound) :
    Completes faults (environment.endpointStart graph index connection ledger best endpoints) fun _ => True := by
  induction endpoints generalizing best with
  | nil => exact completes_pure trivial
  | cons endpoint rest further =>
    have others := fun best => further best fun other member => addable other (List.mem_cons_of_mem _ member)
    unfold Environment.endpointStart
    refine (dependable.bestLeaf _ _).bind fun leaf bound =>
      (dependable.expand graph index (addable endpoint List.mem_cons_self _ bound) _).attempt.bind ?_
    rintro _ (⟨candidate, rfl, -⟩ | ⟨error, rfl, -⟩)
    exacts [others _, others _]

theorem Dependable.cartesianStart (dependable : environment.Dependable faults) (ledger : Ledger)
    (addable : ∀ bound : NameSet, connection.left ∈ bound → connection.Addable faults bound) :
    Completes faults (environment.cartesianStart graph index connection ledger) fun _ => True := by
  unfold Environment.cartesianStart
  refine (dependable.bestLeaf _ _).bind fun left bound => (dependable.bestLeaf _ _).bind fun right _ =>
    ((dependable.finish _ _ fun _ => rfl).known fun final => environment.yields_finish _ _ fun _ => rfl).bind ?_
  rintro product ⟨-, _, id, rfl, -⟩
  refine (dependable.estimate _).bind fun _ _ => dependable.expand graph index (addable _ ?_) _
  exact Plan.mem_available_join.mpr (.inl bound)

theorem Dependable.connectionStart (dependable : environment.Dependable faults) (ledger : Ledger)
    (addable : ∀ bound : NameSet, connection.left ∈ bound ∨ connection.right ∈ bound → connection.Addable faults bound) :
    Completes faults (environment.connectionStart graph index connection ledger) fun _ => True := by
  unfold Environment.connectionStart
  refine (dependable.endpointStart ledger none _ ?_).bind fun single _ => ?_
  · intro endpoint member bound inside
    rcases List.mem_cons.mp member with rfl | other
    · exact addable bound (.inl inside)
    · exact addable bound (.inr (List.mem_singleton.mp other ▸ inside))
  · split
    · refine (dependable.cartesianStart ledger fun bound left => addable bound (.inl left)).attempt.bind ?_
      rintro _ (⟨cartesian, rfl, -⟩ | ⟨error, rfl, -⟩)
      · cases single with
        | some single => exact completes_pure trivial
        | none => exact completes_pure trivial
      · exact completes_pure trivial
    · exact completes_pure trivial

theorem Dependable.cheapestStart (dependable : environment.Dependable faults) (ledger : Ledger) (best : Option (Candidate ν))
    (connections : List (Nat × Connection)) (addable : ∀ entry ∈ connections, ∀ bound : NameSet,
      entry.2.left ∈ bound ∨ entry.2.right ∈ bound → entry.2.Addable faults bound) :
    Completes faults (environment.cheapestStart graph ledger best connections) fun _ => True := by
  induction connections generalizing best with
  | nil => exact completes_pure trivial
  | cons first rest further =>
    obtain ⟨index, connection⟩ := first
    have others := fun best => further best fun entry member => addable entry (List.mem_cons_of_mem _ member)
    unfold Environment.cheapestStart
    refine (dependable.connectionStart ledger (addable _ List.mem_cons_self)).bind fun started _ => ?_
    cases started with
    | some candidate => exact others _
    | none => exact others _

end Environment

end MatchPlanner
