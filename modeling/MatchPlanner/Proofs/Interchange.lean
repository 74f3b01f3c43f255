import MatchPlanner.Proofs.Alternatives
import MatchPlanner.Proofs.Bounds
import MatchPlanner.Proofs.Correspondence

/-! Planning with other type lists. As long as the lists that take the place of others name the same types and stand for as many
relationships, a clause is planned as it was before. In exact numbers that is so for lists which name the types of which there are
relationships equally often: their order makes no difference, their repetition does. -/

namespace MatchPlanner

variable {ν : Type} {alike : List String → List String → Prop}

open Planning

namespace Environment

variable {environment : Environment ν} (indifferent : environment.Indifferent alike) [Quantity ν]

include indifferent

/-! Partial plans. -/

omit [Quantity ν] in
theorem corresponds_placeReady {plan plan' : Plan} (retypes : plan.Retypes alike plan') (ledger : Ledger) :
    Corresponds alike (Paired (Plan.Retypes alike)) (environment.placeReady plan ledger) (environment.placeReady plan' ledger) := by
  unfold placeReady
  rw [retypes.available]
  exact (corresponds_filter indifferent retypes _).bind fun _ _ filtered => .pure ⟨filtered, rfl⟩

omit [Quantity ν] in
theorem corresponds_candidate {plan plan' : Plan} (retypes : plan.Retypes alike plan') (remaining : Ledger)
    {description description' : String} (worded : Worded alike description description') (connection : Option Nat) :
    Corresponds alike (Candidate.Retypes alike) (environment.candidate plan remaining description connection)
      (environment.candidate plan' remaining description' connection) :=
  (corresponds_estimate indifferent retypes).bind_same fun _ => .pure ⟨retypes, rfl, rfl, worded, rfl⟩

omit [Quantity ν] in
/-- What is ready is placed above a plan, which then is a candidate. -/
theorem corresponds_settle {plan plan' : Plan} (retypes : plan.Retypes alike plan') (ledger : Ledger)
    {description description' : String} (worded : Worded alike description description') (connection : Option Nat) :
    Corresponds alike (Candidate.Retypes alike)
      (do let (placed, remaining) ← environment.placeReady plan ledger
          environment.candidate placed remaining description connection)
      (do let (placed, remaining) ← environment.placeReady plan' ledger
          environment.candidate placed remaining description' connection) :=
  (corresponds_placeReady indifferent retypes ledger).bind_paired fun _ _ remaining plans =>
    corresponds_candidate indifferent plans remaining worded connection

theorem corresponds_expand {graph graph' : MatchGraph} (graphs : graph.Retypes alike graph') (index : Nat)
    {connection connection' : Connection} (retypes : connection.Retypes alike connection') {input input' : Plan}
    (inputs : input.Retypes alike input') (ledger : Ledger) :
    Corresponds alike (Candidate.Retypes alike) (environment.expand graph index connection input ledger)
      (environment.expand graph' index connection' input' ledger) := by
  cases retypes with
  | @relationship relationship relationship' same =>
    have expanded : Corresponds alike (Plan.Retypes alike) (environment.expandRelationship relationship input)
        (environment.expandRelationship relationship' input') := by
      unfold expandRelationship
      dsimp only
      rw [inputs.available, same.orientation]
      exact corresponds_finish indifferent (fun id => .step id (same.step (same.hop _ _) _) inputs) []
    exact expanded.bind fun _ _ plans => corresponds_settle indifferent plans ledger (.operator plans) (some index)
  | @quantified pattern pattern' same =>
    have ⟨requests, dischargeable⟩ := graphs.site same index input.available ledger
    unfold expand
    dsimp only
    rw [← inputs.available]
    refine (corresponds_planPattern indifferent inputs requests).bind fun planned planned' plans => ?_
    rw [plans.operator, plans.direction, plans.solvedOuter, plans.dischargedSiblings, dischargeable]
    exact corresponds_settle indifferent plans.plan _ (.connection _ (.quantified same)) (some index)

theorem corresponds_cheapestLeaf (ledger : Ledger) {best best' : Option (Candidate ν)}
    (kept : Option.Rel (Candidate.Retypes alike) best best') (leaves : List LeafCandidate) :
    Corresponds alike (Option.Rel (Candidate.Retypes alike)) (environment.cheapestLeaf ledger best leaves)
      (environment.cheapestLeaf ledger best' leaves) := by
  induction leaves generalizing best best' with
  | nil => exact .pure kept
  | cons leaf rest further =>
    unfold cheapestLeaf
    refine (corresponds_finish indifferent (fun id => .leaf id leaf.operator) leaf.solved).bind fun _ _ scans => ?_
    refine (corresponds_placeReady indifferent scans _).bind_paired fun _ _ remaining plans => ?_
    refine (corresponds_candidate indifferent plans remaining (.same _) none).bind fun _ _ candidates => ?_
    exact further (keepCheaper_retypes (fun _ _ same => same.estimate) kept candidates)

theorem corresponds_bestLeaf (node : String) (ledger : Ledger) :
    Corresponds alike (Candidate.Retypes alike) (environment.bestLeaf node ledger) (environment.bestLeaf node ledger) := by
  refine (corresponds_leafCandidates _ _).bind_same fun leaves =>
    (corresponds_cheapestLeaf indifferent ledger .none leaves).bind fun best best' kept => ?_
  cases kept with
  | some kept => exact .pure kept
  | none => exact .throw (.same _)

/-! Where a component starts. -/

variable {graph graph' : MatchGraph}

omit [Quantity ν] in
theorem corresponds_argumentPlan (graphs : graph.Retypes alike graph') :
    Corresponds alike (Plan.Retypes alike) (environment.argumentPlan graph) (environment.argumentPlan graph') := by
  obtain ⟨_⟩ := graphs
  exact corresponds_finish indifferent (fun id => .leaf id _) []

omit [Quantity ν] in
theorem corresponds_argumentStart (graphs : graph.Retypes alike graph') (ledger : Ledger) :
    Corresponds alike (Candidate.Retypes alike) (environment.argumentStart graph ledger) (environment.argumentStart graph' ledger) :=
  (corresponds_argumentPlan indifferent graphs).bind fun _ _ plans => corresponds_settle indifferent plans ledger (.same _) none

theorem corresponds_endpointStart (graphs : graph.Retypes alike graph') (index : Nat) {connection connection' : Connection}
    (retypes : connection.Retypes alike connection') (ledger : Ledger) {best best' : Option (Candidate ν)}
    (kept : Option.Rel (Candidate.Retypes alike) best best') (endpoints : List String) :
    Corresponds alike (Option.Rel (Candidate.Retypes alike)) (environment.endpointStart graph index connection ledger best endpoints)
      (environment.endpointStart graph' index connection' ledger best' endpoints) := by
  induction endpoints generalizing best best' with
  | nil => exact .pure kept
  | cons endpoint rest further =>
    unfold endpointStart
    refine (corresponds_bestLeaf indifferent endpoint ledger).bind fun leaf leaf' leaves => ?_
    rw [leaves.remaining]
    refine (corresponds_expand indifferent graphs index retypes leaves.plan leaf'.remaining).attempt.bind fun _ _ answers => ?_
    cases answers with
    | ok candidates => exact further (keepCheaper_retypes (fun _ _ same => same.estimate) kept candidates)
    | error _ => exact further kept

theorem corresponds_cartesianStart (graphs : graph.Retypes alike graph') (index : Nat) {connection connection' : Connection}
    (retypes : connection.Retypes alike connection') (ledger : Ledger) :
    Corresponds alike (Candidate.Retypes alike) (environment.cartesianStart graph index connection ledger)
      (environment.cartesianStart graph' index connection' ledger) := by
  unfold cartesianStart
  rw [retypes.left, retypes.right]
  refine (corresponds_bestLeaf indifferent _ ledger).bind fun left left' lefts => ?_
  rw [lefts.remaining]
  refine (corresponds_bestLeaf indifferent _ left'.remaining).bind fun right right' rights => ?_
  rw [rights.remaining]
  exact (corresponds_finish indifferent (fun id => .join id .cartesianProduct lefts.plan rights.plan) []).bind fun _ _ products =>
    (corresponds_estimate indifferent products).bind_same fun _ =>
    corresponds_expand indifferent graphs index retypes products right'.remaining

theorem corresponds_connectionStart (graphs : graph.Retypes alike graph') (index : Nat) {connection connection' : Connection}
    (retypes : connection.Retypes alike connection') (ledger : Ledger) :
    Corresponds alike (Option.Rel (Candidate.Retypes alike)) (environment.connectionStart graph index connection ledger)
      (environment.connectionStart graph' index connection' ledger) := by
  have crossing : crosses connection = crosses connection' := by
    rw [crosses, crosses, retypes.left, retypes.right, retypes.isQuantified]
  unfold connectionStart
  rw [crossing, retypes.left, retypes.right]
  refine (corresponds_endpointStart indifferent graphs index retypes ledger .none _).bind fun single single' singles =>
    .ite ((corresponds_cartesianStart indifferent graphs index retypes ledger).attempt.bind fun _ _ answers => ?_) (.pure singles)
  cases answers with
  | error _ => exact .pure singles
  | ok cartesians =>
    cases singles with
    | none => exact .pure (.some cartesians)
    | some singles =>
      dsimp only
      rw [singles.estimate, cartesians.estimate]
      refine .pure (.some ?_)
      split
      · exact cartesians
      · exact singles

theorem corresponds_cheapestStart (graphs : graph.Retypes alike graph') (ledger : Ledger) {best best' : Option (Candidate ν)}
    (kept : Option.Rel (Candidate.Retypes alike) best best') {connections connections' : List (Nat × Connection)}
    (retypes : List.Forall₂ (Connection.RetypesAt alike) connections connections') :
    Corresponds alike (Option.Rel (Candidate.Retypes alike)) (environment.cheapestStart graph ledger best connections)
      (environment.cheapestStart graph' ledger best' connections') := by
  induction retypes generalizing best best' with
  | nil => exact .pure kept
  | @cons first first' _ _ same _ further =>
    obtain ⟨index, connection⟩ := first
    obtain ⟨_, connection'⟩ := first'
    obtain ⟨rfl, same⟩ := same
    unfold cheapestStart
    refine (corresponds_connectionStart indifferent graphs index same ledger).bind fun _ _ started => ?_
    cases started with
    | some candidates => exact further (keepCheaper_retypes (fun _ _ same => same.estimate) kept candidates)
    | none => exact further kept

theorem corresponds_chooseStart (graphs : graph.Retypes alike graph') (component : Component) (ledger : Ledger) :
    Corresponds alike (Candidate.Retypes alike) (environment.chooseStart graph component ledger)
      (environment.chooseStart graph' component ledger) := by
  have connections := graphs.connectionsAt component.connections
  have argumented := corresponds_argumentStart indifferent graphs ledger
  have arguments : graph.arguments = graph'.arguments := by
    obtain ⟨_⟩ := graphs
    rfl
  unfold chooseStart
  rw [arguments]
  refine .ite argumented ?_
  generalize connectionsAt graph component.connections = indexed at connections
  generalize connectionsAt graph' component.connections = indexed' at connections
  cases connections with
  | nil =>
    dsimp only
    split
    · exact .throw (.same _)
    · exact corresponds_bestLeaf indifferent _ ledger
  | @cons first first' _ _ same others =>
    have started := corresponds_cheapestStart indifferent graphs ledger .none (.cons same others)
    obtain ⟨index, connection⟩ := first
    obtain ⟨_, connection'⟩ := first'
    obtain ⟨rfl, same⟩ := same
    refine started.bind fun _ _ kept => ?_
    cases kept with
    | some best => exact .pure best
    | none =>
      dsimp only
      rw [same.left]
      refine (corresponds_bestLeaf indifferent _ ledger).bind fun leaf leaf' leaves => ?_
      rw [leaves.remaining]
      exact corresponds_expand indifferent graphs index same leaves.plan leaf'.remaining

/-! How it grows. -/

theorem corresponds_hashJoinCandidate (index : Nat) {relationship relationship' : PatternRelationship}
    (same : relationship.Retypes alike relationship') {plan plan' : Plan} (retypes : plan.Retypes alike plan') (ledger : Ledger) :
    Corresponds alike (Option.Rel (Candidate.Retypes alike)) (environment.hashJoinCandidate index relationship plan ledger)
      (environment.hashJoinCandidate index relationship' plan' ledger) := by
  have isPath : relationship.isPath = relationship'.isPath := by
    obtain ⟨_⟩ := same
    rfl
  unfold hashJoinCandidate
  dsimp only
  rw [retypes.available, same.orientation, isPath, same.name]
  refine .ite (.pure .none) (.ite (.pure .none) ?_)
  refine (corresponds_bestLeaf indifferent _ ledger).bind fun leaf leaf' leaves => ?_
  rw [leaves.remaining]
  refine .ite (.pure .none) ?_
  refine (corresponds_finish indifferent (fun id => .step id (.expand _ _ (same.hop _ _)) leaves.plan) []).bind fun _ _ rights => ?_
  refine (corresponds_finish indifferent (fun id => .join id (.nodeHashJoin _) retypes rights) []).bind fun _ _ joins => ?_
  refine (corresponds_placeReady indifferent joins leaf'.remaining).bind_paired fun _ _ remaining plans => ?_
  exact (corresponds_candidate indifferent plans remaining (.connection _ (.relationship same)) (some index)).bind fun _ _ candidates =>
    .pure (.some candidates)

theorem corresponds_offerJoin (index : Nat) {relationship relationship' : PatternRelationship}
    (same : relationship.Retypes alike relationship') {plan plan' : Plan} (plans : plan.Retypes alike plan') (ledger : Ledger)
    {search search' : GrowthSearch ν} (searches : search.Retypes alike search')
    {next next' : Option (Candidate ν) → Planning ν (GrowthSearch ν)} (skips : next none = pure search)
    (skips' : next' none = pure search')
    (offers : ∀ candidate, next (some candidate) = pure (search.offer index (.relationship relationship) candidate))
    (offers' : ∀ candidate, next' (some candidate) = pure (search'.offer index (.relationship relationship') candidate)) :
    Corresponds alike (GrowthSearch.Retypes alike) (environment.hashJoinCandidate index relationship plan ledger >>= next)
      (environment.hashJoinCandidate index relationship' plan' ledger >>= next') := by
  refine (corresponds_hashJoinCandidate indifferent index same plans ledger).bind fun _ _ joined => ?_
  cases joined with
  | none =>
    rw [skips, skips']
    exact .pure searches
  | some candidates =>
    rw [offers, offers']
    exact .pure (searches.offer index (.relationship same) candidates)

theorem corresponds_growThrough (graphs : graph.Retypes alike graph') {plan plan' : Plan} (plans : plan.Retypes alike plan')
    (ledger : Ledger) {search search' : GrowthSearch ν} (searches : search.Retypes alike search') (index : Nat)
    {connection connection' : Connection} (same : connection.Retypes alike connection') :
    Corresponds alike (GrowthSearch.Retypes alike) (environment.growThrough graph plan ledger search index connection)
      (environment.growThrough graph' plan' ledger search' index connection') := by
  unfold growThrough
  refine (corresponds_estimate indifferent plans).bind_same fun _ =>
    (corresponds_expand indifferent graphs index same plans ledger).attempt.bind fun _ _ answers => ?_
  cases answers with
  | ok candidates =>
    have offered := searches.offer index same candidates
    cases same with
    | quantified _ => exact .pure offered
    | relationship same =>
      exact corresponds_offerJoin indifferent index same plans ledger offered rfl rfl (fun _ => rfl) fun _ => rfl
  | error error =>
    have failed := searches.fail error
    cases same with
    | quantified _ => exact .pure failed
    | relationship same =>
      exact corresponds_offerJoin indifferent index same plans ledger failed rfl rfl (fun _ => rfl) fun _ => rfl

theorem corresponds_cheapestGrowth (graphs : graph.Retypes alike graph') {plan plan' : Plan} (plans : plan.Retypes alike plan')
    (ledger : Ledger) {search search' : GrowthSearch ν} (searches : search.Retypes alike search')
    {connections connections' : List (Nat × Connection)}
    (retypes : List.Forall₂ (Connection.RetypesAt alike) connections connections') :
    Corresponds alike (GrowthSearch.Retypes alike) (environment.cheapestGrowth graph plan ledger search connections)
      (environment.cheapestGrowth graph' plan' ledger search' connections') := by
  induction retypes generalizing search search' with
  | nil => exact .pure searches
  | @cons first first' _ _ same _ further =>
    obtain ⟨index, connection⟩ := first
    obtain ⟨_, connection'⟩ := first'
    obtain ⟨rfl, same⟩ := same
    unfold cheapestGrowth
    rw [plans.available, same.left, same.right]
    exact .ite ((corresponds_growThrough indifferent graphs plans ledger searches index same).bind fun _ _ searches => further searches)
      (further searches)

omit indifferent [Quantity ν] in
theorem TraceMetadata.ofCandidate_retypes {candidate candidate' : Candidate ν} (retypes : candidate.Retypes alike candidate') :
    TraceMetadata.ofCandidate candidate = .ofCandidate candidate' := by
  rw [TraceMetadata.ofCandidate, TraceMetadata.ofCandidate, retypes.plan.kind, retypes.plan.available, retypes.estimate]

theorem corresponds_grow (graphs : graph.Retypes alike graph') (component : Component) (rounds steps : Nat)
    {current current' : Candidate ν} (currents : current.Retypes alike current') {remaining remaining' : List (Nat × Connection)}
    (retypes : List.Forall₂ (Connection.RetypesAt alike) remaining remaining') :
    Corresponds alike (Paired (Candidate.Retypes alike))
      (environment.grow graph component rounds steps current remaining)
      (environment.grow graph' component rounds steps current' remaining') := by
  induction rounds generalizing steps current current' remaining remaining' with
  | zero => exact .pure ⟨currents, rfl⟩
  | succ rounds further =>
    have others (index : Nat) := Connection.RetypesAt.filter retypes (· != index)
    have empty : remaining.isEmpty = remaining'.isEmpty := by cases retypes <;> rfl
    unfold grow
    rw [empty, currents.remaining]
    -- With or without a look at the request for cancellation, the step is the same.
    refine .ite (.pure ⟨currents, rfl⟩) (.ite (Corresponds.checkCancellation.bind_same fun _ => ?_) ?_) <;>
    · refine (corresponds_cheapestGrowth indifferent graphs currents.plan _ ⟨.none, .none⟩ retypes).bind fun search search' searches => ?_
      obtain ⟨best, failure⟩ := search
      obtain ⟨best', failure'⟩ := search'
      obtain ⟨found, failed⟩ := searches
      cases found with
      | @some found found' same =>
        obtain ⟨index, connection, chosen⟩ := found
        obtain ⟨_, connection', chosen'⟩ := found'
        obtain ⟨rfl, same, candidates⟩ := same
        have phase : growthPhase connection = growthPhase connection' := by cases same <;> rfl
        dsimp only
        rw [phase, TraceMetadata.ofCandidate_retypes candidates]
        exact (Corresponds.record _ candidates.description _).bind_same fun _ => further (steps + 1) candidates (others index)
      | none =>
        cases failed with
        | some error => exact .throw error
        | none => exact .throw (.same _)

theorem corresponds_planComponent (graphs : graph.Retypes alike graph') (component : Component) (steps : Nat) (ledger : Ledger) :
    Corresponds alike (Paired (Candidate.Retypes alike))
      (environment.planComponent graph component steps ledger) (environment.planComponent graph' component steps ledger) := by
  have connections := graphs.connectionsAt component.connections
  unfold planComponent
  refine (corresponds_chooseStart indifferent graphs component ledger).bind fun start start' starts => ?_
  dsimp only
  rw [TraceMetadata.ofCandidate_retypes starts, connections.length_eq, starts.connection]
  exact (Corresponds.record _ starts.description _).bind_same fun _ => corresponds_grow indifferent graphs component _ steps starts
    (Connection.RetypesAt.filter connections fun index => some index != start'.connection)

/-! The whole clause. -/

/-- The plans of components, with the predicates that are open above them. -/
theorem corresponds_planComponents (graphs : graph.Retypes alike graph') (steps : Nat) (ledger : Ledger) (components : List Component) :
    Corresponds alike (Paired (List.Forall₂ (Candidate.Retypes alike)))
      (environment.planComponents graph steps ledger components) (environment.planComponents graph' steps ledger components) := by
  induction components generalizing steps ledger with
  | nil => exact .pure ⟨.nil, rfl⟩
  | cons component rest further =>
    unfold planComponents
    refine Corresponds.checkCancellation.bind_same fun _ =>
      (corresponds_planComponent indifferent graphs component steps ledger).bind_paired fun planned planned' count candidates => ?_
    dsimp only
    rw [candidates.remaining]
    exact (further count planned'.remaining).bind_paired fun _ _ _ plans => .pure ⟨.cons candidates plans, rfl⟩

omit [Quantity ν] in
theorem corresponds_product {left left' right right' : Plan} (lefts : left.Retypes alike left') (rights : right.Retypes alike right')
    (ledger : Ledger) :
    Corresponds alike (Paired (Plan.Retypes alike)) (environment.product left right ledger) (environment.product left' right' ledger) :=
  (corresponds_finish indifferent (fun id => .join id .cartesianProduct lefts rights) []).bind fun _ _ products =>
    corresponds_placeReady indifferent products ledger

omit [Quantity ν] in
theorem corresponds_combineLegs {root root' : Plan} (roots : root.Retypes alike root') (ledger : Ledger) {legs legs' : List (Candidate ν)}
    (same : List.Forall₂ (Candidate.Retypes alike) legs legs') :
    Corresponds alike (Paired (Plan.Retypes alike)) (environment.combineLegs root ledger legs)
      (environment.combineLegs root' ledger legs') := by
  induction same generalizing root root' ledger with
  | nil => exact .pure ⟨roots, rfl⟩
  | cons leg _ further =>
    unfold combineLegs
    refine Corresponds.checkCancellation.bind_same fun _ =>
      (corresponds_product indifferent roots leg.plan ledger).bind_paired fun _ _ remaining plans => ?_
    dsimp only
    rw [plans.kind]
    exact (Corresponds.record _ (.same _) _).bind_same fun _ => further plans remaining

theorem corresponds_combine (graphs : graph.Retypes alike graph') {planned planned' : List (Candidate ν)}
    (same : List.Forall₂ (Candidate.Retypes alike) planned planned') (ledger : Ledger) :
    Corresponds alike (Paired (Plan.Retypes alike)) (environment.combine graph planned ledger)
      (environment.combine graph' planned' ledger) := by
  have sorted : List.Forall₂ (Candidate.Retypes alike)
      (planned.mergeSort fun first second => Quantity.sortsBefore first.estimate.cost second.estimate.cost)
      (planned'.mergeSort fun first second => Quantity.sortsBefore first.estimate.cost second.estimate.cost) :=
    forall₂_mergeSort same fun _ _ _ _ one other => by rw [one.estimate, other.estimate]
  have argumented := corresponds_argumentPlan indifferent graphs
  have started := corresponds_argumentStart indifferent graphs ledger
  have arguments : graph.arguments = graph'.arguments := by
    obtain ⟨_⟩ := graphs
    rfl
  unfold combine
  rw [arguments]
  generalize planned.mergeSort _ = ordered at sorted
  generalize planned'.mergeSort _ = ordered' at sorted
  cases sorted with
  | nil => exact .ite (.throw (.same _)) (started.bind fun _ _ starts => .pure ⟨starts.plan, starts.remaining⟩)
  | cons first legs =>
    dsimp only
    rw [first.plan.available]
    refine .ite (corresponds_combineLegs indifferent first.plan ledger legs) (argumented.bind fun _ _ below => ?_)
    exact (corresponds_product indifferent below first.plan ledger).bind_paired fun _ _ remaining plans =>
      corresponds_combineLegs indifferent plans remaining legs

theorem corresponds_compose (graphs : graph.Retypes alike graph') :
    Corresponds alike (Plan.Retypes alike) (environment.compose graph) (environment.compose graph') := by
  unfold compose
  dsimp only
  rw [graphs.components, graphs.ledger indifferent.members]
  refine (Corresponds.record _ (.same _) _).bind_same fun _ =>
    (corresponds_planComponents indifferent graphs 0 _ _).bind_paired fun _ _ ledger candidates => ?_
  refine (corresponds_combine indifferent graphs candidates ledger).bind_paired fun _ _ remaining plans => ?_
  cases remaining with
  | nil => exact .pure plans
  | cons entry others =>
    dsimp only
    rw [Plan.Retypes.available plans]
    exact .throw (.same _)

end Environment

/-! A clause is refused as its counterpart is. -/

namespace MatchGraph.Retypes

variable {graph graph' : MatchGraph}

theorem checkConnections (nodes seen : List String) {connections connections' : List Connection}
    (same : List.Forall₂ (Connection.Retypes alike) connections connections') :
    Answers alike Eq ((MatchGraph.checkConnections nodes seen connections).mapError .malformedPattern)
      ((MatchGraph.checkConnections nodes seen connections').mapError .malformedPattern) := by
  induction same generalizing seen with
  | nil => exact .ok rfl
  | cons same _ further =>
    unfold MatchGraph.checkConnections
    rw [same.left, same.right, same.exposed]
    split
    · exact .error (.undeclaredNode _ (.shown same))
    · split
      · exact .error (.undeclaredNode _ (.shown same))
      · cases checkExposed nodes seen _ with
        | error fault => exact .error (.same _)
        | ok seen => exact further seen

theorem validate (graphs : graph.Retypes alike graph') : Answers alike Eq graph.validate graph'.validate := by
  rcases graphs with @⟨connections, same⟩
  unfold MatchGraph.validate nodeNames
  cases checkNodes [] (graph.nodes.map PatternNode.name) with
  | error fault => exact .error (.same _)
  | ok => exact checkConnections _ [] same

end MatchGraph.Retypes

namespace Environment

variable {environment : Environment ν} [Quantity ν] {graph graph' : MatchGraph}

/-- The sessions may differ in what is left of a run before: the trace and the arena are begun anew. -/
theorem corresponds_plan (indifferent : environment.Indifferent alike) (graphs : graph.Retypes alike graph') :
    Corresponds alike (PlannedQuery.Retypes alike) (environment.plan graph) (environment.plan graph') := by
  have resets : Corresponds alike Eq (modify fun session => { session with arena := .empty, trace := [] } : Planning ν PUnit)
      (modify fun session => { session with arena := .empty, trace := [] }) :=
    fun _ _ sessions => .ok rfl ⟨rfl, .nil, sessions.leafCalls, sessions.cancelled⟩
  have returns {root root' : Plan} (roots : root.Retypes alike root') :
      Corresponds alike (PlannedQuery.Retypes alike) (planned root : Planning ν (PlannedQuery ν)) (planned root') :=
    fun _ _ sessions => .ok ⟨roots, sessions.arena, sessions.trace, rfl⟩ sessions
  unfold plan planRoot
  simp only [bind_assoc, pure_bind]
  refine resets.bind_same fun _ => (Corresponds.ofExcept_same _).bind_same fun _ =>
    (Corresponds.ofExcept graphs.validate).bind_same fun _ => (corresponds_compose indifferent graphs).bind fun root root' roots => ?_
  refine (corresponds_estimate indifferent roots).bind_same fun estimate => ?_
  rw [roots.kind]
  exact (Corresponds.record _ (.same _) _).bind_same fun _ => returns roots

end Environment

theorem Session.Retypes.refl (session : Session ν) : session.Retypes alike session :=
  ⟨rfl, List.forall₂_same.mpr fun _ _ => ⟨rfl, .same _, rfl, rfl⟩, rfl, rfl⟩

/-! Lists that a query reads as one set. -/

namespace Statistics

/-- The two lists name the same types, and those of which there are relationships equally often. -/
structure CountsAlike (statistics : Statistics ν) (types types' : List String) : Prop where
  names : NamesAlike types types'
  counts : ∀ type, (statistics.relationshipCounts.lookup type).getD 0 ≠ 0 → types.count type = types'.count type

/-- Exact numbers may be summed in any order. -/
theorem sameWeight_countsAlike (statistics : Statistics Rat) : statistics.SameWeight statistics.CountsAlike := by
  intro types types' alike
  have occurring : types.toFinset = types'.toFinset := by
    ext type
    rw [List.mem_toFinset, List.mem_toFinset, alike.names]
  have summed : (types.map statistics.typeCount).sum = (types'.map statistics.typeCount).sum := by
    rw [Finset.sum_list_map_count, Finset.sum_list_map_count, occurring]
    refine Finset.sum_congr rfl fun type _ => ?_
    by_cases none : (statistics.relationshipCounts.lookup type).getD 0 = 0
    · have zero : statistics.typeCount type = (0 : Rat) := by
        rw [typeCount, none]
        exact Nat.cast_zero
      rw [zero, nsmul_zero, nsmul_zero]
    · rw [alike.counts type none]
  rw [relationshipCount, relationshipCount, isEmpty_congr alike.names, Quantity.sum_exact, Quantity.sum_exact, summed]

end Statistics

namespace Environment

variable {environment : Environment Rat} {model : CostModel Rat}

/-- The planner reads the types of a relationship as a set, wherever none of which there are relationships is named more often in one
list than in the other: both clauses are planned alike, operator by operator and with the same estimates, or refused for the same
reason. Types that are named again are counted again. -/
theorem plan_interchanges (estimates : environment.estimator = fun plan statistics => model.estimate statistics plan)
    {graph graph' : MatchGraph} (graphs : graph.Retypes environment.statistics.CountsAlike graph') (session : Session Rat) :
    Ends environment.statistics.CountsAlike (PlannedQuery.Retypes environment.statistics.CountsAlike)
      (environment.plan graph session) (environment.plan graph' session) := by
  have indifferent : environment.Indifferent environment.statistics.CountsAlike := by
    refine ⟨fun _ _ alike => alike.names, fun plan plan' retypes => ?_⟩
    rw [estimates]
    exact model.estimate_retypes environment.statistics.sameWeight_countsAlike retypes
  exact corresponds_plan indifferent graphs session session (.refl session)

end Environment

/-! One relationship between two nodes, of any of the types. -/

namespace MatchGraph

def typed (types : List String) : MatchGraph where
  nodes := [⟨"a", []⟩, ⟨"b", []⟩]
  connections := [.relationship ⟨"r", "a", "b", .outgoing, types, .simple⟩]
  selections := []
  arguments := ∅
  required := ∅
  distinctEndpoints := false

theorem typed_retypes {alike : List String → List String → Prop} {types types' : List String} (same : alike types types') :
    (typed types).Retypes alike (typed types') :=
  .mk (typed types) (.cons (.relationship (.mk ⟨"r", "a", "b", .outgoing, types, .simple⟩ same)) .nil)

/-- The two types may change places, and a third one, of which there is no relationship, may be repeated. -/
theorem typed_interchanged :
    (typed ["R", "S", "T"]).Retypes (Statistics.counts 40 60).CountsAlike (typed ["S", "T", "R", "T"]) ∧ ∃ query after query' after',
      (Environment.standard .standard (Statistics.counts 40 60)).plan (typed ["R", "S", "T"]) (.initial false) = .ok query after ∧
      (Environment.standard .standard (Statistics.counts 40 60)).plan (typed ["S", "T", "R", "T"]) (.initial false) =
        .ok query' after' ∧
      query.Retypes (Statistics.counts 40 60).CountsAlike query' := by
  have alike : (Statistics.counts 40 60).CountsAlike ["R", "S", "T"] ["S", "T", "R", "T"] := by
    refine ⟨fun type => by simp only [List.mem_cons]; tauto, fun type counted => ?_⟩
    have third : type ≠ "T" := by
      rintro rfl
      exact counted rfl
    simp only [List.count_cons, List.count_nil, beq_false_of_ne third.symm, Bool.false_eq_true, if_false]
    omega
  have retypes := typed_retypes alike
  have estimates : (Environment.standard .standard (Statistics.counts 40 60)).estimator =
      fun plan statistics => CostModel.standard.estimate statistics plan := rfl
  have ends := Environment.plan_interchanges estimates retypes (.initial false)
  have planned : (returned? ((Environment.standard .standard (Statistics.counts 40 60)).plan (typed ["R", "S", "T"])
      (.initial false))).isSome = true := by decide +kernel
  obtain ⟨query, planned⟩ := Option.isSome_iff_exists.mp planned
  have ran := ok_of_returned? planned
  rw [ran] at ends
  generalize (Environment.standard .standard (Statistics.counts 40 60)).plan (typed ["S", "T", "R", "T"]) (.initial false) = other at ends
  cases ends with
  | ok same sessions => exact ⟨retypes, query, _, _, _, ran, rfl, same⟩

/-- A type that is named twice is counted twice: the plan is expected to return twice the rows. -/
theorem typed_repeated :
    (typed ["R"]).Retypes NamesAlike (typed ["R", "R"]) ∧
      ¬Ends NamesAlike (PlannedQuery.Retypes NamesAlike)
        ((Environment.standard .standard (Statistics.counts 40 60)).plan (typed ["R"]) (.initial false))
        ((Environment.standard .standard (Statistics.counts 40 60)).plan (typed ["R", "R"]) (.initial false)) := by
  have names : NamesAlike ["R"] ["R", "R"] := fun type => by simp
  have rows : (returned? ((Environment.standard .standard (Statistics.counts 40 60)).plan (typed ["R"]) (.initial false))).map
        (fun query => query.arena.cardinalities.get? query.root.id) ≠
      (returned? ((Environment.standard .standard (Statistics.counts 40 60)).plan (typed ["R", "R"]) (.initial false))).map
        (fun query => query.arena.cardinalities.get? query.root.id) := by decide +kernel
  refine ⟨typed_retypes names, fun ends => rows ?_⟩
  generalize (Environment.standard .standard (Statistics.counts 40 60)).plan (typed ["R"]) (.initial false) = first at ends
  generalize (Environment.standard .standard (Statistics.counts 40 60)).plan (typed ["R", "R"]) (.initial false) = second at ends
  cases ends with
  | ok same _ =>
    simp only [returned?, Option.map_some]
    rw [same.arena, same.root.id]
  | error => rfl

end MatchGraph

end MatchPlanner
