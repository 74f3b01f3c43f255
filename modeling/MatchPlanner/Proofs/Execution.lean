import MatchPlanner.Proofs.Components
import MatchPlanner.Proofs.Construction

/-! Every plan that a run returns has come about as the construction says. There is one statement for each function of the
planner, and each is put together from those of the functions it calls. -/

namespace MatchPlanner

open Planning

variable {ν : Type} {environment : Environment ν} {final : Session ν}

theorem isReserved_trailEnd (number : Nat) : isReserved ("  " ++ "trail_end" ++ "_" ++ toString number) = true := by
  have joined : "  " ++ "trail_end" ++ "_" = "  trail_end_" := by decide
  rw [joined, isReserved, String.toList_append]
  exact List.isPrefixOf_iff_prefix.mpr (List.prefix_append _ _)

/-! Inside a quantified pattern. -/

namespace Environment

theorem yields_placeInner (progress : InnerProgress) (checks : List Expression) :
    Yields final (environment.placeInner progress checks) (InnerPlaced progress checks) := by
  unfold placeInner
  simp only [List.partition_eq_filter_filter]
  refine (environment.yields_filter _ _).bind fun plan => yields_pure fun filtered => ?_
  exact ⟨filtered, rfl, rfl⟩

theorem yields_innerSteps (siblings : List RelationshipProducer) (earlier steps : List TrailStep) (progress : InnerProgress) :
    Yields final (environment.innerSteps siblings earlier progress steps) (InnerSteps siblings earlier progress steps) := by
  induction steps generalizing earlier progress with
  | nil => exact yields_pure .done
  | cons step rest further =>
    unfold innerSteps
    refine (environment.yields_finish _ _ fun _ => rfl).bind fun expanded => (yields_placeInner _ _).bind fun placed =>
      (further _ _).weaken fun last stepped above taken => ?_
    obtain ⟨id, rfl, -⟩ := taken
    exact .step above stepped

theorem yields_innerPlan (pattern : QuantifiedPattern) (classification : Classification) (bound : NameSet) (innerStart : String)
    (steps : List TrailStep) (siblings : List RelationshipProducer) :
    Yields final (environment.innerPlan pattern classification bound innerStart steps siblings)
      (InnerBuilt classification.innerPredicates
        (innerArguments pattern classification.innerPredicates bound innerStart siblings) steps siblings) := by
  unfold innerPlan
  refine (environment.yields_finish _ _ fun _ => rfl).bind fun argument => (yields_placeInner _ _).bind fun started =>
    (yields_innerSteps _ _ _ _).bind fun last => ?_
  split
  next complete =>
    apply yields_pure
    intro stepped begun finished
    obtain ⟨id, rfl, -⟩ := finished
    exact .built begun stepped complete
  next => exact yields_throw _ _

theorem yields_varExpandCandidate (source : Plan) (request : QuantifiedRequest) (direction : TraversalDirection)
    (collapses : request.collapses environment.config (request.sorted source) (request.needs source) = true)
    (possible : direction ∈ request.directions source.available) :
    Yields final
      (environment.varExpandCandidate source request (request.sorted source) (request.needs source) source.available direction)
      fun planned => planned.solvedOuter = (request.sorted source).solved ∧
        ∃ operator, PatternPlanned environment final.arena source request operator planned.plan planned.dischargedSiblings := by
  unfold varExpandCandidate
  split
  · exact yields_throw _ _
  next relationship others relationships =>
    split
    · exact yields_throw _ _
    next group grouped =>
      refine (environment.yields_finish _ _ fun _ => rfl).bind fun plan => (environment.yields_estimate _).bind fun estimate =>
        yields_pure fun _ ⟨id, same, recorded⟩ => ⟨rfl, ?_⟩
      subst same
      exact ⟨_, .collapsed collapses possible relationships grouped recorded⟩

end Environment

theorem TrailRequest.yields_build (request : TrailRequest) :
    Yields final request.build fun built => request.near.outer ∈ request.bound ∧
      ((request.far.outer ∉ request.bound ∧ built = (request.parameters request.far.outer, none)) ∨
        ∃ fresh, request.far.outer ∈ request.bound ∧ isReserved fresh = true ∧
          built = (request.parameters fresh, some (.equals (.reference fresh) (.reference request.far.outer)))) := by
  unfold build
  refine .ite (yields_throw _ _) (.ite ?_ ?_)
  · refine (yields_freshName _).bind fun fresh => yields_pure fun ⟨number, same⟩ taken near => ?_
    exact ⟨Classical.not_not.mp near, .inr ⟨fresh, taken, same ▸ isReserved_trailEnd number, rfl⟩⟩
  · exact yields_pure fun free near => ⟨Classical.not_not.mp near, .inl ⟨free, rfl⟩⟩

namespace Environment

theorem yields_trailCandidate (source : Plan) (request : QuantifiedRequest) (direction : TraversalDirection)
    (kept : request.collapses environment.config (request.sorted source) (request.needs source) = false)
    (possible : direction ∈ request.directions source.available) :
    Yields final
      (environment.trailCandidate source request (request.sorted source) (request.needs source) source.available direction)
      fun planned => planned.solvedOuter = (request.sorted source).solved ∧
        ∃ operator, PatternPlanned environment final.arena source request operator planned.plan planned.dischargedSiblings := by
  unfold trailCandidate
  refine ((request.trail source direction).yields_build).bind fun ⟨parameters, equality⟩ =>
    (yields_innerPlan _ _ _ _ _ _).bind fun inner => (environment.yields_finish _ _ fun _ => rfl).bind fun trail => ?_
  cases equality with
  | none =>
    refine (environment.yields_estimate _).bind fun estimate => yields_pure ?_
    rintro - ⟨id, rfl, recorded⟩ built ⟨-, ⟨free, same⟩ | ⟨fresh, -, -, same⟩⟩
    · cases same
      exact ⟨rfl, _, .looped kept possible built recorded (.reached free)⟩
    · cases same
  | some equality =>
    refine (environment.yields_filter _ _).bind fun plan => (environment.yields_estimate _).bind fun estimate => yields_pure ?_
    rintro - filtered ⟨id, rfl, recorded⟩ built ⟨-, ⟨free, same⟩ | ⟨fresh, taken, reserved, same⟩⟩
    · cases same
    · cases same
      cases filtered with
      | filter some => exact ⟨rfl, _, .looped kept possible built recorded (.closed taken reserved)⟩

variable [Quantity ν]

/-- What holds of every candidate holds of the one that is kept. -/
theorem keepCheaper_some {β : Type} {estimate : β → Estimate ν} {best : Option β} {candidate : β} {good : β → Prop}
    (former : ∀ kept, best = some kept → good kept) (latter : good candidate) :
    ∀ kept, keepCheaper estimate best candidate = some kept → good kept := by
  intro kept chosen
  unfold keepCheaper at chosen
  split at chosen
  · cases chosen
    exact latter
  · split at chosen
    · cases chosen
      exact latter
    · cases chosen
      exact former _ rfl

theorem yields_cheapestDirection {candidate : TraversalDirection → Planning ν (PlannedPattern ν)}
    {good : PlannedPattern ν → Prop} (directions : List TraversalDirection)
    (each : ∀ direction ∈ directions, Yields final (candidate direction) good) (best : Option (PlannedPattern ν))
    (failure : Option PlanningError) :
    Yields final (cheapestDirection candidate best failure directions) fun result =>
      (∀ kept, best = some kept → good kept) → ∀ kept, result.1 = some kept → good kept := by
  induction directions generalizing best failure with
  | nil => exact yields_pure fun former => former
  | cons direction rest further =>
    have others := fun direction member => each direction (List.mem_cons_of_mem _ member)
    unfold cheapestDirection
    apply (each direction List.mem_cons_self).attempt.bind
    intro outcome
    cases outcome with
    | ok planned =>
      exact (further others _ _).weaken fun result kept tried former => kept (keepCheaper_some former (tried planned rfl))
    | error error => exact (further others _ _).weaken fun result kept _ => kept

theorem yields_planPattern (source : Plan) (request : QuantifiedRequest) :
    Yields final (environment.planPattern source request) fun planned =>
      planned.solvedOuter = (request.sorted source).solved ∧
        ∃ operator, PatternPlanned environment final.arena source request operator planned.plan planned.dischargedSiblings := by
  unfold planPattern
  refine .ite (yields_throw _ _) ?_
  have each : ∀ direction ∈ request.directions source.available,
      Yields final ((if request.collapses environment.config (request.sorted source) (request.needs source) then
        environment.varExpandCandidate source request (request.sorted source) (request.needs source) source.available
        else environment.trailCandidate source request (request.sorted source) (request.needs source) source.available)
          direction) fun planned => planned.solvedOuter = (request.sorted source).solved ∧
        ∃ operator, PatternPlanned environment final.arena source request operator planned.plan planned.dischargedSiblings := by
    intro direction possible
    split
    next collapses => exact yields_varExpandCandidate source request direction collapses possible
    next kept => exact yields_trailCandidate source request direction (Bool.not_eq_true _ ▸ kept) possible
  refine (yields_cheapestDirection _ each _ _).bind fun ⟨best, failure⟩ => ?_
  cases best with
  | some best => exact yields_pure fun kept _ => kept (fun _ impossible => by cases impossible) _ rfl
  | none =>
    cases failure with
    | some error => exact yields_throw _ _
    | none => exact yields_throw _ _

end Environment

/-! Partial plans. -/

namespace Environment

private theorem yields_afterCheck {condition : Prop} [Decidable condition] {β : Type} {action : Planning ν β} {post : β → Prop}
    (valid : Yields final action post) : Yields final (if condition then do checkCancellation; action else action) post :=
  .ite (yields_checkCancellation.bind fun _ => valid.weaken fun _ holds _ _ => holds) (valid.weaken fun _ holds _ => holds)

theorem yields_placeReady (plan : Plan) (ledger : Ledger) :
    Yields final (environment.placeReady plan ledger) fun placed => Placed plan ledger placed.1 placed.2 := by
  unfold placeReady
  simp only [List.partition_eq_filter_filter]
  exact (environment.yields_filter _ _).bind fun _ => yields_pure fun filtered => ⟨filtered, rfl⟩

theorem yields_candidate (plan : Plan) (remaining : Ledger) (description : String) (connection : Option Nat) :
    Yields final (environment.candidate plan remaining description connection) fun candidate =>
      candidate.plan = plan ∧ candidate.remaining = remaining ∧ candidate.connection = connection := by
  unfold candidate
  exact (environment.yields_estimate _).bind fun _ => yields_pure fun _ => ⟨rfl, rfl, rfl⟩

theorem yields_expandRelationship (relationship : PatternRelationship) (input : Plan) :
    Yields final (environment.expandRelationship relationship input) fun plan =>
      ∃ id, plan = relationship.expandAbove id input ∧ final.arena.solved id = [] :=
  environment.yields_finish _ _ fun _ => rfl

theorem yields_argumentPlan (graph : MatchGraph) :
    Yields final (environment.argumentPlan graph) fun plan =>
      ∃ id, plan = .leaf id (.argument graph.arguments.names) ∧ final.arena.solved id = [] :=
  environment.yields_finish _ _ fun _ => rfl

theorem yields_argumentStart (graph : MatchGraph) (ledger : Ledger) :
    Yields final (environment.argumentStart graph ledger) fun start => start.connection = none ∧
      ∃ id, final.arena.solved id = [] ∧
        Placed (.leaf id (.argument graph.arguments.names)) ledger start.plan start.remaining := by
  unfold argumentStart
  refine (yields_argumentPlan graph).bind fun argument => (yields_placeReady _ _).bind fun placed =>
    (yields_candidate _ _ _ _).weaken ?_
  rintro ⟨⟩ ⟨rfl, rfl, rfl⟩ placed ⟨id, rfl, recorded⟩
  exact ⟨rfl, id, recorded, placed⟩

variable [Quantity ν]

theorem yields_expand (graph : MatchGraph) (index : Nat) (connection : Connection) (input : Plan) (ledger : Ledger) :
    Yields final (environment.expand graph index connection input ledger) fun grown => grown.connection = some index ∧
      ∃ operator, Extended environment final.arena graph index input ledger connection operator grown.plan grown.remaining := by
  unfold expand
  cases connection with
  | relationship relationship =>
    refine (yields_expandRelationship _ _).bind fun expanded => (yields_placeReady _ _).bind fun placed =>
      (yields_candidate _ _ _ _).weaken ?_
    rintro ⟨⟩ ⟨rfl, rfl, rfl⟩ placed ⟨id, rfl, recorded⟩
    exact ⟨rfl, _, .relationship recorded placed⟩
  | quantified pattern =>
    refine (yields_planPattern _ _).bind fun planned => (yields_placeReady _ _).bind fun placed =>
      (yields_candidate _ _ _ _).weaken ?_
    rintro ⟨⟩ ⟨rfl, rfl, rfl⟩ placed ⟨solved, operator, chosen⟩
    rw [solved] at placed
    exact ⟨rfl, operator, .quantified chosen placed⟩

def ScansWith (arena : Arena ν) (leaves : List LeafCandidate) (ledger : Ledger) (candidate : Candidate ν) : Prop :=
  candidate.connection = none ∧ ∃ leaf ∈ leaves, ∃ id, arena.solved id = leaf.solved ∧
    Placed (.leaf id leaf.operator) (ledger.solve leaf.solved) candidate.plan candidate.remaining

theorem yields_cheapestLeaf {leaves : List LeafCandidate} (ledger : Ledger) (best : Option (Candidate ν))
    (considered : List LeafCandidate) (subset : considered ⊆ leaves) :
    Yields final (environment.cheapestLeaf ledger best considered) fun result =>
      (∀ kept, best = some kept → ScansWith final.arena leaves ledger kept) →
      ∀ kept, result = some kept → ScansWith final.arena leaves ledger kept := by
  induction considered generalizing best with
  | nil => exact yields_pure fun former => former
  | cons leaf rest further =>
    unfold cheapestLeaf
    refine (environment.yields_finish _ _ fun _ => rfl).bind fun scan => (yields_placeReady _ _).bind fun placed =>
      (yields_candidate _ _ _ _).bind fun candidate =>
      (further _ fun _ member => subset (List.mem_cons_of_mem _ member)).weaken ?_
    rintro result kept ⟨samePlan, sameRest, alone⟩ placed ⟨id, rfl, recorded⟩ former
    refine kept (keepCheaper_some former ⟨alone, leaf, subset List.mem_cons_self, id, recorded, ?_⟩)
    rw [samePlan, sameRest]
    exact placed

theorem yields_bestLeaf (node : String) (ledger : Ledger) :
    Yields final (environment.bestLeaf node ledger) fun leaf => leaf.connection = none ∧
      Scanned environment final.arena node ledger leaf.plan leaf.remaining := by
  unfold bestLeaf
  refine (environment.yields_leafCandidates _ _).bind fun leaves =>
    (yields_cheapestLeaf ledger none leaves fun _ member => member).bind fun best => ?_
  cases best with
  | none => exact yields_throw _ _
  | some best =>
    apply yields_pure
    rintro kept ⟨call, offered⟩
    obtain ⟨alone, leaf, chosen, id, recorded, placed⟩ := kept (fun _ impossible => by cases impossible) best rfl
    exact ⟨alone, .scanned offered chosen recorded placed⟩

/-! Where a component starts. -/

def StartsWith (environment : Environment ν) (arena : Arena ν) (graph : MatchGraph) (ledger : Ledger) (index : Nat)
    (connection : Connection) (candidate : Candidate ν) : Prop :=
  candidate.connection = some index ∧ ∃ seed middle operator, Seeded environment arena connection ledger seed middle ∧
    Extended environment arena graph index seed middle connection operator candidate.plan candidate.remaining

theorem yields_endpointStart (graph : MatchGraph) (index : Nat) (connection : Connection) (ledger : Ledger)
    (best : Option (Candidate ν)) (endpoints : List String)
    (ends : ∀ node ∈ endpoints, node = connection.left ∨ node = connection.right) :
    Yields final (environment.endpointStart graph index connection ledger best endpoints) fun result =>
      (∀ kept, best = some kept → StartsWith environment final.arena graph ledger index connection kept) →
      ∀ kept, result = some kept → StartsWith environment final.arena graph ledger index connection kept := by
  induction endpoints generalizing best with
  | nil => exact yields_pure fun former => former
  | cons endpoint rest further =>
    have others := fun best => further best fun node member => ends node (List.mem_cons_of_mem _ member)
    unfold endpointStart
    refine (yields_bestLeaf _ _).bind fun leaf => (yields_expand _ _ _ _ _).attempt.bind fun outcome => ?_
    cases outcome with
    | ok candidate =>
      refine (others _).weaken fun result kept expanded ⟨_, scanned⟩ former => kept (keepCheaper_some former ?_)
      obtain ⟨connected, operator, extended⟩ := expanded candidate rfl
      exact ⟨connected, _, _, operator, .endpoint (ends endpoint List.mem_cons_self) scanned, extended⟩
    | error error => exact (others _).weaken fun result kept _ _ => kept

theorem yields_cartesianStart (graph : MatchGraph) (index : Nat) (connection : Connection) (ledger : Ledger)
    (crosses : crosses connection = true) :
    Yields final (environment.cartesianStart graph index connection ledger)
      (StartsWith environment final.arena graph ledger index connection) := by
  unfold cartesianStart
  refine (yields_bestLeaf _ _).bind fun left => (yields_bestLeaf _ _).bind fun right =>
    (environment.yields_finish _ _ fun _ => rfl).bind fun product => (environment.yields_estimate _).bind fun _ =>
    (yields_expand _ _ _ _ _).weaken ?_
  rintro candidate ⟨connected, operator, extended⟩ - ⟨id, rfl, -⟩ ⟨-, scannedRight⟩ ⟨-, scannedLeft⟩
  exact ⟨connected, _, _, operator, .crossed crosses scannedLeft scannedRight, extended⟩

theorem yields_connectionStart (graph : MatchGraph) (index : Nat) (connection : Connection) (ledger : Ledger) :
    Yields final (environment.connectionStart graph index connection ledger) fun result =>
      ∀ kept, result = some kept → StartsWith environment final.arena graph ledger index connection kept := by
  unfold connectionStart
  refine (yields_endpointStart graph index connection ledger none _ ?_).bind fun single => ?_
  · intro node member
    simpa using member
  have started : Yields final (pure single : Planning ν (Option (Candidate ν))) fun result =>
      ((∀ kept, (none : Option (Candidate ν)) = some kept → StartsWith environment final.arena graph ledger index connection kept) →
        ∀ kept, single = some kept → StartsWith environment final.arena graph ledger index connection kept) →
      ∀ kept, result = some kept → StartsWith environment final.arena graph ledger index connection kept :=
    yields_pure fun former => former fun _ impossible => by cases impossible
  split
  next crosses =>
    apply (yields_cartesianStart graph index connection ledger crosses).attempt.bind
    intro outcome
    cases outcome with
    | error error => exact started.weaken fun _ kept _ => kept
    | ok cartesian =>
      cases single with
      | none =>
        apply yields_pure
        intro crossed _ kept same
        cases same
        exact crossed _ rfl
      | some single =>
        apply yields_pure
        intro crossed former kept same
        cases same
        split
        · exact crossed _ rfl
        · exact former (fun _ impossible => by cases impossible) _ rfl
  next => exact started

theorem yields_cheapestStart (graph : MatchGraph) (ledger : Ledger) (connections : List (Nat × Connection))
    (best : Option (Candidate ν)) (considered : List (Nat × Connection)) (subset : considered ⊆ connections) :
    Yields final (environment.cheapestStart graph ledger best considered) fun result =>
      (∀ kept, best = some kept →
        ∃ index connection, (index, connection) ∈ connections ∧ StartsWith environment final.arena graph ledger index connection kept) →
      ∀ kept, result = some kept →
        ∃ index connection, (index, connection) ∈ connections ∧
          StartsWith environment final.arena graph ledger index connection kept := by
  induction considered generalizing best with
  | nil => exact yields_pure fun former => former
  | cons first rest further =>
    obtain ⟨index, connection⟩ := first
    have others := fun best => further best fun _ member => subset (List.mem_cons_of_mem _ member)
    unfold cheapestStart
    apply (yields_connectionStart graph index connection ledger).bind
    intro started
    cases started with
    | none => exact (others _).weaken fun result kept _ => kept
    | some candidate =>
      refine (others _).weaken fun result kept started former => kept (keepCheaper_some former ?_)
      exact ⟨index, connection, subset List.mem_cons_self, started candidate rfl⟩

/-- A component is grown as far as some connections, the last of them the one the candidate names. -/
theorem yields_chooseStart (graph : MatchGraph) (component : Component) (ledger : Ledger) :
    Yields final (environment.chooseStart graph component ledger) fun start =>
      ∃ assigned, Grown environment final.arena graph component ledger start.plan start.remaining assigned ∧
        assigned.map Prod.fst = start.connection.toList := by
  unfold chooseStart
  refine .ite ?_ ?_
  · apply (yields_argumentStart graph ledger).weaken
    rintro start ⟨alone, id, recorded, placed⟩ touched
    refine ⟨[], .argument ?_ recorded placed, by rw [alone]; rfl⟩
    simpa only [List.any_eq_true, decide_eq_true_eq] using touched
  · have seeded : ∀ start index connection, (index, connection) ∈ connectionsAt graph component.connections →
        StartsWith environment final.arena graph ledger index connection start →
        ¬ component.nodes.any (fun node => decide (node ∈ graph.arguments)) = true →
        ∃ assigned, Grown environment final.arena graph component ledger start.plan start.remaining assigned ∧
          assigned.map Prod.fst = start.connection.toList := by
      rintro start index connection member ⟨connected, seed, middle, operator, seeded, extended⟩ untouched
      refine ⟨[(index, operator)], .seeded ?_ member seeded extended, by rw [connected]; rfl⟩
      simpa only [List.any_eq_true, decide_eq_true_eq, not_exists, not_and] using untouched
    split
    next alone =>
      split
      next => exact yields_throw _ _
      next node others nodes =>
        apply (yields_bestLeaf node ledger).weaken
        rintro leaf ⟨unconnected, scanned⟩ untouched
        refine ⟨[], .scan ?_ (nodes ▸ List.mem_cons_self) alone scanned, by rw [unconnected]; rfl⟩
        simpa only [List.any_eq_true, decide_eq_true_eq, not_exists, not_and] using untouched
    next index connection others connections =>
      refine (yields_cheapestStart graph ledger _ none _ fun _ member => member).bind fun best => ?_
      cases best with
      | some best =>
        apply yields_pure
        intro kept untouched
        obtain ⟨index, connection, member, starts⟩ := kept (fun _ impossible => by cases impossible) best rfl
        exact seeded best index connection (connections ▸ member) starts untouched
      | none =>
        refine (yields_bestLeaf _ _).bind fun leaf => (yields_expand _ _ _ _ _).weaken ?_
        rintro start ⟨connected, operator, extended⟩ ⟨-, scanned⟩ - untouched
        exact seeded start index connection (connections ▸ List.mem_cons_self)
          ⟨connected, _, _, operator, .endpoint (.inl rfl) scanned, extended⟩ untouched

/-! How it grows. -/

theorem yields_hashJoinCandidate (graph : MatchGraph) (index : Nat) (relationship : PatternRelationship) (plan : Plan)
    (ledger : Ledger) :
    Yields final (environment.hashJoinCandidate index relationship plan ledger) fun result =>
      ∀ joined, result = some joined → ∃ operator,
        Added environment final.arena graph index plan ledger (.relationship relationship) operator joined.plan joined.remaining := by
  have nothing {β : Type} {post : β → Prop} : ∀ joined, (none : Option β) = some joined → post joined :=
    fun _ impossible => by cases impossible
  unfold hashJoinCandidate
  refine .ite (yields_pure fun _ => nothing) ?_
  cases oriented : relationship.orientation plan.available with
  | mk near far =>
    simp only [oriented]
    refine .ite (yields_pure fun _ _ => nothing) ?_
    refine (yields_bestLeaf _ _).bind fun leaf => .ite (yields_pure fun _ _ _ _ => nothing) ?_
    refine (environment.yields_finish _ _ fun _ => rfl).bind fun right => (environment.yields_finish _ _ fun _ => rfl).bind
      fun join => (yields_placeReady _ _).bind fun placed => (yields_candidate _ _ _ _).bind fun candidate => yields_pure ?_
    rintro ⟨samePlan, sameRest, -⟩ placed ⟨joinId, rfl, -⟩ ⟨id, rfl, -⟩ selective ⟨-, scanned⟩ bound simple joined same
    cases same
    simp only [Bool.or_eq_true, not_or, Bool.not_eq_true] at simple bound
    rw [samePlan, sameRest]
    exact ⟨_, .joined simple.2 oriented (Classical.not_not.mp bound.2) bound.1 scanned selective placed⟩

/-- What a search for the next connection may offer. -/
def Offers (environment : Environment ν) (arena : Arena ν) (graph : MatchGraph) (plan : Plan) (ledger : Ledger)
    (connections : List (Nat × Connection)) (search : GrowthSearch ν) : Prop :=
  ∀ kept : Nat × Connection × Candidate ν, search.best = some kept → (kept.1, kept.2.1) ∈ connections ∧
    ∃ operator, Added environment arena graph kept.1 plan ledger kept.2.1 operator kept.2.2.plan kept.2.2.remaining

theorem Offers.offer {arena : Arena ν} {graph : MatchGraph} {plan : Plan} {ledger : Ledger}
    {connections : List (Nat × Connection)} {search : GrowthSearch ν} {index : Nat} {connection : Connection}
    {candidate : Candidate ν} {operator : Plan} (offers : Offers environment arena graph plan ledger connections search)
    (member : (index, connection) ∈ connections)
    (added : Added environment arena graph index plan ledger connection operator candidate.plan candidate.remaining) :
    Offers environment arena graph plan ledger connections (search.offer index connection candidate) := by
  change ∀ kept, keepCheaper (fun kept => kept.2.2.estimate) search.best (index, connection, candidate) = some kept → _
  exact keepCheaper_some offers ⟨member, operator, added⟩

/-- Offering a hash join, however the search goes on from its result. -/
theorem yields_offerJoin (graph : MatchGraph) (plan : Plan) (ledger : Ledger) (connections : List (Nat × Connection))
    (search : GrowthSearch ν) (index : Nat) (relationship : PatternRelationship)
    (member : (index, .relationship relationship) ∈ connections)
    {next : Option (Candidate ν) → Planning ν (GrowthSearch ν)} (skips : next none = pure search)
    (offers : ∀ candidate, next (some candidate) = pure (search.offer index (.relationship relationship) candidate)) :
    Yields final (environment.hashJoinCandidate index relationship plan ledger >>= next) fun result =>
      Offers environment final.arena graph plan ledger connections search →
      Offers environment final.arena graph plan ledger connections result := by
  apply (yields_hashJoinCandidate graph index relationship plan ledger).bind
  intro result
  cases result with
  | none =>
    rw [skips]
    exact yields_pure fun _ former => former
  | some candidate =>
    rw [offers]
    apply yields_pure
    intro joined former
    obtain ⟨operator, added⟩ := joined candidate rfl
    exact former.offer member added

theorem yields_growThrough (graph : MatchGraph) (plan : Plan) (ledger : Ledger) (connections : List (Nat × Connection))
    (search : GrowthSearch ν) (index : Nat) (connection : Connection) (member : (index, connection) ∈ connections)
    (touches : connection.left ∈ plan.available ∨ connection.right ∈ plan.available) :
    Yields final (environment.growThrough graph plan ledger search index connection) fun result =>
      Offers environment final.arena graph plan ledger connections search →
      Offers environment final.arena graph plan ledger connections result := by
  unfold growThrough
  refine (environment.yields_estimate _).bind fun _ => (yields_expand _ _ _ _ _).attempt.bind fun outcome => ?_
  cases outcome with
  | error error =>
    cases connection with
    | quantified pattern => exact yields_pure fun _ _ former => former
    | relationship relationship =>
      refine (yields_offerJoin graph plan ledger connections (search.fail error) index relationship member rfl
        fun _ => rfl).weaken ?_
      intro result kept _ _ former
      exact kept former
  | ok candidate =>
    cases connection with
    | quantified pattern =>
      apply yields_pure
      intro expanded _ former
      obtain ⟨-, operator, extended⟩ := expanded candidate rfl
      exact former.offer member (.extended touches extended)
    | relationship relationship =>
      refine (yields_offerJoin graph plan ledger connections (search.offer index (.relationship relationship) candidate) index
        relationship member rfl fun _ => rfl).weaken fun result kept expanded _ former => kept ?_
      obtain ⟨-, operator, extended⟩ := expanded candidate rfl
      exact former.offer member (.extended touches extended)

theorem yields_cheapestGrowth (graph : MatchGraph) (plan : Plan) (ledger : Ledger) (connections : List (Nat × Connection))
    (search : GrowthSearch ν) (considered : List (Nat × Connection)) (subset : considered ⊆ connections) :
    Yields final (environment.cheapestGrowth graph plan ledger search considered) fun result =>
      Offers environment final.arena graph plan ledger connections search →
      Offers environment final.arena graph plan ledger connections result := by
  induction considered generalizing search with
  | nil => exact yields_pure fun former => former
  | cons first rest further =>
    obtain ⟨index, connection⟩ := first
    have others := fun search => further search fun _ member => subset (List.mem_cons_of_mem _ member)
    unfold cheapestGrowth
    split
    next touches =>
      exact (yields_growThrough graph plan ledger connections search index connection (subset List.mem_cons_self) touches).bind
        fun offered => (others offered).weaken fun _ kept former searched => kept (former searched)
    next => exact others search

structure Divided (graph : MatchGraph) (component : Component) (remaining : List (Nat × Connection))
    (assigned : Assignment) : Prop where
  known : remaining ⊆ connectionsAt graph component.connections
  covers : (assigned.map Prod.fst ++ remaining.map Prod.fst).Perm
    ((connectionsAt graph component.connections).map Prod.fst)

private theorem filter_others {index : Nat} {connection : Connection} {remaining : List (Nat × Connection)}
    (member : (index, connection) ∈ remaining) (distinct : (remaining.map Prod.fst).Nodup) :
    (remaining.map Prod.fst).Perm (index :: (remaining.filter fun other => other.1 != index).map Prod.fst) := by
  have kept : (remaining.filter fun other => other.1 != index).map Prod.fst = (remaining.map Prod.fst).erase index := by
    rw [distinct.erase_eq_filter, List.filter_map]
    rfl
  rw [kept]
  exact List.perm_cons_erase (List.mem_map_of_mem member)

theorem Divided.add {graph : MatchGraph} {component : Component} {remaining : List (Nat × Connection)} {assigned : Assignment}
    (divided : Divided graph component remaining assigned) (distinct : component.connections.Nodup) {index : Nat}
    {connection : Connection} (member : (index, connection) ∈ remaining) (operator : Plan) :
    index ∉ assigned.map Prod.fst ∧
      Divided graph component (remaining.filter fun other => other.1 != index) (assigned ++ [(index, operator)]) := by
  have all := divided.covers.nodup_iff.mpr (connectionsAt_nodup graph distinct)
  obtain ⟨-, rest, apart⟩ := List.nodup_append.mp all
  refine ⟨fun early => apart _ early _ (List.mem_map_of_mem member) rfl, ?_, ?_⟩
  · intro other kept
    exact divided.known (List.mem_filter.mp kept).1
  · refine .trans ?_ divided.covers
    rw [List.map_append, List.append_assoc]
    exact (filter_others member rest).symm.append_left _

/-- Every connection of the component is covered once the remaining ones have been added. -/
theorem yields_grow (graph : MatchGraph) (component : Component) (ledger : Ledger) (distinct : component.connections.Nodup)
    (rounds steps : Nat) (current : Candidate ν) (remaining : List (Nat × Connection)) :
    Yields final (environment.grow graph component rounds steps current remaining) fun result =>
      ∀ assigned, Grown environment final.arena graph component ledger current.plan current.remaining assigned →
        remaining.length ≤ rounds → Divided graph component remaining assigned →
        ∃ covered, Grown environment final.arena graph component ledger result.1.plan result.1.remaining covered ∧
          (covered.map Prod.fst).Perm ((connectionsAt graph component.connections).map Prod.fst) := by
  have complete : ∀ {plan : Plan} {rest : Ledger} {remaining : List (Nat × Connection)} (assigned : Assignment),
      Grown environment final.arena graph component ledger plan rest assigned → remaining = [] →
      Divided graph component remaining assigned →
      ∃ covered, Grown environment final.arena graph component ledger plan rest covered ∧
        (covered.map Prod.fst).Perm ((connectionsAt graph component.connections).map Prod.fst) := by
    rintro plan rest remaining assigned grown rfl divided
    exact ⟨assigned, grown, by simpa using divided.covers⟩
  induction rounds generalizing steps current remaining with
  | zero =>
    exact yields_pure fun assigned grown enough => complete assigned grown (List.length_eq_zero_iff.mp (Nat.le_zero.mp enough))
  | succ rounds further =>
    unfold grow
    refine .ite (yields_pure fun empty assigned grown _ => complete assigned grown (List.isEmpty_iff.mp empty)) ?_
    refine yields_afterCheck ((yields_cheapestGrowth graph _ _ remaining .none remaining fun _ member => member).bind
      fun search => ?_)
    cases found : search.best with
    | none =>
      cases search.failure with
      | none => exact yields_throw _ _
      | some error => exact yields_throw _ _
    | some best =>
      obtain ⟨index, connection, chosen⟩ := best
      refine (yields_record _ _ _).bind fun _ => (further _ _ _).weaken ?_
      intro result covered _ offers _ assigned grown enough divided
      obtain ⟨member, operator, added⟩ := offers (fun _ impossible => by cases impossible) _ found
      obtain ⟨fresh, others⟩ := divided.add distinct member operator
      refine covered _ (.added grown (divided.known member) fresh added) ?_ others
      have fewer : (remaining.filter fun other => other.1 != index).length < remaining.length :=
        List.length_filter_lt_length_iff_exists.mpr ⟨_, member, by simp⟩
      exact Nat.lt_succ_iff.mp (Nat.lt_of_lt_of_le fewer enough)

theorem yields_planComponent (graph : MatchGraph) (component : Component) (distinct : component.connections.Nodup) (steps : Nat)
    (ledger : Ledger) :
    Yields final (environment.planComponent graph component steps ledger) fun result =>
      ∃ covered, Grown environment final.arena graph component ledger result.1.plan result.1.remaining covered ∧
        (covered.map Prod.fst).Perm ((connectionsAt graph component.connections).map Prod.fst) := by
  unfold planComponent
  refine (yields_chooseStart graph component ledger).bind fun start => (yields_record _ _ _).bind fun _ =>
    (yields_grow graph component ledger distinct _ _ _ _).weaken ?_
  rintro result grown - ⟨assigned, started, named⟩
  refine grown assigned started (List.length_filter_le _ _) ⟨fun _ kept => (List.mem_filter.mp kept).1, ?_⟩
  rw [named]
  cases connected : start.connection with
  | none =>
    have whole : (connectionsAt graph component.connections).filter (fun other => some other.1 != none) =
        connectionsAt graph component.connections := List.filter_eq_self.mpr fun _ _ => rfl
    rw [whole]
    exact .refl _
  | some index =>
    have apart : ∀ other : Nat × Connection, (some other.1 != some index) = (other.1 != index) := fun _ => rfl
    have covered : index ∈ assigned.map Prod.fst := by simp [named, connected]
    obtain ⟨entry, early, rfl⟩ := List.mem_map.mp covered
    obtain ⟨connection, member⟩ := started.known entry early
    simp only [apart]
    exact (filter_others member (connectionsAt_nodup graph distinct)).symm

end Environment

/-! The whole graph. -/

namespace Environment

theorem yields_product (left right : Plan) (ledger : Ledger) :
    Yields final (environment.product left right ledger) fun result =>
      ∃ id, Placed (.join id .cartesianProduct left right) ledger result.1 result.2 := by
  unfold product
  refine (environment.yields_finish _ _ fun _ => rfl).bind fun joined => (yields_placeReady _ _).weaken ?_
  rintro result placed ⟨id, rfl, -⟩
  exact ⟨id, placed⟩

theorem yields_combineLegs (legs : List (Candidate ν)) (root : Plan) (ledger : Ledger) :
    Yields final (environment.combineLegs root ledger legs) fun result =>
      ∀ others : List Leg, others.map Leg.plan = legs.map Candidate.plan → Combined root ledger others result.1 result.2 := by
  induction legs generalizing root ledger with
  | nil =>
    apply yields_pure
    intro others same
    rw [List.map_eq_nil_iff.mp same]
    exact .done
  | cons leg rest further =>
    unfold combineLegs
    refine yields_checkCancellation.bind fun _ => (yields_product _ _ _).bind fun combined => (yields_record _ _ _).bind fun _ =>
      (further _ _).weaken ?_
    rintro result combined - ⟨id, placed⟩ - others same
    obtain ⟨other, remaining, rfl, samePlan, sameRest⟩ := List.map_eq_cons_iff.mp same
    exact .product (samePlan ▸ placed) (combined remaining sameRest)

variable [Quantity ν]

/-- The legs are combined in the order of their costs, which is some order. -/
theorem yields_combine (graph : MatchGraph) (planned : List (Candidate ν)) (ledger : Ledger) :
    Yields final (environment.combine graph planned ledger) fun result =>
      ∀ legs : List Leg, legs.map Leg.plan = planned.map Candidate.plan →
        (legs = [] ∧ graph.arguments ≠ ∅ ∧
          ∃ id, final.arena.solved id = [] ∧
            Placed (.leaf id (.argument graph.arguments.names)) ledger result.1 result.2) ∨
        ∃ first others root middle, (first :: others).Perm legs ∧ Rooted final.arena graph first.plan ledger root middle ∧
          Combined root middle others result.1 result.2 := by
  have reordered : ∀ {sorted : List (Candidate ν)} {legs : List Leg}, sorted.Perm planned →
      legs.map Leg.plan = planned.map Candidate.plan →
      ∃ legs' : List Leg, sorted.map Candidate.plan = legs'.map Leg.plan ∧ legs'.Perm legs := by
    intro sorted legs shuffled same
    have mapped : (sorted.map Candidate.plan).Perm (legs.map Leg.plan) := same ▸ shuffled.map Candidate.plan
    exact (congrFun (congrFun (List.eq_map_comp_perm Leg.plan) _) _).mpr mapped
  unfold combine
  have shuffled := List.mergeSort_perm planned fun first second => Quantity.sortsBefore first.estimate.cost second.estimate.cost
  split
  next sorted =>
    rw [sorted] at shuffled
    refine .ite (yields_throw _ _) ((yields_argumentStart graph ledger).bind fun start => yields_pure ?_)
    rintro ⟨-, id, recorded, placed⟩ some legs same
    obtain ⟨legs', none, arranged⟩ := reordered shuffled same
    rw [List.map_eq_nil_iff.mp none.symm] at arranged
    exact .inl ⟨arranged.nil_eq.symm, some, id, recorded, placed⟩
  next first rest sorted =>
    rw [sorted] at shuffled
    refine .ite ?_ ?_
    · refine (yields_combineLegs _ _ _).weaken fun result combined covered legs same => .inr ?_
      obtain ⟨legs', arranged, permuted⟩ := reordered shuffled same
      obtain ⟨leg, others, rfl, samePlan, sameRest⟩ := List.map_eq_cons_iff.mp arranged.symm
      refine ⟨leg, others, _, _, permuted, .covered ?_, samePlan ▸ combined others sameRest⟩
      exact NameSet.within_iff.mp (samePlan ▸ covered)
    · refine (yields_argumentPlan graph).bind fun argument => (yields_product _ _ _).bind fun ⟨root, remaining⟩ =>
        (yields_combineLegs _ _ _).weaken ?_
      rintro result combined ⟨productId, placed⟩ ⟨id, rfl, recorded⟩ uncovered legs same
      obtain ⟨legs', arranged, permuted⟩ := reordered shuffled same
      obtain ⟨leg, others, rfl, samePlan, sameRest⟩ := List.map_eq_cons_iff.mp arranged.symm
      refine .inr ⟨leg, others, _, _, permuted, .argument ?_ recorded (samePlan ▸ placed), combined others sameRest⟩
      simpa only [NameSet.within_iff, Classical.not_forall, exists_prop, samePlan] using uncovered

theorem yields_planComponents (graph : MatchGraph) (components : List Component)
    (distinct : ∀ component ∈ components, component.connections.Nodup) (steps : Nat) (ledger : Ledger) :
    Yields final (environment.planComponents graph steps ledger components) fun result =>
      ∃ legs, Legs environment final.arena graph ledger components legs result.2 ∧
        legs.map Leg.plan = result.1.map Candidate.plan := by
  induction components generalizing steps ledger with
  | nil => exact yields_pure ⟨[], .done, rfl⟩
  | cons component rest further =>
    have others := fun steps ledger =>
      further (fun component member => distinct component (List.mem_cons_of_mem _ member)) steps ledger
    unfold planComponents
    refine yields_checkCancellation.bind fun _ =>
      (yields_planComponent graph component (distinct component List.mem_cons_self) steps ledger).bind fun ⟨planned, steps⟩ =>
      (others steps planned.remaining).bind fun ⟨candidates, remaining⟩ => yields_pure ?_
    rintro ⟨legs, planned, same⟩ ⟨covered, grown, covers⟩ -
    exact ⟨_, .leg grown covers planned, congrArg (_ :: ·) same⟩

theorem yields_compose (graph : MatchGraph) (distinct : ∀ component ∈ graph.components, component.connections.Nodup) :
    Yields final (environment.compose graph) fun root => ∃ assigned, Composed environment final.arena graph root assigned := by
  unfold compose
  refine (yields_record _ _ _).bind fun _ => (yields_planComponents graph _ distinct _ _).bind fun ⟨planned, ledger⟩ =>
    (yields_combine graph planned ledger).bind fun ⟨root, unplaced⟩ => ?_
  cases unplaced with
  | cons entry rest => exact yields_throw _ _
  | nil =>
    apply yields_pure
    rintro combined ⟨legs, planned, same⟩ -
    obtain ⟨rfl, some, id, recorded, placed⟩ | ⟨first, others, root', middle, sorted, rooted, combined⟩ := combined legs same
    · cases empty : graph.components with
      | nil =>
        rw [empty] at planned
        cases planned
        exact ⟨_, .argument empty some recorded placed⟩
      | cons component components =>
        rw [empty] at planned
        cases planned
    · exact ⟨_, .combined planned sorted rooted combined⟩

/-- A run that returns a plan accepted the graph, and the plan has come about as the construction says. -/
theorem composed_of_planRoot {graph : MatchGraph} {before after : Session ν} {root : Plan}
    (ran : environment.planRoot graph before = .ok root after) :
    graph.Valid ∧ ∃ assigned, Composed environment after.arena graph root assigned := by
  obtain ⟨⟨⟩, reset, -, ran⟩ := bind_eq_ok ran
  obtain ⟨⟨⟩, configured, -, ran⟩ := bind_eq_ok ran
  obtain ⟨⟨⟩, accepted, valid, ran⟩ := bind_eq_ok ran
  have composed : Yields after (do
      let root ← environment.compose graph
      let estimate ← environment.estimate root
      record .composition "final plan" ⟨some root.kind, [], some estimate.rows, some estimate.cost⟩
      return root) fun root => ∃ assigned, Composed environment after.arena graph root assigned :=
    (yields_compose graph fun _ member => graph.components_nodup member).bind fun root =>
      (environment.yields_estimate _).bind fun estimate => (yields_record _ _ _).bind fun _ => yields_pure fun _ _ composed => composed
  refine ⟨MatchGraph.validate_ok ?_, composed.result ran⟩
  cases checked : graph.validate with
  | ok result => rfl
  | error error =>
    rw [checked] at valid
    cases valid

theorem composed_of_plan {graph : MatchGraph} {before after : Session ν} {query : PlannedQuery ν}
    (ran : environment.plan graph before = .ok query after) :
    graph.Valid ∧ ∃ assigned, Composed environment query.arena graph query.root assigned := by
  obtain ⟨root, finished, planned, ran⟩ := bind_eq_ok ran
  cases ran
  exact composed_of_planRoot planned

end Environment

end MatchPlanner
