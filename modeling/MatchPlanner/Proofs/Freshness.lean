import MatchPlanner.Proofs.Patterns
import MatchPlanner.Proofs.Execution

/-! Fresh variables of a plan. A run numbers the variables it makes up, so what an action adds to a plan is numbered from the count it
found to the count it leaves. Two loops of one plan therefore never end in the same fresh variable, however many candidates with
fresh variables of their own were dropped on the way. -/

namespace MatchPlanner

/-! The variables in which loops end. -/

namespace Plan

/-- The variables in which the loops outside inner plans end. -/
def ends : Plan → List String
  | .leaf _ _ => []
  | .step _ _ input => ends input
  | .trail _ parameters input _ => parameters.finish :: ends input
  | .join _ _ left right => ends left ++ ends right

/-- Those of them that the planner made up. -/
def freshEnds (plan : Plan) : List String := plan.ends.filter isReserved

@[simp] theorem freshEnds_leaf (id : PlanId) (operator : Leaf) : (leaf id operator).freshEnds = [] := rfl

@[simp] theorem freshEnds_step (id : PlanId) (operator : Step) (input : Plan) : (step id operator input).freshEnds = input.freshEnds :=
  rfl

@[simp] theorem freshEnds_join (id : PlanId) (operator : Join) (left right : Plan) :
    (join id operator left right).freshEnds = left.freshEnds ++ right.freshEnds := List.filter_append ..

theorem freshEnds_trail {id : PlanId} {parameters : TrailParameters} {input inner : Plan}
    (fresh : isReserved parameters.finish = true) :
    (trail id parameters input inner).freshEnds = parameters.finish :: input.freshEnds := List.filter_cons_of_pos fresh

theorem freshEnds_trail_named {id : PlanId} {parameters : TrailParameters} {input inner : Plan}
    (named : isReserved parameters.finish = false) : (trail id parameters input inner).freshEnds = input.freshEnds :=
  List.filter_cons_of_neg (Bool.eq_false_iff.mp named)

end Plan

theorem Filtered.freshEnds {input plan : Plan} {predicates : List Expression} (filtered : Filtered input predicates plan) :
    plan.freshEnds = input.freshEnds := by
  cases filtered with
  | untouched => rfl
  | filter => rfl

section

variable {ν : Type} {environment : Environment ν} {arena : Arena ν} {graph : MatchGraph} {before after : Ledger} {plan : Plan}

theorem Scanned.freshEnds {node : String} (scanned : Scanned environment arena node before plan after) : plan.freshEnds = [] := by
  cases scanned with
  | scanned offered chosen recorded placed => rw [placed.filtered.freshEnds, Plan.freshEnds_leaf]

/-- A relationship is planned without a loop. -/
theorem Extended.freshEnds {index : Nat} {relationship : PatternRelationship} {input operator : Plan}
    (extended : Extended environment arena graph index input before (.relationship relationship) operator plan after) :
    plan.freshEnds = input.freshEnds := by
  cases extended with
  | relationship recorded placed => rw [placed.filtered.freshEnds, PatternRelationship.expandAbove, Plan.freshEnds_step]

theorem Added.freshEnds {index : Nat} {relationship : PatternRelationship} {input operator : Plan}
    (added : Added environment arena graph index input before (.relationship relationship) operator plan after) :
    plan.freshEnds = input.freshEnds := by
  cases added with
  | extended touches extended => exact extended.freshEnds
  | joined simple oriented nearBound farFree scanned selective placed =>
    rw [placed.filtered.freshEnds, Plan.freshEnds_join, Plan.freshEnds_step, scanned.freshEnds, List.append_nil]

theorem Rooted.freshEnds {first root : Plan} (rooted : Rooted arena graph first before root after) :
    root.freshEnds = first.freshEnds := by
  cases rooted with
  | covered => rfl
  | argument missing recorded placed => rw [placed.filtered.freshEnds, Plan.freshEnds_join, Plan.freshEnds_leaf, List.nil_append]

theorem Combined.freshEnds {legs : List Leg} {root : Plan} (combined : Combined root before legs plan after) :
    plan.freshEnds = root.freshEnds ++ legs.flatMap fun leg => leg.plan.freshEnds := by
  induction combined with
  | done => exact (List.append_nil _).symm
  | product placed others further =>
    rw [further, placed.filtered.freshEnds, Plan.freshEnds_join, List.flatMap_cons, List.append_assoc]

end

/-! Numbered names. -/

/-- The name that the count gives to the end of a loop. -/
def trailEnd (number : Nat) : String := "  " ++ "trail_end" ++ "_" ++ toString number

theorem trailEnd_injective {first second : Nat} (same : trailEnd first = trailEnd second) : first = second := by
  have digits : (toString first).toList = (toString second).toList := by
    simpa only [trailEnd, String.toList_append, List.append_cancel_left_eq] using congrArg String.toList same
  simpa [Nat.toString_eq_ofList_toDigits] using congrArg (Nat.ofDigitChars 10 · 0) digits

/-- Different names, all numbered from one count to another. -/
structure Numbered (low high : Nat) (names : List String) : Prop where
  order : low ≤ high
  distinct : names.Nodup
  within : ∀ name ∈ names, ∃ number, low ≤ number ∧ number < high ∧ name = trailEnd number

namespace Numbered

variable {low middle high : Nat} {names others : List String}

theorem nil (order : low ≤ high) : Numbered low high [] :=
  ⟨order, List.nodup_nil, fun _ impossible => absurd impossible List.not_mem_nil⟩

theorem mono (numbered : Numbered low middle names) (later : middle ≤ high) : Numbered low high names where
  order := Nat.le_trans numbered.order later
  distinct := numbered.distinct
  within name member := by
    obtain ⟨number, least, most, same⟩ := numbered.within name member
    exact ⟨number, least, by omega, same⟩

theorem append (former : Numbered low middle names) (latter : Numbered middle high others) : Numbered low high (names ++ others) where
  order := Nat.le_trans former.order latter.order
  distinct := by
    refine List.nodup_append.mpr ⟨former.distinct, latter.distinct, fun name early other late same => ?_⟩
    obtain ⟨number, -, most, rfl⟩ := former.within name early
    obtain ⟨next, least, -, rfl⟩ := latter.within other late
    have equal := trailEnd_injective same
    omega
  within name member := by
    have first := former.order
    have last := latter.order
    rcases List.mem_append.mp member with early | late
    · obtain ⟨number, least, most, same⟩ := former.within name early
      exact ⟨number, least, by omega, same⟩
    · obtain ⟨number, least, most, same⟩ := latter.within name late
      exact ⟨number, by omega, most, same⟩

/-- The next number is new. -/
theorem next (numbered : Numbered low high names) : Numbered low (high + 1) (trailEnd high :: names) where
  order := Nat.le_succ_of_le numbered.order
  distinct := by
    refine List.nodup_cons.mpr ⟨fun member => ?_, numbered.distinct⟩
    obtain ⟨number, -, most, same⟩ := numbered.within _ member
    have equal := trailEnd_injective same
    omega
  within name member := by
    rcases List.mem_cons.mp member with rfl | early
    · exact ⟨high, numbered.order, Nat.lt_succ_self high, rfl⟩
    · exact (numbered.mono (Nat.le_succ high)).within name early

end Numbered

/-! Actions that count. -/

namespace Planning

variable {ν β γ : Type}

/-- The count has not gone back, and a value returned is as stated of the count that is left. -/
def Counted (low : Nat) (post : Nat → β → Prop) : EStateM.Result PlanningError (Session ν) β → Prop
  | .ok value after => low ≤ after.arena.freshNames ∧ post after.arena.freshNames value
  | .error _ after => low ≤ after.arena.freshNames

/-- What is said of an action holds whenever at least so many names were made up before. -/
def Draws (count : Nat) (action : Planning ν β) (post : Nat → β → Prop) : Prop :=
  ∀ before : Session ν, count ≤ before.arena.freshNames → Counted before.arena.freshNames post (action before)

variable {count : Nat}

theorem Draws.weaken {action : Planning ν β} {post weaker : Nat → β → Prop} (draws : Draws count action post)
    (implies : ∀ later value, count ≤ later → post later value → weaker later value) : Draws count action weaker := by
  intro before enough
  have outcome := draws before enough
  cases ran : action before with
  | ok value after =>
    rw [ran] at outcome
    exact ⟨outcome.1, implies _ value (Nat.le_trans enough outcome.1) outcome.2⟩
  | error error after =>
    rw [ran] at outcome
    exact outcome

theorem Draws.returned {action : Planning ν β} {post : Nat → β → Prop} {before after : Session ν} {value : β}
    (draws : Draws count action post) (ran : action before = .ok value after) (enough : count ≤ before.arena.freshNames) :
    post after.arena.freshNames value := by
  have outcome := draws before enough
  rw [ran] at outcome
  exact outcome.2

theorem draws_pure {value : β} {post : Nat → β → Prop} (holds : ∀ later, count ≤ later → post later value) :
    Draws count (pure value : Planning ν β) post := fun _ enough => ⟨Nat.le_refl _, holds _ enough⟩

theorem draws_throw (error : PlanningError) (post : Nat → β → Prop) : Draws count (throw error : Planning ν β) post :=
  fun _ _ => Nat.le_refl _

theorem Draws.bind {first : Planning ν β} {next : β → Planning ν γ} {middle : Nat → β → Prop} {post : Nat → γ → Prop}
    (draws : Draws count first middle)
    (rest : ∀ value later, count ≤ later → middle later value → Draws later (next value) post) :
    Draws count (first >>= next) post := by
  intro before enough
  have started := draws before enough
  change Counted _ post (EStateM.bind first next before)
  unfold EStateM.bind
  cases ran : first before with
  | error error after =>
    rw [ran] at started
    exact started
  | ok value after =>
    rw [ran] at started
    have continued := rest value _ (Nat.le_trans enough started.1) started.2 after (Nat.le_refl _)
    simp only
    cases finished : next value after with
    | error error last =>
      rw [finished] at continued
      exact Nat.le_trans started.1 continued
    | ok result last =>
      rw [finished] at continued
      exact ⟨Nat.le_trans started.1 continued.1, continued.2⟩

theorem Draws.ite {condition : Prop} [Decidable condition] {first second : Planning ν β} {post : Nat → β → Prop}
    (holds : condition → Draws count first post) (fails : ¬ condition → Draws count second post) :
    Draws count (if condition then first else second) post := by
  split
  next met => exact holds met
  next unmet => exact fails unmet

theorem Draws.attempt {action : Planning ν β} {post : Nat → β → Prop} (draws : Draws count action post) :
    Draws count (attempt action) fun later result => ∀ value, result = .ok value → post later value := by
  intro before enough
  have outcome := draws before enough
  rw [attempt_apply]
  cases ran : action before with
  | ok value after =>
    rw [ran] at outcome
    refine ⟨outcome.1, fun result same => ?_⟩
    cases same
    exact outcome.2
  | error error after =>
    rw [ran] at outcome
    simp only
    split
    · exact ⟨outcome, fun value impossible => by cases impossible⟩
    · exact outcome

/-- What is known of every value an action returns, whether or not it draws names. -/
theorem draws_of_yields {action : Planning ν β} {known : Session ν → β → Prop}
    (yields : ∀ final, Yields final action (known final)) : Draws count action fun _ value => ∃ final, known final value := by
  intro before _
  cases ran : action before with
  | ok value after =>
    have outcome := yields after before
    rw [ran] at outcome
    exact ⟨outcome.1.freshNames, after, outcome.2 (.refl after)⟩
  | error error after =>
    have outcome := yields after before
    rw [ran] at outcome
    exact outcome.freshNames

theorem Draws.later {action : Planning ν β} {post : Nat → β → Prop} {later : Nat} (draws : Draws count action post)
    (more : count ≤ later) : Draws later action post := fun before enough => draws before (Nat.le_trans more enough)

theorem Draws.afterCheck {condition : Prop} [Decidable condition] {action : Planning ν β} {post : Nat → β → Prop}
    (draws : Draws count action post) : Draws count (if condition then do checkCancellation; action else action) post :=
  .ite (fun _ => (draws_of_yields fun _ => yields_checkCancellation).bind fun _ _ more _ => draws.later more) fun _ => draws

theorem draws_freshName : Draws count (freshName "trail_end" : Planning ν String) fun later name =>
    ∃ number, count ≤ number ∧ later = number + 1 ∧ name = trailEnd number :=
  fun before enough => ⟨Nat.le_succ _, before.arena.freshNames, enough, rfl, rfl⟩

end Planning

section

open Planning

variable {ν : Type} {environment : Environment ν} {count low : Nat}

/-- Both endpoints have names that a query may use. -/
def Connection.Plain (connection : Connection) : Prop := isReserved connection.left = false ∧ isReserved connection.right = false

/-! Inside a quantified pattern. -/

theorem TrailRequest.draws_build (request : TrailRequest) (plain : isReserved request.far.outer = false) {source : Plan}
    (numbered : Numbered low count source.freshEnds) :
    Draws count (request.build : Planning ν (TrailParameters × Option Expression)) fun later built => ∀ id inner,
      Numbered low later (Plan.trail id built.1 source inner).freshEnds := by
  unfold build
  refine .ite (fun _ => draws_throw _ _) fun _ => .ite (fun _ => ?_) fun _ => draws_pure fun later enough id inner => ?_
  · refine draws_freshName.bind fun fresh later enough ⟨number, least, same, name⟩ => draws_pure fun last more id inner => ?_
    subst name same
    have reserved : isReserved (request.parameters (trailEnd number)).finish = true := isReserved_trailEnd number
    rw [Plan.freshEnds_trail reserved]
    exact ((numbered.mono least).next).mono more
  · have named : isReserved (request.parameters request.far.outer).finish = false := plain
    rw [Plan.freshEnds_trail_named named]
    exact numbered.mono enough

namespace Environment

variable {source : Plan} {request : QuantifiedRequest}

theorem draws_varExpandCandidate (numbered : Numbered low count source.freshEnds) (classification : Classification)
    (needed bound : NameSet) (direction : TraversalDirection) :
    Draws count (environment.varExpandCandidate source request classification needed bound direction) fun later planned =>
      Numbered low later planned.plan.freshEnds := by
  unfold varExpandCandidate
  split
  · exact draws_throw _ _
  · split
    · exact draws_throw _ _
    · refine (draws_of_yields fun final => environment.yields_finish _ _ fun _ => rfl).bind
        fun plan later enough ⟨final, id, same, recorded⟩ =>
        (draws_of_yields fun final => environment.yields_estimate _).bind fun estimate last more _ =>
        draws_pure fun end' most => ?_
      subst same
      exact numbered.mono (by omega)

theorem draws_trailCandidate (plain : (Connection.quantified request.pattern).Plain)
    (numbered : Numbered low count source.freshEnds) (classification : Classification) (needed bound : NameSet)
    (direction : TraversalDirection) :
    Draws count (environment.trailCandidate source request classification needed bound direction) fun later planned =>
      Numbered low later planned.plan.freshEnds := by
  have far : isReserved (request.pattern.far direction).outer = false := by
    cases direction with
    | forward => exact plain.2
    | reversed => exact plain.1
  unfold trailCandidate
  refine (TrailRequest.draws_build ⟨request.pattern, direction, bound, needed, request.siblings⟩ far numbered).bind
    fun ⟨parameters, equality⟩ built enough looped =>
    (draws_of_yields fun final => yields_innerPlan _ _ _ _ _ _).bind fun inner later more _ =>
    (draws_of_yields fun final => environment.yields_finish _ _ fun _ => rfl).bind
      fun trail last most ⟨_, id, same, _⟩ => ?_
  subst same
  have loop := (looped id inner).mono (Nat.le_trans more most)
  cases equality with
  | none =>
    refine (draws_of_yields fun final => environment.yields_estimate _).bind fun _ next next' _ =>
      draws_pure fun end' most' => loop.mono (by omega)
  | some equality =>
    refine (draws_of_yields fun final => environment.yields_filter _ _).bind fun plan _ _ ⟨_, filtered⟩ =>
      (draws_of_yields fun final => environment.yields_estimate _).bind fun _ _ _ _ =>
      draws_pure fun end' _ => ?_
    rw [filtered.freshEnds]
    exact loop.mono (by omega)

variable [Quantity ν]

theorem draws_cheapestDirection {candidate : TraversalDirection → Planning ν (PlannedPattern ν)}
    (each : ∀ direction, Draws count (candidate direction) fun later planned => Numbered low later planned.plan.freshEnds)
    (directions : List TraversalDirection) (best : Option (PlannedPattern ν)) (failure : Option PlanningError)
    (former : ∀ kept, best = some kept → Numbered low count kept.plan.freshEnds) :
    Draws count (cheapestDirection candidate best failure directions) fun later result =>
      ∀ kept, result.1 = some kept → Numbered low later kept.plan.freshEnds := by
  induction directions generalizing count best failure with
  | nil => exact draws_pure fun later enough kept same => (former kept same).mono enough
  | cons direction rest further =>
    unfold cheapestDirection
    refine (each direction).attempt.bind fun outcome later enough tried => ?_
    have others := fun direction => (each direction).later enough
    cases outcome with
    | ok planned =>
      exact further others _ _ (keepCheaper_some (fun kept same => (former kept same).mono enough) (tried planned rfl))
    | error error => exact further others _ _ fun kept same => (former kept same).mono enough

theorem draws_planPattern (plain : (Connection.quantified request.pattern).Plain)
    (numbered : Numbered low count source.freshEnds) :
    Draws count (environment.planPattern source request) fun later planned => Numbered low later planned.plan.freshEnds := by
  unfold planPattern
  refine .ite (fun _ => draws_throw _ _) fun _ => ?_
  refine (draws_cheapestDirection (fun direction => ?_) _ none none fun _ impossible => by cases impossible).bind
    fun result later enough (kept : ∀ kept, result.1 = some kept → Numbered low later kept.plan.freshEnds) => ?_
  · split
    · exact environment.draws_varExpandCandidate numbered _ _ _ _
    · exact environment.draws_trailCandidate plain numbered _ _ _ _
  · obtain ⟨best, failure⟩ := result
    cases best with
    | some best => exact draws_pure fun last more => (kept best rfl).mono more
    | none =>
      cases failure with
      | some error => exact draws_throw _ _
      | none => exact draws_throw _ _

/-! Partial plans. -/

omit [Quantity ν] in
theorem draws_placed {plan : Plan} (numbered : Numbered low count plan.freshEnds) (ledger : Ledger) (description : String)
    (connection : Option Nat) :
    Draws count (do
        let (placed, remaining) ← environment.placeReady plan ledger
        environment.candidate placed remaining description connection) fun later candidate =>
      Numbered low later candidate.plan.freshEnds := by
  refine (draws_of_yields fun _ => environment.yields_placeReady plan ledger).bind fun placed later enough ⟨_, above⟩ =>
    (draws_of_yields fun _ => environment.yields_candidate _ _ _ _).weaken ?_
  rintro last candidate more ⟨_, same, -⟩
  rw [same, above.filtered.freshEnds]
  exact numbered.mono (by omega)

theorem draws_expand {graph : MatchGraph} {index : Nat} {connection : Connection} {input : Plan} {ledger : Ledger}
    (plain : connection.Plain)
    (numbered : Numbered low count input.freshEnds) :
    Draws count (environment.expand graph index connection input ledger) fun later candidate =>
      Numbered low later candidate.plan.freshEnds := by
  cases connection with
  | relationship relationship =>
    refine (draws_of_yields fun _ => environment.yields_expand _ _ _ _ _).weaken ?_
    rintro later candidate enough ⟨_, -, operator, extended⟩
    rw [extended.freshEnds]
    exact numbered.mono enough
  | quantified pattern =>
    unfold expand
    exact (environment.draws_planPattern plain numbered).bind fun planned later enough planned' =>
      environment.draws_placed planned' _ _ _

theorem draws_bestLeaf (order : low ≤ count) (node : String) (ledger : Ledger) :
    Draws count (environment.bestLeaf node ledger) fun later candidate => Numbered low later candidate.plan.freshEnds := by
  refine (draws_of_yields fun _ => environment.yields_bestLeaf node ledger).weaken ?_
  rintro later candidate enough ⟨_, -, scanned⟩
  rw [scanned.freshEnds]
  exact .nil (Nat.le_trans order enough)

/-! Where a component starts. -/

theorem draws_endpointStart {graph : MatchGraph} {index : Nat} {connection : Connection} {ledger : Ledger}
    (plain : connection.Plain) (endpoints : List String)
    (best : Option (Candidate ν)) (order : low ≤ count)
    (former : ∀ kept, best = some kept → Numbered low count kept.plan.freshEnds) :
    Draws count (environment.endpointStart graph index connection ledger best endpoints) fun later result =>
      ∀ kept, result = some kept → Numbered low later kept.plan.freshEnds := by
  induction endpoints generalizing count best with
  | nil => exact draws_pure fun later enough kept same => (former kept same).mono enough
  | cons endpoint rest further =>
    unfold endpointStart
    refine (environment.draws_bestLeaf order endpoint ledger).bind fun leaf middle enough numbered =>
      (environment.draws_expand plain numbered).attempt.bind fun outcome later more tried => ?_
    have order' : low ≤ later := by omega
    cases outcome with
    | ok candidate => exact further _ order' (keepCheaper_some (fun kept same => (former kept same).mono (by omega)) (tried _ rfl))
    | error error => exact further _ order' fun kept same => (former kept same).mono (by omega)

theorem draws_cartesianStart {graph : MatchGraph} {index : Nat} {connection : Connection} {ledger : Ledger}
    (plain : connection.Plain) (order : low ≤ count) :
    Draws count (environment.cartesianStart graph index connection ledger) fun later candidate =>
      Numbered low later candidate.plan.freshEnds := by
  unfold cartesianStart
  refine (environment.draws_bestLeaf order _ _).bind fun left middle enough former =>
    (environment.draws_bestLeaf (Nat.le_refl middle) _ _).bind fun right later more latter =>
    (draws_of_yields fun _ => environment.yields_finish _ _ fun _ => rfl).bind fun product _ further ⟨_, _, same, _⟩ =>
    (draws_of_yields fun _ => environment.yields_estimate _).bind fun _ _ last _ => environment.draws_expand plain ?_
  rw [same, Plan.freshEnds_join]
  exact (former.append latter).mono (by omega)

theorem draws_connectionStart {graph : MatchGraph} {index : Nat} {connection : Connection} {ledger : Ledger}
    (plain : connection.Plain) (order : low ≤ count) :
    Draws count (environment.connectionStart graph index connection ledger) fun later result =>
      ∀ kept, result = some kept → Numbered low later kept.plan.freshEnds := by
  unfold connectionStart
  refine (environment.draws_endpointStart plain _ none order fun _ impossible => by cases impossible).bind
    fun single later enough former => .ite (fun crosses => ?_) fun _ => draws_pure fun last more kept same =>
      (former kept same).mono more
  refine (environment.draws_cartesianStart plain (Nat.le_trans order enough)).attempt.bind fun outcome last more tried => ?_
  cases outcome with
  | error error => exact draws_pure fun end' most kept same => (former kept same).mono (by omega)
  | ok cartesian =>
    cases single with
    | none =>
      refine draws_pure fun end' most kept same => ?_
      cases same
      exact (tried cartesian rfl).mono most
    | some single =>
      refine draws_pure fun end' most kept same => ?_
      cases same
      split
      · exact (tried cartesian rfl).mono most
      · exact (former single rfl).mono (by omega)

theorem draws_cheapestStart {graph : MatchGraph} {ledger : Ledger} (connections : List (Nat × Connection))
    (plain : ∀ entry ∈ connections, entry.2.Plain)
    (best : Option (Candidate ν)) (order : low ≤ count)
    (former : ∀ kept, best = some kept → Numbered low count kept.plan.freshEnds) :
    Draws count (environment.cheapestStart graph ledger best connections) fun later result =>
      ∀ kept, result = some kept → Numbered low later kept.plan.freshEnds := by
  induction connections generalizing count best with
  | nil => exact draws_pure fun later enough kept same => (former kept same).mono enough
  | cons first rest further =>
    have others := fun entry member => plain entry (List.mem_cons_of_mem _ member)
    unfold cheapestStart
    refine (environment.draws_connectionStart (plain _ List.mem_cons_self) order).bind fun outcome later enough tried => ?_
    have order' : low ≤ later := Nat.le_trans order enough
    cases outcome with
    | none => exact further others _ order' fun kept same => (former kept same).mono enough
    | some candidate =>
      exact further others _ order' (keepCheaper_some (fun kept same => (former kept same).mono enough) (tried _ rfl))

theorem draws_chooseStart {graph : MatchGraph} {component : Component} {ledger : Ledger}
    (plain : ∀ entry ∈ connectionsAt graph component.connections, entry.2.Plain)
    (order : low ≤ count) :
    Draws count (environment.chooseStart graph component ledger) fun later candidate =>
      Numbered low later candidate.plan.freshEnds := by
  unfold chooseStart
  refine .ite (fun _ => ?_) fun _ => ?_
  · refine (draws_of_yields fun _ => environment.yields_argumentStart graph ledger).weaken ?_
    rintro later candidate enough ⟨_, -, id, -, placed⟩
    rw [placed.filtered.freshEnds, Plan.freshEnds_leaf]
    exact .nil (Nat.le_trans order enough)
  · split
    next =>
      split
      · exact draws_throw _ _
      · exact environment.draws_bestLeaf order _ _
    next index connection others connections =>
      rw [connections] at plain
      refine (environment.draws_cheapestStart _ plain none order fun _ impossible => by cases impossible).bind
        fun best later enough former => ?_
      cases best with
      | some best => exact draws_pure fun last more => (former best rfl).mono more
      | none =>
        exact (environment.draws_bestLeaf (Nat.le_trans order enough) _ _).bind fun leaf last more numbered =>
          environment.draws_expand (plain _ List.mem_cons_self) numbered

/-! How it grows. -/

/-- The candidate a search would go on with is numbered. -/
def SearchNumbered (low high : Nat) (search : GrowthSearch ν) : Prop :=
  ∀ kept, search.best = some kept → Numbered low high kept.2.2.plan.freshEnds

omit [Quantity ν] in
theorem SearchNumbered.mono {search : GrowthSearch ν} {later : Nat} (former : SearchNumbered low count search)
    (enough : count ≤ later) : SearchNumbered low later search := fun kept same => (former kept same).mono enough

theorem SearchNumbered.offer {search : GrowthSearch ν} {candidate : Candidate ν} (former : SearchNumbered low count search)
    (numbered : Numbered low count candidate.plan.freshEnds) (index : Nat) (connection : Connection) :
    SearchNumbered low count (search.offer index connection candidate) := by
  change ∀ kept, keepCheaper (fun kept => kept.2.2.estimate) search.best (index, connection, candidate) = some kept → _
  exact keepCheaper_some former numbered

/-- Offering a hash join, however the search goes on from its result. -/
theorem draws_offerJoin {plan : Plan} {search : GrowthSearch ν} (graph : MatchGraph) (numbered : Numbered low count plan.freshEnds)
    (former : SearchNumbered low count search) (ledger : Ledger) (index : Nat) (relationship : PatternRelationship)
    {next : Option (Candidate ν) → Planning ν (GrowthSearch ν)} (skips : next none = pure search)
    (offers : ∀ candidate, next (some candidate) = pure (search.offer index (.relationship relationship) candidate)) :
    Draws count (environment.hashJoinCandidate index relationship plan ledger >>= next) (SearchNumbered low) := by
  refine (draws_of_yields fun _ => yields_hashJoinCandidate graph index relationship plan ledger).bind
    fun outcome later enough ⟨_, found⟩ => ?_
  cases outcome with
  | none =>
    rw [skips]
    exact draws_pure fun last more => former.mono (Nat.le_trans enough more)
  | some candidate =>
    rw [offers]
    obtain ⟨operator, added⟩ := found candidate rfl
    have late : Numbered low later candidate.plan.freshEnds := added.freshEnds ▸ numbered.mono enough
    exact draws_pure fun last more => ((former.mono enough).offer late _ _).mono more

theorem draws_growThrough {graph : MatchGraph} {plan : Plan} {ledger : Ledger} {search : GrowthSearch ν} {index : Nat}
    {connection : Connection} (plain : connection.Plain)
    (numbered : Numbered low count plan.freshEnds) (former : SearchNumbered low count search) :
    Draws count (environment.growThrough graph plan ledger search index connection) (SearchNumbered low) := by
  unfold growThrough
  refine (draws_of_yields fun _ => environment.yields_estimate _).bind fun _ started enough _ =>
    (environment.draws_expand plain (numbered.mono enough)).attempt.bind fun outcome later more tried => ?_
  have plan' := numbered.mono (Nat.le_trans enough more)
  have former' := former.mono (Nat.le_trans enough more)
  cases outcome with
  | error error =>
    have failed : SearchNumbered low later (search.fail error) := former'
    cases connection with
    | quantified pattern => exact draws_pure fun last most => failed.mono most
    | relationship relationship => exact environment.draws_offerJoin graph plan' failed ledger index relationship rfl fun _ => rfl
  | ok candidate =>
    have offered := former'.offer (tried candidate rfl) index connection
    cases connection with
    | quantified pattern => exact draws_pure fun last most => offered.mono most
    | relationship relationship => exact environment.draws_offerJoin graph plan' offered ledger index relationship rfl fun _ => rfl

theorem draws_cheapestGrowth {graph : MatchGraph} {plan : Plan} {ledger : Ledger} (connections : List (Nat × Connection))
    (plain : ∀ entry ∈ connections, entry.2.Plain)
    (numbered : Numbered low count plan.freshEnds) (search : GrowthSearch ν) (former : SearchNumbered low count search) :
    Draws count (environment.cheapestGrowth graph plan ledger search connections) (SearchNumbered low) := by
  induction connections generalizing count search with
  | nil => exact draws_pure fun later enough => former.mono enough
  | cons first rest further =>
    have others := fun entry member => plain entry (List.mem_cons_of_mem _ member)
    unfold cheapestGrowth
    refine .ite (fun _ => ?_) fun _ => further others numbered search former
    exact (environment.draws_growThrough (plain _ List.mem_cons_self) numbered former).bind fun offered later enough tried =>
      further others (numbered.mono enough) offered tried

theorem draws_grow {graph : MatchGraph} {component : Component} (rounds steps : Nat) (current : Candidate ν)
    (remaining : List (Nat × Connection))
    (plain : ∀ entry ∈ remaining, entry.2.Plain)
    (numbered : Numbered low count current.plan.freshEnds) :
    Draws count (environment.grow graph component rounds steps current remaining) fun later result =>
      Numbered low later result.1.plan.freshEnds := by
  induction rounds generalizing count steps current remaining with
  | zero => exact draws_pure fun later enough => numbered.mono enough
  | succ rounds further =>
    unfold grow
    refine .ite (fun _ => draws_pure fun later enough => numbered.mono enough) fun _ => .afterCheck ?_
    refine (environment.draws_cheapestGrowth remaining plain numbered .none fun _ impossible => by cases impossible).bind
      fun search later more tried => ?_
    cases found : search.best with
    | none =>
      cases search.failure with
      | none => exact draws_throw _ _
      | some error => exact draws_throw _ _
    | some best =>
      exact (draws_of_yields fun _ => yields_record _ _ _).bind fun _ last most _ =>
        further _ _ _ (fun entry member => plain entry (List.mem_filter.mp member).1) ((tried best found).mono most)

theorem draws_planComponent {graph : MatchGraph} {component : Component}
    (plain : ∀ entry ∈ connectionsAt graph component.connections, entry.2.Plain)
    (order : low ≤ count) (steps : Nat) (ledger : Ledger) :
    Draws count (environment.planComponent graph component steps ledger) fun later result =>
      Numbered low later result.1.plan.freshEnds := by
  unfold planComponent
  exact (environment.draws_chooseStart plain order).bind fun start later enough started =>
    (draws_of_yields fun _ => yields_record _ _ _).bind fun _ last more _ =>
    environment.draws_grow _ _ _ _ (fun entry member => plain entry (List.mem_filter.mp member).1) (started.mono more)

/-! The whole graph. -/

theorem draws_planComponents {graph : MatchGraph} (components : List Component)
    (plain : ∀ component ∈ components, ∀ entry ∈ connectionsAt graph component.connections,
      entry.2.Plain)
    (order : low ≤ count) (steps : Nat) (ledger : Ledger) :
    Draws count (environment.planComponents graph steps ledger components) fun later result =>
      Numbered low later (result.1.flatMap fun planned => planned.plan.freshEnds) := by
  induction components generalizing count low steps ledger with
  | nil => exact draws_pure fun later enough => .nil (Nat.le_trans order enough)
  | cons component rest further =>
    unfold planComponents
    refine (draws_of_yields fun _ => yields_checkCancellation).bind fun _ checked enough _ =>
      (environment.draws_planComponent (plain _ List.mem_cons_self) (Nat.le_trans order enough) _ _).bind
        fun planned middle more former =>
      (further (fun component member => plain component (List.mem_cons_of_mem _ member)) (Nat.le_refl middle) _ _).bind
        fun others later most latter => draws_pure fun last finally' => ?_
    rw [List.flatMap_cons]
    exact (former.append latter).mono finally'

theorem draws_compose {graph : MatchGraph}
    (plain : ∀ connection ∈ graph.connections, connection.Plain) :
    Draws count (environment.compose graph) fun _ root => root.freshEnds.Nodup := by
  unfold compose
  have each : ∀ component ∈ graph.components, ∀ entry ∈ connectionsAt graph component.connections,
      entry.2.Plain := by
    intro component _ entry member
    exact plain entry.2 (List.mem_of_getElem? (mem_connectionsAt.mp member).2)
  refine (draws_of_yields fun _ => yields_record _ _ _).bind fun _ started enough _ =>
    (environment.draws_planComponents _ each (Nat.le_refl started) _ _).bind fun planned later more numbered =>
    (draws_of_yields fun _ => environment.yields_combine graph planned.1 planned.2).bind fun result last most ⟨_, combined⟩ => ?_
  obtain ⟨root, unplaced⟩ := result
  cases unplaced with
  | cons entry rest => exact draws_throw _ _
  | nil =>
    refine draws_pure fun _ _ => ?_
    have same : (planned.1.map fun candidate => (⟨candidate.plan, []⟩ : Leg)).map Leg.plan = planned.1.map Candidate.plan :=
      List.map_map
    obtain ⟨-, -, id, -, placed⟩ | ⟨first, others, root', middle, sorted, rooted, joined⟩ := combined _ same
    · rw [placed.filtered.freshEnds, Plan.freshEnds_leaf]
      exact List.nodup_nil
    · have gathered := sorted.flatMap_right fun leg => leg.plan.freshEnds
      rw [List.flatMap_map, List.flatMap_cons, ← rooted.freshEnds, ← joined.freshEnds] at gathered
      exact gathered.nodup_iff.mpr numbered.distinct

/-- No two loops of a plan that is returned end in the same fresh variable. -/
theorem freshEnds_nodup {graph : MatchGraph}
    (plain : ∀ connection ∈ graph.connections, connection.Plain)
    {before after : Session ν} {query : PlannedQuery ν} (ran : environment.plan graph before = .ok query after) :
    query.root.freshEnds.Nodup := by
  obtain ⟨root, finished, planned, ran⟩ := bind_eq_ok ran
  cases ran
  obtain ⟨⟨⟩, reset, -, planned⟩ := bind_eq_ok planned
  obtain ⟨⟨⟩, configured, -, planned⟩ := bind_eq_ok planned
  obtain ⟨⟨⟩, accepted, -, planned⟩ := bind_eq_ok planned
  obtain ⟨composed, middle, found, planned⟩ := bind_eq_ok planned
  obtain ⟨estimate, estimated, -, planned⟩ := bind_eq_ok planned
  obtain ⟨⟨⟩, recorded, -, planned⟩ := bind_eq_ok planned
  cases planned
  exact (environment.draws_compose plain).returned found (Nat.zero_le _)

end Environment

end

end MatchPlanner
