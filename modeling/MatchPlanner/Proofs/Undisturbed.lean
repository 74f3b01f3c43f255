import MatchPlanner.Proofs.Completion
import MatchPlanner.Proofs.Construction

/-! Runs that nobody cancels. All that planning does is put together from a few actions, and one of them alone looks at the request for
cancellation. So a planner that is cancelled does what it does when nobody cancels it, until it looks at the request and stops. -/

namespace MatchPlanner

variable {ν : Type}

/-- The planner when nobody cancels it. -/
def Environment.undisturbed (environment : Environment ν) : Environment ν := { environment with cancelsDuring := fun _ => false }

def Session.undisturbed (session : Session ν) : Session ν := { session with cancelled := false }

namespace Planning

/-- Two actions put together in the same way, for a planner and for the same planner when nobody cancels it. Whether they `stop` tells
whether they may look at the request for cancellation. -/
inductive Mirrors (environment : Environment ν) (stop : Prop) : {β : Type} → Planning ν β → Planning ν β → Prop where
  | pure {β : Type} (value : β) : Mirrors environment stop (Pure.pure value) (Pure.pure value)
  | throw {β : Type} (error : PlanningError) : Mirrors environment stop (throw error : Planning ν β) (throw error)
  | bind {β γ : Type} {first other : Planning ν β} {next rest : β → Planning ν γ} (begun : Mirrors environment stop first other)
    (further : ∀ value, Mirrors environment stop (next value) (rest value)) :
    Mirrors environment stop (first >>= next) (other >>= rest)
  | attempt {β : Type} {action other : Planning ν β} (tried : Mirrors environment stop action other) :
    Mirrors environment stop (Planning.attempt action) (Planning.attempt other)
  | freshName (stem : String) : Mirrors environment stop (Planning.freshName stem) (Planning.freshName stem)
  | record (phase : PlanningPhase) (description : String) (metadata : TraceMetadata ν) :
    Mirrors environment stop (Planning.record phase description metadata) (Planning.record phase description metadata)
  | finish (operator : PlanId → Plan) (solved : List Expression) (labelled : ∀ id, (operator id).id = id) :
    Mirrors environment stop (environment.finish operator solved) (environment.undisturbed.finish operator solved)
  | leafCandidates (node : String) (predicates : List Expression) :
    Mirrors environment stop (environment.leafCandidates node predicates) (environment.undisturbed.leafCandidates node predicates)
  | check (allowed : stop) : Mirrors environment stop checkCancellation checkCancellation

variable {environment : Environment ν} {stop : Prop} {β γ : Type}

theorem Mirrors.ite {condition : Prop} [Decidable condition] {first second former latter : Planning ν β}
    (holds : Mirrors environment stop first former) (fails : Mirrors environment stop second latter) :
    Mirrors environment stop (if condition then first else second) (if condition then former else latter) := by
  split
  · exact holds
  · exact fails

theorem mirrors_ofExcept (value : Except PlanningError β) : Mirrors environment stop (ofExcept value) (ofExcept value) := by
  cases value with
  | ok result => exact .pure result
  | error error => exact .throw error

/-! Both actions end alike, unless the first is stopped. -/

/-- The outcome of a run in the session of one that nobody cancels. -/
def uncancelled : EStateM.Result PlanningError (Session ν) β → EStateM.Result PlanningError (Session ν) β
  | .ok value after => .ok value after.undisturbed
  | .error error after => .error error after.undisturbed

/-- The first action stops at the request for cancellation, or it ends as the second one does. -/
def Agrees (stop : Prop) (action other : Planning ν β) : Prop :=
  ∀ before, (stop ∧ ∃ after, action before = .error .cancelled after) ∨ other before.undisturbed = uncancelled (action before)

theorem agrees_pure (value : β) : Agrees stop (pure value : Planning ν β) (pure value) := fun _ => .inr rfl

theorem agrees_throw (error : PlanningError) : Agrees stop (throw error : Planning ν β) (throw error) := fun _ => .inr rfl

theorem Agrees.bind {first other : Planning ν β} {next rest : β → Planning ν γ} (agrees : Agrees stop first other)
    (further : ∀ value, Agrees stop (next value) (rest value)) : Agrees stop (first >>= next) (other >>= rest) := by
  intro before
  change (stop ∧ ∃ after, EStateM.bind first next before = _) ∨ EStateM.bind other rest _ = uncancelled (EStateM.bind first next before)
  rcases agrees before with ⟨stops, after, stopped⟩ | same
  · exact .inl ⟨stops, after, by rw [EStateM.bind, stopped]⟩
  · cases ran : first before with
    | ok value middle =>
      rw [ran] at same
      simp only [EStateM.bind, ran, same, uncancelled]
      exact further value middle
    | error error middle =>
      rw [ran] at same
      simp only [EStateM.bind, ran, same, uncancelled, or_true]

/-- A request for cancellation is not taken for the failure of one candidate. -/
theorem Agrees.attempt {action other : Planning ν β} (agrees : Agrees stop action other) :
    Agrees stop (attempt action) (attempt other) := by
  intro before
  simp only [attempt_apply]
  rcases agrees before with ⟨stops, after, stopped⟩ | same
  · exact .inl ⟨stops, after, by rw [stopped]; rfl⟩
  · refine .inr ?_
    rw [same]
    cases action before with
    | ok value after => rfl
    | error error after =>
      simp only [uncancelled]
      split <;> rfl

theorem agrees_ofExcept (value : Except PlanningError β) : Agrees stop (ofExcept value : Planning ν β) (ofExcept value) := by
  cases value with
  | ok result => exact agrees_pure result
  | error error => exact agrees_throw error

/-- An action that reads the session and does not ask whether it is cancelled. -/
theorem agrees_get {next rest : Session ν → Planning ν β} (each : ∀ session, Agrees stop (next session) (rest session.undisturbed)) :
    Agrees stop (get >>= next) (get >>= rest) := fun before => each before before

theorem agrees_set {next : Session ν} : Agrees stop (set next : Planning ν PUnit) (set next.undisturbed) := fun _ => .inr rfl

theorem agrees_finish (operator : PlanId → Plan) (solved : List Expression) :
    Agrees stop (environment.finish operator solved) (environment.undisturbed.finish operator solved) := by
  have writes {α : Type} (write : Session ν → Except PlanningError α) (update : Session ν → α → Session ν)
      (heedless : ∀ session, write session.undisturbed = write session)
      (commutes : ∀ session table, update session.undisturbed table = (update session table).undisturbed) :
      Agrees stop (do let session ← get; let table ← ofExcept (write session); set (update session table) : Planning ν PUnit)
        (do let session ← get; let table ← ofExcept (write session); set (update session table)) :=
    agrees_get fun session => by
      rw [heedless]
      refine (agrees_ofExcept _).bind fun table => ?_
      rw [commutes]
      exact agrees_set
  have allocates : Agrees stop (allocate : Planning ν PlanId) allocate := fun _ => .inr rfl
  refine allocates.bind fun id => (agrees_ofExcept _).bind fun estimate => agrees_get fun session => ?_
  exact (writes _ _ (fun _ => rfl) fun _ _ => rfl).bind fun _ => (writes _ _ (fun _ => rfl) fun _ _ => rfl).bind fun _ =>
    (writes _ _ (fun _ => rfl) fun _ _ => rfl).bind fun _ => agrees_pure _

theorem agrees_leafCandidates (node : String) (predicates : List Expression) :
    Agrees stop (environment.leafCandidates node predicates) (environment.undisturbed.leafCandidates node predicates) := by
  intro before
  have answers (answer : Except PlanningError (List LeafCandidate)) (session : Session ν) :
      ofExcept answer session.undisturbed = uncancelled (ofExcept answer session) := by
    cases answer <;> rfl
  exact .inr (answers (environment.leafPlanner (before.leafCalls + 1) node predicates environment.statistics)
    { before with
      leafCalls := before.leafCalls + 1, cancelled := before.cancelled || environment.cancelsDuring (before.leafCalls + 1) })

theorem checkCancellation_apply (before : Session ν) : (checkCancellation : Planning ν Unit) before =
    if before.cancelled = true then .error .cancelled before else .ok () before := by
  change (if before.cancelled = true then throw .cancelled else pure () : Planning ν Unit) before = _
  split <;> rfl

theorem agrees_record (phase : PlanningPhase) (description : String) (metadata : TraceMetadata ν) :
    Agrees stop (record phase description metadata) (record phase description metadata) := fun _ => .inr rfl

theorem agrees_check (allowed : stop) : Agrees stop (checkCancellation : Planning ν Unit) checkCancellation := by
  intro before
  simp only [checkCancellation_apply]
  split
  next => exact .inl ⟨allowed, before, rfl⟩
  next => exact .inr rfl

/-- Up to the place where it stops, a run goes as it goes when nobody cancels it. -/
theorem Mirrors.agrees {action other : Planning ν β} (mirrors : Mirrors environment stop action other) : Agrees stop action other := by
  induction mirrors with
  | pure value => exact agrees_pure value
  | throw error => exact agrees_throw error
  | bind _ _ former latter => exact former.bind latter
  | attempt _ agrees => exact agrees.attempt
  | freshName stem => exact fun _ => .inr rfl
  | record phase description metadata => exact agrees_record phase description metadata
  | finish operator solved => exact agrees_finish operator solved
  | leafCandidates node predicates => exact agrees_leafCandidates node predicates
  | check allowed => exact agrees_check allowed

end Planning

open Planning

/-! What the planner does. -/

namespace Environment

variable {environment : Environment ν} {stop : Prop}

theorem mirrors_estimate (plan : Plan) : Mirrors environment stop (environment.estimate plan) (environment.undisturbed.estimate plan) :=
  mirrors_ofExcept _

theorem mirrors_filter (input : Plan) (predicates : List Expression) :
    Mirrors environment stop (environment.filter input predicates) (environment.undisturbed.filter input predicates) :=
  .ite (.pure input) (.finish _ _ fun _ => rfl)

theorem mirrors_placeInner (progress : InnerProgress) (checks : List Expression) :
    Mirrors environment stop (environment.placeInner progress checks) (environment.undisturbed.placeInner progress checks) :=
  (mirrors_filter _ _).bind fun _ => .pure _

theorem mirrors_innerSteps (siblings : List RelationshipProducer) (earlier steps : List TrailStep) (progress : InnerProgress) :
    Mirrors environment stop (environment.innerSteps siblings earlier progress steps)
      (environment.undisturbed.innerSteps siblings earlier progress steps) := by
  induction steps generalizing earlier progress with
  | nil => exact .pure progress
  | cons step rest further =>
    unfold innerSteps
    exact (Mirrors.finish _ _ fun _ => rfl).bind fun _ => (mirrors_placeInner _ _).bind fun _ => further _ _

theorem mirrors_innerPlan (pattern : QuantifiedPattern) (classification : Classification) (bound : NameSet) (innerStart : String)
    (steps : List TrailStep) (siblings : List RelationshipProducer) :
    Mirrors environment stop (environment.innerPlan pattern classification bound innerStart steps siblings)
      (environment.undisturbed.innerPlan pattern classification bound innerStart steps siblings) := by
  unfold innerPlan
  refine (Mirrors.finish _ _ fun _ => rfl).bind fun _ => (mirrors_placeInner _ _).bind fun _ =>
    (mirrors_innerSteps _ _ _ _).bind fun last => ?_
  split
  · exact .pure _
  · exact .throw _

theorem mirrors_varExpandCandidate (source : Plan) (request : QuantifiedRequest) (classification : Classification)
    (needed bound : NameSet) (direction : TraversalDirection) :
    Mirrors environment stop (environment.varExpandCandidate source request classification needed bound direction)
      (environment.undisturbed.varExpandCandidate source request classification needed bound direction) := by
  unfold varExpandCandidate
  split
  · exact .throw _
  · split
    · exact .throw _
    · exact (Mirrors.finish _ _ fun _ => rfl).bind fun _ => (mirrors_estimate _).bind fun _ => .pure _

theorem mirrors_build (request : TrailRequest) :
    Mirrors environment stop (request.build : Planning ν (TrailParameters × Option Expression)) request.build :=
  .ite (.throw _) (.ite ((Mirrors.freshName _).bind fun _ => .pure _) (.pure _))

theorem mirrors_trailCandidate (source : Plan) (request : QuantifiedRequest) (classification : Classification)
    (needed bound : NameSet) (direction : TraversalDirection) :
    Mirrors environment stop (environment.trailCandidate source request classification needed bound direction)
      (environment.undisturbed.trailCandidate source request classification needed bound direction) := by
  unfold trailCandidate
  refine (mirrors_build _).bind fun ⟨parameters, equality⟩ => (mirrors_innerPlan _ _ _ _ _ _).bind fun inner =>
    (Mirrors.finish _ _ fun _ => rfl).bind fun loop => ?_
  cases equality with
  | none => exact (mirrors_estimate _).bind fun _ => .pure _
  | some equality => exact (mirrors_filter _ _).bind fun _ => (mirrors_estimate _).bind fun _ => .pure _

/-- The candidate that a direction offers for a quantified pattern. -/
def patternCandidate (environment : Environment ν) (source : Plan) (request : QuantifiedRequest) (direction : TraversalDirection) :
    Planning ν (PlannedPattern ν) :=
  if request.collapses environment.config (request.sorted source) (request.needs source) then
    environment.varExpandCandidate source request (request.sorted source) (request.needs source) source.available direction
  else environment.trailCandidate source request (request.sorted source) (request.needs source) source.available direction

theorem mirrors_patternCandidate (source : Plan) (request : QuantifiedRequest) (direction : TraversalDirection) :
    Mirrors environment stop (environment.patternCandidate source request direction)
      (environment.undisturbed.patternCandidate source request direction) :=
  .ite (mirrors_varExpandCandidate _ _ _ _ _ _) (mirrors_trailCandidate _ _ _ _ _ _)

variable [Quantity ν]

theorem mirrors_cheapestDirection {candidate other : TraversalDirection → Planning ν (PlannedPattern ν)}
    (each : ∀ direction, Mirrors environment stop (candidate direction) (other direction)) (best : Option (PlannedPattern ν))
    (failure : Option PlanningError) (directions : List TraversalDirection) :
    Mirrors environment stop (cheapestDirection candidate best failure directions)
      (cheapestDirection other best failure directions) := by
  induction directions generalizing best failure with
  | nil => exact .pure _
  | cons direction rest further =>
    unfold cheapestDirection
    refine (each direction).attempt.bind fun outcome => ?_
    cases outcome with
    | ok planned => exact further _ _
    | error error => exact further _ _

/-- Planning a pattern weighs the candidates of the directions it can be traversed in. -/
theorem planPattern_eq (environment : Environment ν) (source : Plan) (request : QuantifiedRequest) :
    environment.planPattern source request = (do
      if (request.directions source.available).isEmpty then throw (.internal (.unboundBoundaries request.pattern.render))
      match ← cheapestDirection (environment.patternCandidate source request) none none (request.directions source.available) with
      | (some best, _) => return best
      | (none, some error) => throw error
      | (none, none) => throw (.internal (.noCandidate request.pattern.render))) := by
  have candidates : environment.patternCandidate source request =
      if request.collapses environment.config (request.sorted source) (request.needs source) then
        environment.varExpandCandidate source request (request.sorted source) (request.needs source) source.available
      else environment.trailCandidate source request (request.sorted source) (request.needs source) source.available := by
    funext direction
    exact (ite_apply ..).symm
  rw [candidates]
  rfl

theorem mirrors_planPattern (source : Plan) (request : QuantifiedRequest) :
    Mirrors environment stop (environment.planPattern source request) (environment.undisturbed.planPattern source request) := by
  rw [planPattern_eq, planPattern_eq]
  refine .ite (.throw _) ((mirrors_cheapestDirection (mirrors_patternCandidate source request) none none _).bind
    fun ⟨best, failure⟩ => ?_)
  cases best with
  | some best => exact .pure best
  | none => cases failure <;> exact .throw _

/-! Partial plans. -/

omit [Quantity ν] in
theorem mirrors_placeReady (plan : Plan) (ledger : Ledger) :
    Mirrors environment stop (environment.placeReady plan ledger) (environment.undisturbed.placeReady plan ledger) :=
  (mirrors_filter _ _).bind fun _ => .pure _

omit [Quantity ν] in
theorem mirrors_candidate (plan : Plan) (remaining : Ledger) (description : String) (connection : Option Nat) :
    Mirrors environment stop (environment.candidate plan remaining description connection)
      (environment.undisturbed.candidate plan remaining description connection) :=
  (mirrors_estimate _).bind fun _ => .pure _

theorem mirrors_expand (graph : MatchGraph) (index : Nat) (connection : Connection) (input : Plan) (ledger : Ledger) :
    Mirrors environment stop (environment.expand graph index connection input ledger)
      (environment.undisturbed.expand graph index connection input ledger) := by
  cases connection with
  | relationship relationship =>
    exact (Mirrors.finish _ _ fun _ => rfl).bind fun _ => (mirrors_placeReady _ _).bind fun _ => mirrors_candidate _ _ _ _
  | quantified pattern =>
    exact (mirrors_planPattern _ _).bind fun _ => (mirrors_placeReady _ _).bind fun _ => mirrors_candidate _ _ _ _

theorem mirrors_cheapestLeaf (ledger : Ledger) (best : Option (Candidate ν)) (leaves : List LeafCandidate) :
    Mirrors environment stop (environment.cheapestLeaf ledger best leaves)
      (environment.undisturbed.cheapestLeaf ledger best leaves) := by
  induction leaves generalizing best with
  | nil => exact .pure best
  | cons leaf rest further =>
    unfold cheapestLeaf
    exact (Mirrors.finish _ _ fun _ => rfl).bind fun _ => (mirrors_placeReady _ _).bind fun _ =>
      (mirrors_candidate _ _ _ _).bind fun _ => further _

theorem mirrors_bestLeaf (node : String) (ledger : Ledger) :
    Mirrors environment stop (environment.bestLeaf node ledger) (environment.undisturbed.bestLeaf node ledger) := by
  refine (Mirrors.leafCandidates _ _).bind fun leaves => (mirrors_cheapestLeaf _ _ _).bind fun best => ?_
  cases best with
  | some best => exact .pure best
  | none => exact .throw _

/-! Where a component starts. -/

omit [Quantity ν] in
theorem mirrors_argumentPlan (graph : MatchGraph) :
    Mirrors environment stop (environment.argumentPlan graph) (environment.undisturbed.argumentPlan graph) :=
  .finish _ _ fun _ => rfl

omit [Quantity ν] in
theorem mirrors_argumentStart (graph : MatchGraph) (ledger : Ledger) :
    Mirrors environment stop (environment.argumentStart graph ledger) (environment.undisturbed.argumentStart graph ledger) :=
  (mirrors_argumentPlan _).bind fun _ => (mirrors_placeReady _ _).bind fun _ => mirrors_candidate _ _ _ _

theorem mirrors_endpointStart (graph : MatchGraph) (index : Nat) (connection : Connection) (ledger : Ledger)
    (best : Option (Candidate ν)) (endpoints : List String) :
    Mirrors environment stop (environment.endpointStart graph index connection ledger best endpoints)
      (environment.undisturbed.endpointStart graph index connection ledger best endpoints) := by
  induction endpoints generalizing best with
  | nil => exact .pure best
  | cons endpoint rest further =>
    unfold endpointStart
    refine (mirrors_bestLeaf _ _).bind fun leaf => (mirrors_expand _ _ _ _ _).attempt.bind fun outcome => ?_
    cases outcome with
    | ok candidate => exact further _
    | error error => exact further _

theorem mirrors_cartesianStart (graph : MatchGraph) (index : Nat) (connection : Connection) (ledger : Ledger) :
    Mirrors environment stop (environment.cartesianStart graph index connection ledger)
      (environment.undisturbed.cartesianStart graph index connection ledger) :=
  (mirrors_bestLeaf _ _).bind fun _ => (mirrors_bestLeaf _ _).bind fun _ => (Mirrors.finish _ _ fun _ => rfl).bind fun _ =>
    (mirrors_estimate _).bind fun _ => mirrors_expand _ _ _ _ _

theorem mirrors_connectionStart (graph : MatchGraph) (index : Nat) (connection : Connection) (ledger : Ledger) :
    Mirrors environment stop (environment.connectionStart graph index connection ledger)
      (environment.undisturbed.connectionStart graph index connection ledger) := by
  refine (mirrors_endpointStart _ _ _ _ _ _).bind fun single =>
    .ite ((mirrors_cartesianStart _ _ _ _).attempt.bind fun outcome => ?_) (.pure single)
  cases outcome with
  | error error => exact .pure single
  | ok cartesian => cases single <;> exact .pure _

theorem mirrors_cheapestStart (graph : MatchGraph) (ledger : Ledger) (best : Option (Candidate ν))
    (connections : List (Nat × Connection)) :
    Mirrors environment stop (environment.cheapestStart graph ledger best connections)
      (environment.undisturbed.cheapestStart graph ledger best connections) := by
  induction connections generalizing best with
  | nil => exact .pure best
  | cons first rest further =>
    unfold cheapestStart
    refine (mirrors_connectionStart _ _ _ _).bind fun started => ?_
    cases started with
    | some candidate => exact further _
    | none => exact further _

theorem mirrors_chooseStart (graph : MatchGraph) (component : Component) (ledger : Ledger) :
    Mirrors environment stop (environment.chooseStart graph component ledger)
      (environment.undisturbed.chooseStart graph component ledger) := by
  unfold chooseStart
  refine .ite (mirrors_argumentStart _ _) ?_
  split
  · split
    · exact .throw _
    · exact mirrors_bestLeaf _ _
  · refine (mirrors_cheapestStart _ _ _ _).bind fun best => ?_
    cases best with
    | some best => exact .pure best
    | none => exact (mirrors_bestLeaf _ _).bind fun _ => mirrors_expand _ _ _ _ _

/-! How it grows. -/

theorem mirrors_hashJoinCandidate (index : Nat) (relationship : PatternRelationship) (plan : Plan) (ledger : Ledger) :
    Mirrors environment stop (environment.hashJoinCandidate index relationship plan ledger)
      (environment.undisturbed.hashJoinCandidate index relationship plan ledger) :=
  .ite (.pure none) <| .ite (.pure none) <| (mirrors_bestLeaf _ _).bind fun _ => .ite (.pure none) <|
    (Mirrors.finish _ _ fun _ => rfl).bind fun _ => (Mirrors.finish _ _ fun _ => rfl).bind fun _ =>
    (mirrors_placeReady _ _).bind fun _ => (mirrors_candidate _ _ _ _).bind fun _ => .pure _

theorem mirrors_growThrough (graph : MatchGraph) (plan : Plan) (ledger : Ledger) (search : GrowthSearch ν) (index : Nat)
    (connection : Connection) :
    Mirrors environment stop (environment.growThrough graph plan ledger search index connection)
      (environment.undisturbed.growThrough graph plan ledger search index connection) := by
  refine (mirrors_estimate _).bind fun _ => (mirrors_expand _ _ _ _ _).attempt.bind fun outcome => ?_
  cases outcome with
  | ok candidate | error error =>
    cases connection with
    | quantified pattern => exact (Mirrors.pure _).bind fun _ => .pure _
    | relationship relationship =>
      refine (Mirrors.pure _).bind fun _ => (mirrors_hashJoinCandidate _ _ _ _).bind fun joined => ?_
      cases joined <;> exact .pure _

theorem mirrors_cheapestGrowth (graph : MatchGraph) (plan : Plan) (ledger : Ledger) (search : GrowthSearch ν)
    (connections : List (Nat × Connection)) :
    Mirrors environment stop (environment.cheapestGrowth graph plan ledger search connections)
      (environment.undisturbed.cheapestGrowth graph plan ledger search connections) := by
  induction connections generalizing search with
  | nil => exact .pure search
  | cons first rest further =>
    unfold cheapestGrowth
    exact .ite ((mirrors_growThrough _ _ _ _ _ _).bind fun _ => further _) (further search)

/-- A step looks at the request only now and then. -/
theorem mirrors_grow (stops : stop) (graph : MatchGraph) (component : Component) (rounds steps : Nat) (current : Candidate ν)
    (remaining : List (Nat × Connection)) :
    Mirrors environment stop (environment.grow graph component rounds steps current remaining)
      (environment.undisturbed.grow graph component rounds steps current remaining) := by
  induction rounds generalizing steps current remaining with
  | zero => exact .pure _
  | succ rounds further =>
    unfold grow
    -- With or without a look at the request, the step is the same.
    refine .ite (.pure _) (.ite ((Mirrors.check stops).bind fun _ => ?_) ?_) <;>
    · refine (mirrors_cheapestGrowth _ _ _ _ _).bind fun search => ?_
      split
      · exact (Mirrors.record _ _ _).bind fun _ => further _ _ _
      · exact .throw _
      · exact .throw _

theorem mirrors_planComponent (stops : stop) (graph : MatchGraph) (component : Component) (steps : Nat) (ledger : Ledger) :
    Mirrors environment stop (environment.planComponent graph component steps ledger)
      (environment.undisturbed.planComponent graph component steps ledger) :=
  (mirrors_chooseStart _ _ _).bind fun _ => (Mirrors.record _ _ _).bind fun _ => mirrors_grow stops _ _ _ _ _ _

/-! A whole match graph. -/

theorem mirrors_planComponents (stops : stop) (graph : MatchGraph) (steps : Nat) (ledger : Ledger) (components : List Component) :
    Mirrors environment stop (environment.planComponents graph steps ledger components)
      (environment.undisturbed.planComponents graph steps ledger components) := by
  induction components generalizing steps ledger with
  | nil => exact .pure _
  | cons component rest further =>
    unfold planComponents
    exact (Mirrors.check stops).bind fun _ => (mirrors_planComponent stops _ _ _ _).bind fun _ => (further _ _).bind fun _ => .pure _

omit [Quantity ν] in
theorem mirrors_product (left right : Plan) (ledger : Ledger) :
    Mirrors environment stop (environment.product left right ledger) (environment.undisturbed.product left right ledger) :=
  (Mirrors.finish _ _ fun _ => rfl).bind fun _ => mirrors_placeReady _ _

omit [Quantity ν] in
theorem mirrors_combineLegs (stops : stop) (root : Plan) (ledger : Ledger) (legs : List (Candidate ν)) :
    Mirrors environment stop (environment.combineLegs root ledger legs) (environment.undisturbed.combineLegs root ledger legs) := by
  induction legs generalizing root ledger with
  | nil => exact .pure _
  | cons leg rest further =>
    unfold combineLegs
    exact (Mirrors.check stops).bind fun _ => (mirrors_product _ _ _).bind fun _ => (Mirrors.record _ _ _).bind fun _ => further _ _

theorem mirrors_combine (stops : stop) (graph : MatchGraph) (planned : List (Candidate ν)) (ledger : Ledger) :
    Mirrors environment stop (environment.combine graph planned ledger) (environment.undisturbed.combine graph planned ledger) := by
  unfold combine
  split
  · exact .ite (.throw _) ((mirrors_argumentStart _ _).bind fun _ => .pure _)
  · exact .ite (mirrors_combineLegs stops _ _ _)
      ((mirrors_argumentPlan _).bind fun _ => (mirrors_product _ _ _).bind fun _ => mirrors_combineLegs stops _ _ _)

theorem mirrors_compose (stops : stop) (graph : MatchGraph) :
    Mirrors environment stop (environment.compose graph) (environment.undisturbed.compose graph) := by
  refine (Mirrors.record _ _ _).bind fun _ => (mirrors_planComponents stops _ _ _ _).bind fun _ =>
    (mirrors_combine stops _ _ _).bind fun combined => ?_
  obtain ⟨root, remaining⟩ := combined
  cases remaining with
  | nil => exact .pure root
  | cons entry others => exact .throw _

/-- Planning a graph ends with the request for cancellation or as it ends when nobody makes one. -/
theorem agrees_plan (graph : MatchGraph) : Agrees True (environment.plan graph) (environment.undisturbed.plan graph) := by
  have resets : Agrees True (modify fun session => { session with arena := .empty, trace := [] } : Planning ν PUnit)
      (modify fun session => { session with arena := .empty, trace := [] }) := fun _ => .inr rfl
  have returns (root : Plan) : Agrees True (planned root : Planning ν (PlannedQuery ν)) (planned root) := fun _ => .inr rfl
  unfold plan planRoot
  simp only [bind_assoc, pure_bind]
  exact resets.bind fun _ => (agrees_ofExcept _).bind fun _ => (agrees_ofExcept _).bind fun _ =>
    (mirrors_compose trivial graph).agrees.bind fun root => (agrees_ofExcept _).bind fun _ => (agrees_record _ _ _).bind fun _ =>
    returns root

end Environment

end MatchPlanner
