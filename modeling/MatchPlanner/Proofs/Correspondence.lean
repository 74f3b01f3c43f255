import MatchPlanner.Proofs.Retyping
import MatchPlanner.Proofs.Undisturbed

/-! Two runs that differ in type lists alone. Whatever the planner does is put together from a few actions, and each of them ends in the
second run as it ends in the first, with the same ids, the same estimates and the same entries. Only texts that show a type list may
tell the two runs apart. -/

namespace MatchPlanner

variable {ν : Type} {alike : List String → List String → Prop}

/-- Related values, and the same beside them. -/
structure Paired {β β' γ : Type} (related : β → β' → Prop) (pair : β × γ) (pair' : β' × γ) : Prop where
  value : related pair.1 pair'.1
  beside : pair.2 = pair'.2

/-! What two runs have in common. -/

section

variable (alike)

/-- The two texts differ at most in the type lists of an operator or of a connection they show. -/
inductive Worded : String → String → Prop where
  | same (text : String) : Worded text text
  | operator {plan plan' : Plan} (retypes : plan.Retypes alike plan') : Worded plan.describe plan'.describe
  | connection (before : String) {connection connection' : Connection} (retypes : connection.Retypes alike connection') :
    Worded (before ++ connection.render) (before ++ connection'.render)

/-- The two errors differ at most in the type lists of a pattern they quote. -/
inductive PlanningError.Retypes : PlanningError → PlanningError → Prop where
  | same (error : PlanningError) : PlanningError.Retypes error error
  | undeclaredNode {quoted quoted' : String} (node : String) (worded : Worded alike quoted quoted') :
    PlanningError.Retypes (.malformedPattern (.undeclaredNode quoted node)) (.malformedPattern (.undeclaredNode quoted' node))
  | missingRelationship {quoted quoted' : String} (worded : Worded alike quoted quoted') :
    PlanningError.Retypes (.malformedPattern (.missingRelationship quoted)) (.malformedPattern (.missingRelationship quoted'))
  | unboundBoundaries {quoted quoted' : String} (worded : Worded alike quoted quoted') :
    PlanningError.Retypes (.internal (.unboundBoundaries quoted)) (.internal (.unboundBoundaries quoted'))
  | noCandidate {quoted quoted' : String} (worded : Worded alike quoted quoted') :
    PlanningError.Retypes (.internal (.noCandidate quoted)) (.internal (.noCandidate quoted'))

structure TraceStep.Retypes (step step' : TraceStep ν) : Prop where
  phase : step.phase = step'.phase
  description : Worded alike step.description step'.description
  duration : step.duration = step'.duration
  metadata : step.metadata = step'.metadata

structure Session.Retypes (session session' : Session ν) : Prop where
  arena : session.arena = session'.arena
  trace : List.Forall₂ (TraceStep.Retypes alike) session.trace session'.trace
  leafCalls : session.leafCalls = session'.leafCalls
  cancelled : session.cancelled = session'.cancelled

structure InnerProgress.Retypes (progress progress' : InnerProgress) : Prop where
  plan : progress.plan.Retypes alike progress'.plan
  scope : progress.scope = progress'.scope
  pending : progress.pending = progress'.pending

structure PlannedPattern.Retypes (planned planned' : PlannedPattern ν) : Prop where
  plan : planned.plan.Retypes alike planned'.plan
  estimate : planned.estimate = planned'.estimate
  operator : planned.operator = planned'.operator
  direction : planned.direction = planned'.direction
  solvedOuter : planned.solvedOuter = planned'.solvedOuter
  dischargedSiblings : planned.dischargedSiblings = planned'.dischargedSiblings

structure Candidate.Retypes (candidate candidate' : Candidate ν) : Prop where
  plan : candidate.plan.Retypes alike candidate'.plan
  estimate : candidate.estimate = candidate'.estimate
  remaining : candidate.remaining = candidate'.remaining
  description : Worded alike candidate.description candidate'.description
  connection : candidate.connection = candidate'.connection

/-- A candidate that adds a connection. -/
structure Candidate.RetypesVia (found found' : Nat × Connection × Candidate ν) : Prop where
  index : found.1 = found'.1
  connection : found.2.1.Retypes alike found'.2.1
  candidate : found.2.2.Retypes alike found'.2.2

structure GrowthSearch.Retypes (search search' : GrowthSearch ν) : Prop where
  best : Option.Rel (Candidate.RetypesVia alike) search.best search'.best
  failure : Option.Rel (PlanningError.Retypes alike) search.failure search'.failure

structure PlannedQuery.Retypes (query query' : PlannedQuery ν) : Prop where
  root : query.root.Retypes alike query'.root
  arena : query.arena = query'.arena
  steps : List.Forall₂ (TraceStep.Retypes alike) query.trace.steps query'.trace.steps
  duration : query.trace.duration = query'.trace.duration

end

theorem Worded.shown {connection connection' : Connection} (retypes : connection.Retypes alike connection') :
    Worded alike connection.render connection'.render := by
  have shown : Worded alike ("" ++ connection.render) ("" ++ connection'.render) := .connection "" retypes
  rwa [String.empty_append, String.empty_append] at shown

theorem Worded.pattern {pattern pattern' : QuantifiedPattern} (retypes : pattern.Retypes alike pattern') :
    Worded alike pattern.render pattern'.render := .shown (.quantified retypes)

theorem PlanningError.Retypes.isCandidateLocal {error error' : PlanningError} (retypes : error.Retypes alike error') :
    error.isCandidateLocal = error'.isCandidateLocal := by
  cases retypes <;> rfl

/-- The first failure is kept. -/
theorem PlanningError.Retypes.first {failure failure' : Option PlanningError} {error error' : PlanningError}
    (before : Option.Rel (PlanningError.Retypes alike) failure failure') (retypes : error.Retypes alike error') :
    Option.Rel (PlanningError.Retypes alike) (failure <|> some error) (failure' <|> some error') := by
  cases before with
  | none => exact .some retypes
  | some kept => exact .some kept

/-- Of two candidates with the same estimates the same one is kept. -/
theorem keepCheaper_retypes [Quantity ν] {β β' : Type} {related : β → β' → Prop} {estimate : β → Estimate ν}
    {estimate' : β' → Estimate ν} (agree : ∀ value value', related value value' → estimate value = estimate' value')
    {best : Option β} {best' : Option β'} {candidate : β} {candidate' : β'} (before : Option.Rel related best best')
    (same : related candidate candidate') :
    Option.Rel related (keepCheaper estimate best candidate) (keepCheaper estimate' best' candidate') := by
  cases before with
  | none => exact .some same
  | some kept =>
    dsimp only [keepCheaper]
    rw [agree _ _ same, agree _ _ kept]
    split
    · exact .some same
    · exact .some kept

namespace GrowthSearch.Retypes

variable {search search' : GrowthSearch ν}

theorem offer [Quantity ν] (searches : search.Retypes alike search') (index : Nat) {connection connection' : Connection}
    (same : connection.Retypes alike connection') {candidate candidate' : Candidate ν}
    (candidates : candidate.Retypes alike candidate') :
    (search.offer index connection candidate).Retypes alike (search'.offer index connection' candidate') := by
  have found : Candidate.RetypesVia alike (index, connection, candidate) (index, connection', candidate') := ⟨rfl, same, candidates⟩
  have best : Option.Rel (Candidate.RetypesVia alike)
      (keepCheaper (fun kept => kept.2.2.estimate) search.best (index, connection, candidate))
      (keepCheaper (fun kept => kept.2.2.estimate) search'.best (index, connection', candidate')) :=
    keepCheaper_retypes (fun _ _ found => found.candidate.estimate) searches.best found
  exact ⟨best, searches.failure⟩

theorem fail (searches : search.Retypes alike search') {error error' : PlanningError} (retypes : error.Retypes alike error') :
    (search.fail error).Retypes alike (search'.fail error') :=
  ⟨searches.best, PlanningError.Retypes.first searches.failure retypes⟩

end GrowthSearch.Retypes

namespace Planning

variable {β β' γ γ' : Type} {related : β → β' → Prop} {result : γ → γ' → Prop}

section

variable (alike)

inductive Answers (related : β → β' → Prop) : Except PlanningError β → Except PlanningError β' → Prop where
  | ok {value : β} {value' : β'} (same : related value value') : Answers related (.ok value) (.ok value')
  | error {error error' : PlanningError} (retypes : error.Retypes alike error') : Answers related (.error error) (.error error')

inductive Ends (related : β → β' → Prop) :
    EStateM.Result PlanningError (Session ν) β → EStateM.Result PlanningError (Session ν) β' → Prop where
  | ok {value : β} {value' : β'} {after after' : Session ν} (same : related value value') (sessions : after.Retypes alike after') :
    Ends related (.ok value after) (.ok value' after')
  | error {error error' : PlanningError} {after after' : Session ν} (retypes : error.Retypes alike error')
    (sessions : after.Retypes alike after') : Ends related (.error error after) (.error error' after')

/-- Begun in sessions that differ in type lists alone, two actions end in such sessions and with related values. -/
def Corresponds (related : β → β' → Prop) (action : Planning ν β) (action' : Planning ν β') : Prop :=
  ∀ before before', before.Retypes alike before' → Ends alike related (action before) (action' before')

end

namespace Corresponds

theorem pure {value : β} {value' : β'} (same : related value value') :
    Corresponds alike related (Pure.pure value : Planning ν β) (Pure.pure value') := fun _ _ sessions => .ok same sessions

theorem throw {error error' : PlanningError} (retypes : error.Retypes alike error') :
    Corresponds alike related (MonadExcept.throw error : Planning ν β) (MonadExcept.throw error') :=
  fun _ _ sessions => .error retypes sessions

theorem ofExcept {value : Except PlanningError β} {value' : Except PlanningError β'} (answers : Answers alike related value value') :
    Corresponds alike related (Planning.ofExcept value : Planning ν β) (Planning.ofExcept value') := by
  cases answers with
  | ok same => exact pure same
  | error retypes => exact throw retypes

theorem ofExcept_same (value : Except PlanningError β) :
    Corresponds alike Eq (Planning.ofExcept value : Planning ν β) (Planning.ofExcept value) := by
  cases value with
  | ok value => exact pure rfl
  | error error => exact throw (.same error)

theorem bind {first : Planning ν β} {first' : Planning ν β'} {next : β → Planning ν γ} {next' : β' → Planning ν γ'}
    (begun : Corresponds alike related first first')
    (further : ∀ value value', related value value' → Corresponds alike result (next value) (next' value')) :
    Corresponds alike result (first >>= next) (first' >>= next') := by
  intro before before' sessions
  have ends := begun before before' sessions
  change Ends alike result (EStateM.bind first next before) (EStateM.bind first' next' before')
  unfold EStateM.bind
  cases ran : first before <;> cases ran' : first' before' <;> rw [ran, ran'] at ends
  case ok.ok => cases ends with | ok same sessions => exact further _ _ same _ _ sessions
  case error.error => cases ends with | error retypes sessions => exact .error retypes sessions
  all_goals cases ends

/-- What the second action gets is the same in both runs. -/
theorem bind_same {first first' : Planning ν β} {next : β → Planning ν γ} {next' : β → Planning ν γ'}
    (begun : Corresponds alike Eq first first') (further : ∀ value, Corresponds alike result (next value) (next' value)) :
    Corresponds alike result (first >>= next) (first' >>= next') :=
  begun.bind fun value _ same => same ▸ further value

/-- What comes beside the value is the same in both runs. -/
theorem bind_paired {α : Type} {first : Planning ν (β × α)} {first' : Planning ν (β' × α)} {next : β × α → Planning ν γ}
    {next' : β' × α → Planning ν γ'} (begun : Corresponds alike (Paired related) first first')
    (further : ∀ value value' other, related value value' → Corresponds alike result (next (value, other)) (next' (value', other))) :
    Corresponds alike result (first >>= next) (first' >>= next') := by
  refine begun.bind ?_
  rintro ⟨value, other⟩ ⟨value', _⟩ ⟨same, rfl⟩
  exact further value value' other same

theorem ite {condition : Prop} [Decidable condition] {first second : Planning ν β} {first' second' : Planning ν β'}
    (holds : Corresponds alike related first first') (fails : Corresponds alike related second second') :
    Corresponds alike related (if condition then first else second) (if condition then first' else second') := by
  split
  exacts [holds, fails]

theorem attempt {action : Planning ν β} {action' : Planning ν β'} (tried : Corresponds alike related action action') :
    Corresponds alike (Answers alike related) (Planning.attempt action) (Planning.attempt action') := by
  intro before before' sessions
  have ends := tried before before' sessions
  rw [attempt_apply, attempt_apply]
  cases ran : action before <;> cases ran' : action' before' <;> rw [ran, ran'] at ends
  case ok.ok => cases ends with | ok same sessions => exact .ok (.ok same) sessions
  case error.error =>
    cases ends with
    | error retypes sessions =>
      dsimp only
      rw [retypes.isCandidateLocal]
      split
      · exact .ok (.error retypes) sessions
      · exact .error retypes sessions
  all_goals cases ends

theorem get {next : Session ν → Planning ν γ} {next' : Session ν → Planning ν γ'}
    (further : ∀ session session', session.Retypes alike session' → Corresponds alike result (next session) (next' session')) :
    Corresponds alike result (MonadState.get >>= next) (MonadState.get >>= next') :=
  fun before before' sessions => further before before' sessions before before' sessions

theorem set {session session' : Session ν} (sessions : session.Retypes alike session') :
    Corresponds alike Eq (MonadState.set session : Planning ν PUnit) (MonadState.set session') := fun _ _ _ => .ok rfl sessions

theorem allocate : Corresponds alike Eq (Planning.allocate : Planning ν PlanId) Planning.allocate := by
  rintro ⟨arena, steps, calls, cancelled⟩ ⟨_, steps', _, _⟩ ⟨rfl, trace, rfl, rfl⟩
  exact .ok rfl ⟨rfl, trace, rfl, rfl⟩

theorem freshName (stem : String) : Corresponds alike Eq (Planning.freshName stem : Planning ν String) (Planning.freshName stem) := by
  rintro ⟨arena, steps, calls, cancelled⟩ ⟨_, steps', _, _⟩ ⟨rfl, trace, rfl, rfl⟩
  exact .ok rfl ⟨rfl, trace, rfl, rfl⟩

/-- Writing to the arena. -/
theorem write {α : Type} (table : Arena ν → Except PlanningError α) (change : Arena ν → α → Arena ν) :
    Corresponds alike Eq
      (do let session ← MonadState.get; let written ← Planning.ofExcept (table session.arena)
          MonadState.set { session with arena := change session.arena written } : Planning ν PUnit)
      (do let session ← MonadState.get; let written ← Planning.ofExcept (table session.arena)
          MonadState.set { session with arena := change session.arena written }) := by
  refine get fun session session' sessions => ?_
  rw [sessions.arena]
  exact (ofExcept_same _).bind_same fun written => set ⟨rfl, sessions.trace, sessions.leafCalls, sessions.cancelled⟩

theorem setCardinality (id : PlanId) (rows : ν) :
    Corresponds alike Eq (Planning.setCardinality id rows) (Planning.setCardinality id rows) :=
  write (fun arena => arena.cardinalities.set .cardinality id rows) fun arena table => { arena with cardinalities := table }

theorem setSolved (id : PlanId) (predicates : List Expression) :
    Corresponds alike Eq (Planning.setSolved id predicates : Planning ν Unit) (Planning.setSolved id predicates) :=
  write (fun arena => arena.solvedPredicates.set .solvedPredicates id predicates)
    fun arena table => { arena with solvedPredicates := table }

theorem setOrder (id : PlanId) (order : ProvidedOrder) :
    Corresponds alike Eq (Planning.setOrder id order : Planning ν Unit) (Planning.setOrder id order) :=
  write (fun arena => arena.providedOrders.set .providedOrder id order) fun arena table => { arena with providedOrders := table }

theorem record (phase : PlanningPhase) {description description' : String} (worded : Worded alike description description')
    (metadata : TraceMetadata ν) :
    Corresponds alike Eq (Planning.record phase description metadata) (Planning.record phase description' metadata) :=
  fun _ _ sessions => .ok rfl ⟨sessions.arena, List.rel_append sessions.trace (.cons ⟨rfl, worded, rfl, rfl⟩ .nil),
    sessions.leafCalls, sessions.cancelled⟩

theorem checkCancellation : Corresponds alike Eq (Planning.checkCancellation : Planning ν Unit) Planning.checkCancellation := by
  intro before before' sessions
  rw [checkCancellation_apply, checkCancellation_apply, sessions.cancelled]
  split
  · exact .error (.same _) sessions
  · exact .ok rfl sessions

end Corresponds

end Planning

open Planning

namespace Environment

/-- A planner to which alike type lists are the same, as far as its collaborators go. -/
structure Indifferent (environment : Environment ν) (alike : List String → List String → Prop) : Prop where
  members : SameMembers alike
  estimates : ∀ plan plan', plan.Retypes alike plan' →
    environment.estimator plan environment.statistics = environment.estimator plan' environment.statistics

variable {environment : Environment ν} (indifferent : environment.Indifferent alike)

theorem corresponds_leafCandidates (node : String) (predicates : List Expression) :
    Corresponds alike Eq (environment.leafCandidates node predicates) (environment.leafCandidates node predicates) := by
  unfold leafCandidates
  refine .get fun session session' sessions => ?_
  rw [sessions.leafCalls]
  refine (Corresponds.set ?_).bind_same fun _ => .ofExcept_same _
  exact ⟨sessions.arena, sessions.trace, rfl, congrArg (· || _) sessions.cancelled⟩

include indifferent

theorem corresponds_estimate {plan plan' : Plan} (retypes : plan.Retypes alike plan') :
    Corresponds alike Eq (environment.estimate plan) (environment.estimate plan') := by
  rw [estimate, estimate, indifferent.estimates plan plan' retypes]
  exact .ofExcept_same _

theorem corresponds_finish {operator operator' : PlanId → Plan} (retypes : ∀ id, (operator id).Retypes alike (operator' id))
    (solved : List Expression) :
    Corresponds alike (Plan.Retypes alike) (environment.finish operator solved) (environment.finish operator' solved) := by
  unfold finish
  refine Corresponds.allocate.bind_same fun id => (corresponds_estimate indifferent (retypes id)).bind_same fun estimate =>
    .get fun session session' sessions => ?_
  rw [sessions.arena, (retypes id).id, (retypes id).orderFrom]
  exact (Corresponds.setCardinality _ _).bind_same fun _ => (Corresponds.setSolved _ _).bind_same fun _ =>
    (Corresponds.setOrder _ _).bind_same fun _ => .pure (retypes id)

theorem corresponds_filter {input input' : Plan} (retypes : input.Retypes alike input') (predicates : List Expression) :
    Corresponds alike (Plan.Retypes alike) (environment.filter input predicates) (environment.filter input' predicates) :=
  .ite (.pure retypes) (corresponds_finish indifferent (fun id => .step id (.filter predicates) retypes) predicates)

/-! The plan of one repetition. -/

theorem corresponds_placeInner {plan plan' : Plan} (retypes : plan.Retypes alike plan') (scope : NameSet) (pending checks : List Expression) :
    Corresponds alike (InnerProgress.Retypes alike) (environment.placeInner ⟨plan, scope, pending⟩ checks)
      (environment.placeInner ⟨plan', scope, pending⟩ checks) :=
  (corresponds_filter indifferent retypes _).bind fun _ _ filtered => .pure ⟨filtered, rfl, rfl⟩

theorem corresponds_innerSteps (siblings : List RelationshipProducer) {earlier earlier' steps steps' : List TrailStep}
    (before : List.Forall₂ (TrailStep.Retypes alike) earlier earlier') (same : List.Forall₂ (TrailStep.Retypes alike) steps steps')
    {progress progress' : InnerProgress} (retypes : progress.Retypes alike progress') :
    Corresponds alike (InnerProgress.Retypes alike) (environment.innerSteps siblings earlier progress steps)
      (environment.innerSteps siblings earlier' progress' steps') := by
  induction same generalizing earlier earlier' progress progress' with
  | nil => exact .pure retypes
  | @cons step step' rest rest' stepped _ further =>
    have checks := stepped.uniquenessChecks indifferent.members before siblings
    have steps : List.Forall₂ (TrailStep.Retypes alike) (earlier ++ [step]) (earlier' ++ [step']) :=
      List.rel_append before (.cons stepped .nil)
    obtain ⟨relationship, hop⟩ := step
    obtain ⟨relationship', hop'⟩ := step'
    obtain ⟨rfl, ⟨types⟩⟩ := stepped
    obtain ⟨plan, scope, pending⟩ := progress
    obtain ⟨plan', _, _⟩ := progress'
    obtain ⟨retypes, rfl, rfl⟩ := retypes
    unfold innerSteps
    rw [checks]
    exact (corresponds_finish indifferent (fun id => .step id (.expand _ _ (.mk hop types)) retypes) []).bind fun _ _ expanded =>
      (corresponds_placeInner indifferent expanded _ pending _).bind fun _ _ placed => further steps placed

theorem corresponds_innerPlan {pattern pattern' : QuantifiedPattern} (same : pattern.Retypes alike pattern')
    (classification : Classification) (bound : NameSet) (innerStart : String) {steps steps' : List TrailStep}
    (stepped : List.Forall₂ (TrailStep.Retypes alike) steps steps') (siblings : List RelationshipProducer) :
    Corresponds alike (Plan.Retypes alike) (environment.innerPlan pattern classification bound innerStart steps siblings)
      (environment.innerPlan pattern' classification bound innerStart steps' siblings) := by
  have arguments : innerArguments pattern = innerArguments pattern' := by
    funext pending bound innerStart siblings
    rw [innerArguments, innerArguments, same.innerVariables]
  unfold innerPlan
  rw [arguments]
  refine (corresponds_finish indifferent (fun id => .leaf id _) []).bind fun _ _ argument =>
    (corresponds_placeInner indifferent argument _ _ []).bind fun _ _ started =>
    (corresponds_innerSteps indifferent siblings .nil stepped started).bind fun last last' final => ?_
  rw [final.scope, final.pending]
  split
  · exact .pure final.plan
  · exact .throw (.same _)

/-! Quantified patterns. -/

theorem corresponds_build {request request' : TrailRequest} (retypes : request.Retypes alike request') :
    Corresponds alike Eq (request.build : Planning ν (TrailParameters × Option Expression)) request'.build := by
  have parameters := retypes.parameters indifferent.members
  obtain ⟨⟨_⟩⟩ := retypes
  unfold TrailRequest.build
  rw [parameters]
  exact .ite (.throw (.same _)) (.ite ((Corresponds.freshName _).bind_same fun _ => .pure rfl) (.pure rfl))

theorem corresponds_varExpandCandidate {source source' : Plan} (sources : source.Retypes alike source')
    {request request' : QuantifiedRequest} (retypes : request.Retypes alike request') (classification : Classification)
    (needed bound : NameSet) (direction : TraversalDirection) :
    Corresponds alike (PlannedPattern.Retypes alike)
      (environment.varExpandCandidate source request classification needed bound direction)
      (environment.varExpandCandidate source' request' classification needed bound direction) := by
  have hop {relationship relationship' : PatternRelationship} (same : relationship.Retypes alike relationship') :=
    retypes.hop same direction
  have expansion {hop hop' : Hop} (same : hop.Retypes alike hop') := retypes.expansion environment.config same
  obtain ⟨patterns⟩ := retypes
  have quoted := Worded.pattern patterns
  obtain ⟨relationships⟩ := patterns
  unfold varExpandCandidate
  generalize request.pattern.relationships = chain at relationships
  cases relationships with
  | nil => exact .throw (.missingRelationship quoted)
  | @cons relationship relationship' _ _ same _ =>
    have hops := hop same
    obtain ⟨_⟩ := same
    simp only [QuantifiedPattern.relationshipGroup?]
    cases groupOf? request.pattern.relationshipGroupings relationship.name with
    | none => exact .throw (.same _)
    | some group =>
      have steps := expansion hops group (classification.extracted.map ExtractedPredicate.element)
        (request.prunes environment.config needed group (decide ((request.hop relationship direction).target ∈ bound)))
        (decide ((request.hop relationship direction).target ∈ bound))
      exact (corresponds_finish indifferent (fun id => .step id steps sources) _).bind fun _ _ plans =>
        (corresponds_estimate indifferent plans).bind_same fun _ => .pure ⟨plans, rfl, steps.kind, rfl, rfl, rfl⟩

theorem corresponds_trailCandidate {source source' : Plan} (sources : source.Retypes alike source')
    {request request' : QuantifiedRequest} (retypes : request.Retypes alike request') (classification : Classification)
    (needed bound : NameSet) (direction : TraversalDirection) :
    Corresponds alike (PlannedPattern.Retypes alike)
      (environment.trailCandidate source request classification needed bound direction)
      (environment.trailCandidate source' request' classification needed bound direction) := by
  obtain ⟨same⟩ := retypes
  unfold trailCandidate
  refine (corresponds_build indifferent (.mk ⟨request.pattern, direction, bound, needed, request.siblings⟩ same)).bind_same
    fun ⟨parameters, equality⟩ => ?_
  refine (corresponds_innerPlan indifferent same classification bound parameters.innerStart (same.steps direction) _).bind
    fun inner inner' inners => ?_
  refine (corresponds_finish indifferent (fun id => .trail id parameters sources inners) _).bind fun loop loop' loops => ?_
  have estimated {plan plan' : Plan} (plans : plan.Retypes alike plan') :
      Corresponds alike (PlannedPattern.Retypes alike)
        (do return ⟨plan, ← environment.estimate plan, .trail, direction, classification.solved, true⟩)
        (do return ⟨plan', ← environment.estimate plan', .trail, direction, classification.solved, true⟩) :=
    (corresponds_estimate indifferent plans).bind_same fun _ => .pure ⟨plans, rfl, rfl, rfl, rfl, rfl⟩
  cases equality with
  | none => exact estimated loops
  | some equality => exact (corresponds_filter indifferent loops [equality]).bind fun _ _ plans => estimated plans

theorem corresponds_patternCandidate {source source' : Plan} (sources : source.Retypes alike source')
    {request request' : QuantifiedRequest} (retypes : request.Retypes alike request') (direction : TraversalDirection) :
    Corresponds alike (PlannedPattern.Retypes alike) (environment.patternCandidate source request direction)
      (environment.patternCandidate source' request' direction) := by
  unfold patternCandidate
  have sorted : request.sorted source = request'.sorted source' := by
    rw [retypes.sorted, QuantifiedRequest.sorted, QuantifiedRequest.sorted, sources.available]
  have needs : request.needs source = request'.needs source' := by
    rw [retypes.needs, QuantifiedRequest.needs, QuantifiedRequest.needs, ← retypes.sorted, sorted]
  rw [sorted, needs, sources.available, retypes.collapses]
  exact .ite (corresponds_varExpandCandidate indifferent sources retypes _ _ _ _)
    (corresponds_trailCandidate indifferent sources retypes _ _ _ _)

variable [Quantity ν]

omit indifferent in
theorem corresponds_cheapestDirection {candidate candidate' : TraversalDirection → Planning ν (PlannedPattern ν)}
    (each : ∀ direction, Corresponds alike (PlannedPattern.Retypes alike) (candidate direction) (candidate' direction))
    {best best' : Option (PlannedPattern ν)} (kept : Option.Rel (PlannedPattern.Retypes alike) best best')
    {failure failure' : Option PlanningError} (failed : Option.Rel (PlanningError.Retypes alike) failure failure')
    (directions : List TraversalDirection) :
    Corresponds alike (fun found found' => Option.Rel (PlannedPattern.Retypes alike) found.1 found'.1 ∧
        Option.Rel (PlanningError.Retypes alike) found.2 found'.2)
      (cheapestDirection candidate best failure directions) (cheapestDirection candidate' best' failure' directions) := by
  induction directions generalizing best best' failure failure' with
  | nil => exact .pure ⟨kept, failed⟩
  | cons direction rest further =>
    unfold cheapestDirection
    refine (each direction).attempt.bind fun outcome outcome' answers => ?_
    cases answers with
    | ok planned => exact further (keepCheaper_retypes (fun _ _ same => same.estimate) kept planned) failed
    | error error => exact further kept (PlanningError.Retypes.first failed error)

theorem corresponds_planPattern {source source' : Plan} (sources : source.Retypes alike source') {request request' : QuantifiedRequest}
    (retypes : request.Retypes alike request') :
    Corresponds alike (PlannedPattern.Retypes alike) (environment.planPattern source request)
      (environment.planPattern source' request') := by
  have quoted : Worded alike request.pattern.render request'.pattern.render := by
    obtain ⟨patterns⟩ := retypes
    exact .pattern patterns
  rw [planPattern_eq, planPattern_eq, sources.available, retypes.directions]
  refine .ite (.throw (.unboundBoundaries quoted)) ?_
  refine (corresponds_cheapestDirection (corresponds_patternCandidate indifferent sources retypes) .none .none _).bind ?_
  rintro ⟨best, failure⟩ ⟨best', failure'⟩ ⟨kept, failed⟩
  cases kept with
  | some kept => exact .pure kept
  | none =>
    cases failed with
    | some error => exact .throw error
    | none => exact .throw (.noCandidate quoted)

end Environment

end MatchPlanner
