import MatchPlanner.Proofs.Freshness
import MatchPlanner.Proofs.Registry
import MatchPlanner.Proofs.Selections

/-! Alternatives. Candidates for the same connection are told apart by their costs alone, so they must come to the same otherwise. An
expansion and a join bind the same variables and leave the same predicates open. The two directions of a quantified pattern between bound
boundaries take over the same predicates, bind the same variables but for the ends they make up, and have the same variables in scope at
the end of a repetition, so that the same predicate, if any, cannot be placed. -/

namespace MatchPlanner

open Planning

/-! An expansion and a join. -/

namespace Ledger

variable {ledger : Ledger} {first second bound : NameSet}

theorem waiting_waiting (within : ∀ name ∈ first, name ∈ second) : (ledger.waiting first).waiting second = ledger.waiting second := by
  unfold waiting
  rw [List.filter_filter]
  refine List.filter_congr fun entry _ => ?_
  by_cases ready : entry.isReady first = true
  · have later : entry.isReady second = true :=
      NameSet.within_iff.mpr fun name reads => within name (NameSet.within_iff.mp ready name reads)
    rw [later, Bool.not_true, Bool.false_and]
  · rw [Bool.not_eq_true] at ready
    rw [ready, Bool.not_false, Bool.and_true]

/-- Solving what could be placed anyway makes no difference to what waits. -/
theorem waiting_solve {solved : List Expression} (reads : ∀ predicate ∈ solved, ∀ name ∈ predicate.dependencies, name ∈ bound) :
    (ledger.solve solved).waiting bound = ledger.waiting bound := by
  have erased (predicate : Expression) (ready : ∀ name ∈ predicate.dependencies, name ∈ bound) (entries : Ledger) :
      Ledger.waiting (List.eraseP (fun entry => entry.predicate.same predicate) entries) bound = Ledger.waiting entries bound := by
    induction entries with
    | nil => rfl
    | cons entry rest step =>
      unfold waiting at step ⊢
      cases same : entry.predicate.same predicate with
      | true =>
        have settled : entry.isReady bound = true := by
          refine NameSet.within_iff.mpr fun name read => ready name ?_
          rwa [← Expression.dependencies_of_same same]
        simp only [List.eraseP_cons, same, cond_true, List.filter_cons, settled, Bool.not_true, Bool.false_eq_true, ↓reduceIte]
      | false => simp only [List.eraseP_cons, same, cond_false, List.filter_cons, step]
  induction solved generalizing ledger with
  | nil => rfl
  | cons predicate rest further =>
    have others := @further (List.eraseP (fun entry => entry.predicate.same predicate) ledger)
      fun other member => reads other (List.mem_cons_of_mem _ member)
    exact others.trans (erased predicate (reads predicate List.mem_cons_self) ledger)

end Ledger

section

variable {ν : Type} {environment : Environment ν} {arena : Arena ν} {graph : MatchGraph} {before after : Ledger} {plan : Plan}

/-- A scan leaves open what it would leave open if it solved nothing. -/
theorem Scanned.waiting (standard : environment.StandardLeaves) {node : String} {bound : NameSet} (inside : node ∈ bound)
    (scanned : Scanned environment arena node before plan after) : after.waiting bound = before.waiting bound := by
  cases scanned with
  | @scanned call leaves leaf id offered chosen recorded placed =>
    have sound := LeafCandidate.sound_of_standard (standard _ _ _ _ offered _ chosen)
    have reads : ∀ predicate ∈ leaf.solved, ∀ name ∈ predicate.dependencies, name ∈ bound :=
      fun predicate solved name read => sound.reads predicate solved name read ▸ inside
    rw [placed.waiting, Ledger.waiting_waiting, Ledger.waiting_solve reads]
    intro name member
    rw [Plan.mem_available_leaf, sound.binds, List.mem_singleton] at member
    exact member ▸ inside

/-- What a relationship above an input binds and leaves open, however it is planned. -/
structure PatternRelationship.Traversed (relationship : PatternRelationship) (input : Plan) (before : Ledger) (plan : Plan)
    (after : Ledger) : Prop where
  available : ∀ name, name ∈ plan.available ↔
    name ∈ input.available ∨ name = relationship.left ∨ name = relationship.right ∨ name = relationship.name
  waiting : after = before.waiting plan.available

theorem Extended.traversed {index : Nat} {relationship : PatternRelationship} {input operator : Plan}
    (extended : Extended environment arena graph index input before (.relationship relationship) operator plan after) :
    relationship.Traversed input before plan after := by
  cases extended with
  | relationship recorded placed =>
    have same := placed.filtered.available
    exact ⟨fun name => by rw [same, PatternRelationship.mem_available_expandAbove], by rw [same]; exact placed.waiting⟩

theorem Added.traversed (standard : environment.StandardLeaves) {index : Nat} {relationship : PatternRelationship}
    {input operator : Plan}
    (added : Added environment arena graph index input before (.relationship relationship) operator plan after) :
    relationship.Traversed input before plan after := by
  cases added with
  | extended touches extended => exact extended.traversed
  | @joined _ near far leaf _ middle _ id joinId simple oriented nearBound farFree scanned selective placed =>
    have same := placed.filtered.available
    have ends := PatternRelationship.ends_of_orientation oriented
    have available : ∀ name, name ∈ plan.available ↔ name ∈ input.available ∨ name = relationship.left ∨
        name = relationship.right ∨ name = relationship.name := by
      intro name
      rw [same, Plan.mem_available_join, Plan.mem_available_step, scanned.mem_available standard]
      simp only [Step.binds, PatternRelationship.hop, List.mem_cons, List.not_mem_nil, or_false]
      grind
    have inside : far ∈ plan.available := (available far).mpr (by grind)
    refine ⟨available, ?_⟩
    rw [placed.waiting, ← same]
    exact scanned.waiting standard inside

theorem PatternRelationship.Traversed.alike {relationship : PatternRelationship} {input first second : Plan} {former latter : Ledger}
    (one : relationship.Traversed input before first former) (other : relationship.Traversed input before second latter) :
    first.available = second.available ∧ former = latter := by
  have same : first.available = second.available := NameSet.ext fun name => (one.available name).trans (other.available name).symm
  exact ⟨same, by rw [one.waiting, other.waiting, same]⟩

end

/-! One repetition from either side. -/

/-- In a larger scope the same is left, whether or not what was ready before was taken out. -/
theorem filter_unready {first second : NameSet} (within : ∀ name ∈ first, name ∈ second) (predicates : List Expression) :
    (predicates.filter fun predicate => !isReadyIn first predicate).filter (fun predicate => !isReadyIn second predicate) =
      predicates.filter fun predicate => !isReadyIn second predicate := by
  rw [List.filter_filter]
  refine List.filter_congr fun predicate _ => ?_
  cases ready : isReadyIn first predicate with
  | false => exact Bool.and_true _
  | true =>
    have later : isReadyIn second predicate = true :=
      NameSet.within_iff.mpr fun name reads => within name (NameSet.within_iff.mp ready name reads)
    rw [later]
    rfl

theorem InnerSteps.mem_scope {siblings : List RelationshipProducer} {earlier steps : List TrailStep} {progress last : InnerProgress}
    (stepped : InnerSteps siblings earlier progress steps last) {name : String} :
    name ∈ last.scope ↔ name ∈ progress.scope ∨ ∃ step ∈ steps, name = step.relationship ∨ name = step.hop.target := by
  induction stepped with
  | done => simp
  | step expanded _ further =>
    rw [further, expanded.scope, InnerProgress.mem_scope_expand, List.exists_mem_cons_iff]
    grind

/-- What is left at the end is what is not ready there, whatever order the steps were taken in. -/
theorem InnerSteps.pending {siblings : List RelationshipProducer} {earlier steps : List TrailStep} {progress last : InnerProgress}
    (stepped : InnerSteps siblings earlier progress steps last) (settled : progress.Settled) :
    last.pending = progress.pending.filter fun predicate => !isReadyIn last.scope predicate := by
  induction stepped with
  | done =>
    refine (List.filter_eq_self.mpr fun predicate member => ?_).symm
    rw [settled predicate member]
    rfl
  | @step earlier rest step progress placed last id expanded others further =>
    rw [further expanded.settled.1, expanded.pending]
    exact filter_unready (fun name inside => others.mem_scope.mpr (.inl (expanded.scope ▸ inside))) _

section

variable {pattern : QuantifiedPattern} {direction : TraversalDirection} {bound : NameSet} {siblings : List RelationshipProducer}
  {pending : List Expression} {id : PlanId} {started last : InnerProgress}

/-- At the end of a repetition everything given to it and everything that it binds is in scope. -/
theorem InnerSteps.mem_scope_end (formed : pattern.WellFormed)
    (begun : InnerPlaced
      (.initial id (Environment.innerArguments pattern pending bound (pattern.near direction).inner siblings) pending) [] started)
    (stepped : InnerSteps siblings [] started (pattern.steps direction) last) {name : String} :
    name ∈ last.scope ↔ name ∈ Environment.innerArguments pattern pending bound (pattern.near direction).inner siblings ∨
      name ∈ pattern.innerVariables := by
  have near : (pattern.near direction).inner ∈
      Environment.innerArguments pattern pending bound (pattern.near direction).inner siblings := Environment.mem_innerArguments.mpr (.inl rfl)
  have initial : (InnerProgress.initial id _ pending).Sound _ [] _ := .initial near
  have above := initial.place begun fun _ impossible => absurd impossible List.not_mem_nil
  have sound := stepped.sound (formed.walk direction) above fun sibling member =>
    Environment.mem_innerArguments.mpr (.inr (.inr ⟨sibling, member, rfl⟩))
  rw [List.nil_append] at sound
  constructor
  · intro inside
    rcases stepped.mem_scope.mp inside with early | ⟨step, taken, rfl | rfl⟩
    · rw [begun.scope] at early
      exact .inl early
    · exact .inr (formed.step_inner taken).1
    · exact .inr (formed.step_inner taken).2
  · rintro (given | inner)
    · exact sound.given name given
    · obtain ⟨nodes, relationships⟩ := sound.members near
      exact (sound.scope name).mpr ((QuantifiedPattern.mem_innerVariables.mp inner).elim (nodes name) (relationships name))

/-- What is left at the end of a repetition is what is not ready there. -/
theorem InnerSteps.left {arguments : NameSet} {steps : List TrailStep} (begun : InnerPlaced (.initial id arguments pending) [] started)
    (stepped : InnerSteps siblings [] started steps last) :
    last.pending = pending.filter fun predicate => !isReadyIn last.scope predicate := by
  rw [stepped.pending begun.settled.1, begun.pending]
  exact filter_unready (fun name member => stepped.mem_scope.mpr (.inl (begun.scope ▸ member))) _

end

namespace QuantifiedRequest

variable (request : QuantifiedRequest) (source : Plan)

/-- Between bound boundaries either direction is possible. -/
theorem mem_directions (left : request.pattern.left.outer ∈ source.available) (right : request.pattern.right.outer ∈ source.available)
    (direction : TraversalDirection) : direction ∈ request.directions source.available := by
  unfold directions
  rw [if_pos left, if_pos right]
  cases direction <;> decide

/-- What a repetition is given when it starts from a side. -/
def given (direction : TraversalDirection) (finish : String) : NameSet :=
  Environment.innerArguments request.pattern (request.sorted source).innerPredicates source.available
    (request.pattern.near direction).inner (request.checked source direction finish)

/-- What is in scope at the end of a repetition, from whichever side it starts. -/
def innerScope : NameSet := request.given source .forward "" ∪ request.pattern.innerVariables

/-- The failure of a repetition, when one of its predicates cannot be placed. -/
def obstacle? : Option PlanningError :=
  ((request.sorted source).innerPredicates.find? fun predicate => !isReadyIn (request.innerScope source) predicate).map fun predicate =>
    .unsolvablePredicate predicate (missingFrom (request.innerScope source) predicate)

variable {request source} {direction : TraversalDirection} {finish : String}

/-- Besides its first node a repetition is given the same from either side. -/
theorem mem_given {name : String} : name ∈ request.given source direction finish ↔ name = (request.pattern.near direction).inner ∨
    (name ∈ Expression.dependenciesOf (request.sorted source).innerPredicates ∧ name ∉ request.pattern.innerVariables ∧
      name ∈ source.available) ∨ ∃ sibling ∈ request.checked source .forward "", name = sibling.name :=
  Environment.mem_innerArguments

theorem scope_eq (formed : request.pattern.WellFormed) {id : PlanId} {started last : InnerProgress}
    (begun : InnerPlaced (.initial id (request.given source direction finish) (request.sorted source).innerPredicates) [] started)
    (stepped : InnerSteps (request.checked source direction finish) [] started (request.pattern.steps direction) last) :
    last.scope = request.innerScope source := by
  refine NameSet.ext fun name => ?_
  refine (stepped.mem_scope_end formed begun).trans ?_
  rw [innerScope, NameSet.mem_union]
  change name ∈ request.given source direction finish ∨ _ ↔ _
  rw [mem_given, mem_given]
  constructor
  · rintro ((rfl | others) | inner)
    exacts [.inr (formed.near_inner direction), .inl (.inr others), .inr inner]
  · rintro ((rfl | others) | inner)
    exacts [.inr (formed.near_inner .forward), .inl (.inr others), .inr inner]

/-- The first predicate left at the end of a repetition is the obstacle. -/
theorem obstacle_eq (formed : request.pattern.WellFormed) {id : PlanId} {started last : InnerProgress}
    (begun : InnerPlaced (.initial id (request.given source direction finish) (request.sorted source).innerPredicates) [] started)
    (stepped : InnerSteps (request.checked source direction finish) [] started (request.pattern.steps direction) last) :
    request.obstacle? source = last.pending.head?.map fun predicate =>
      .unsolvablePredicate predicate (missingFrom last.scope predicate) := by
  rw [obstacle?, stepped.left begun, List.head?_filter, scope_eq formed begun stepped]

end QuantifiedRequest

/-! The candidates of both directions. -/

namespace Environment

variable {ν : Type} {environment : Environment ν} {faults : PlanningError → Prop} {source : Plan} {request : QuantifiedRequest}
  {direction : TraversalDirection}

/-- Put up with the obstacle, and a repetition is planned only if there is none. -/
theorem Dependable.decides (dependable : environment.Dependable faults) (formed : request.pattern.WellFormed)
    (obstacle : ∀ error, request.obstacle? source = some error → faults error) (finish : String) :
    Completes faults (environment.innerPlan request.pattern (request.sorted source) source.available
      (request.pattern.near direction).inner (request.pattern.steps direction) (request.checked source direction finish))
      fun _ => request.obstacle? source = none := by
  unfold Environment.innerPlan
  refine ((dependable.finish _ _ fun _ => rfl).known fun final => environment.yields_finish _ _ fun _ => rfl).bind ?_
  rintro argument ⟨-, final, id, rfl, -⟩
  refine ((dependable.placeInner _ _).known fun final => environment.yields_placeInner _ _).bind ?_
  rintro started ⟨-, _, begun⟩
  refine ((dependable.innerSteps _ _ _ _).known fun final => environment.yields_innerSteps _ _ _ _).bind ?_
  rintro last ⟨-, _, stepped⟩
  have same := QuantifiedRequest.obstacle_eq formed begun stepped
  cases pending : last.pending with
  | nil =>
    rw [pending] at same
    exact completes_pure same
  | cons unsolved others =>
    rw [pending] at same
    exact completes_throw (obstacle _ same)

theorem Dependable.candidate_decides (dependable : environment.Dependable faults) (formed : request.pattern.WellFormed)
    (possible : direction ∈ request.directions source.available)
    (obstacle : ∀ error, request.collapses environment.config (request.sorted source) (request.needs source) = false →
      request.obstacle? source = some error → faults error) :
    Completes faults (environment.patternCandidate source request direction) fun _ =>
      request.collapses environment.config (request.sorted source) (request.needs source) = false → request.obstacle? source = none := by
  unfold patternCandidate
  split
  next collapses =>
    exact (dependable.varExpandCandidate source formed _ _ _ direction).weaken fun _ _ kept => by
      rw [collapses] at kept
      cases kept
  next kept =>
    rw [Bool.not_eq_true] at kept
    unfold Environment.trailCandidate
    refine (TrailRequest.completes_build _ (request.near_bound possible)).bind ?_
    rintro ⟨_, equality⟩ ⟨finish, rfl⟩
    refine (dependable.decides formed (obstacle · kept) finish).bind fun inner free => (dependable.finish _ _ fun _ => rfl).bind
      fun trail _ => ?_
    cases equality with
    | none => exact (dependable.estimate trail).bind fun _ _ => completes_pure fun _ => free
    | some equality =>
      exact (dependable.filter _ _).bind fun plan _ => (dependable.estimate plan).bind fun _ _ => completes_pure fun _ => free

/-- A direction fails through the estimator or at the obstacle; nobody who cancels planning has a say in it. -/
theorem patternCandidate_ends (leaves : ∀ call node predicates, environment.leafPlanner call node predicates environment.statistics =
      .ok (LeafCandidate.standard node predicates environment.statistics)) (formed : request.pattern.WellFormed)
    (possible : direction ∈ request.directions source.available) {before : Session ν} (tidy : before.arena.Tidy) :
    let kept := request.collapses environment.config (request.sorted source) (request.needs source) = false
    (∃ planned after, environment.patternCandidate source request direction before = .ok planned after ∧
      (kept → request.obstacle? source = none)) ∨
    ∃ error after, environment.patternCandidate source request direction before = .error error after ∧
      ((∃ plan, environment.estimator plan environment.statistics = .error error) ∨
        kept ∧ request.obstacle? source = some error) := by
  intro kept
  have dependable : environment.undisturbed.Dependable fun error =>
      (∃ plan, environment.estimator plan environment.statistics = .error error) ∨ kept ∧ request.obstacle? source = some error :=
    { estimates := fun plan _ failed => .inl ⟨plan, failed⟩
      leaves := leaves
      cancels := fun _ requested => by cases requested }
  have ends := dependable.candidate_decides formed possible (fun _ kept same => .inr ⟨kept, same⟩) before.undisturbed
    ⟨fun id later => (tidy id later).cardinality, fun id later => (tidy id later).solved, fun id later => (tidy id later).order,
      fun requested => by cases requested⟩
  have agrees : Agrees False (environment.patternCandidate source request direction)
      (environment.undisturbed.patternCandidate source request direction) := (mirrors_patternCandidate source request direction).agrees
  rw [(agrees before).resolve_left And.left] at ends
  cases ran : environment.patternCandidate source request direction before with
  | ok planned after =>
    rw [ran] at ends
    exact .inl ⟨planned, after, rfl, ends.2⟩
  | error error after =>
    rw [ran] at ends
    exact .inr ⟨error, after, rfl, ends.2⟩

end Environment

/-- Between bound boundaries a loop ends in a name that it makes up. -/
theorem TrailRequest.build_closed {ν : Type} (request : TrailRequest) (near : request.near.outer ∈ request.bound)
    (far : request.far.outer ∈ request.bound) (before : Session ν) : ∃ after : Session ν,
    request.build before = .ok (request.parameters (trailEnd before.arena.freshNames),
      some (.equals (.reference (trailEnd before.arena.freshNames)) (.reference request.far.outer))) after := by
  unfold build
  rw [if_neg (not_not.mpr near), if_pos far]
  exact ⟨_, rfl⟩

/-- The groups that a loop binds, whichever side it starts from. -/
def QuantifiedRequest.boundGroups (request : QuantifiedRequest) (source : Plan) : List String :=
  ((request.trail source .forward).parameters "").groups

namespace Environment

variable {ν : Type} {environment : Environment ν} {source : Plan} {request : QuantifiedRequest} {direction : TraversalDirection}
  {before after : Session ν} {planned : PlannedPattern ν}

theorem trailCandidate_ok (near : (request.pattern.near direction).outer ∈ source.available)
    (far : (request.pattern.far direction).outer ∈ source.available)
    (ran : environment.trailCandidate source request (request.sorted source) (request.needs source) source.available direction before =
      .ok planned after) :
    planned.solvedOuter = (request.sorted source).solved ∧ planned.dischargedSiblings = true ∧
      planned.plan.available = (source.available.insertAll (request.boundGroups source)).insert (trailEnd before.arena.freshNames) := by
  obtain ⟨started, built⟩ := TrailRequest.build_closed (request.trail source direction) near far before
  obtain ⟨_, _, ends, ran⟩ := bind_eq_ok ran
  cases built.symm.trans ends
  obtain ⟨inner, _, -, ran⟩ := bind_eq_ok ran
  obtain ⟨loop, _, finished, ran⟩ := bind_eq_ok ran
  obtain ⟨plan, _, placed, ran⟩ := bind_eq_ok ran
  obtain ⟨estimate, _, -, ran⟩ := bind_eq_ok ran
  cases ran
  obtain ⟨id, rfl, -⟩ := (environment.yields_finish _ _ fun _ => rfl).result finished
  have above := (environment.yields_filter _ _).result placed
  refine ⟨rfl, rfl, NameSet.ext fun name => ?_⟩
  rw [above.available, Plan.mem_available_trail, NameSet.mem_insert, NameSet.mem_insertAll, or_left_comm]
  rfl

/-- Between bound boundaries nothing is pruned, so a collapsed pattern binds its group. -/
theorem varExpandCandidate_ok (near : (request.pattern.near direction).outer ∈ source.available)
    (far : (request.pattern.far direction).outer ∈ source.available)
    (ran : environment.varExpandCandidate source request (request.sorted source) (request.needs source) source.available direction
      before = .ok planned after) :
    planned.solvedOuter = (request.sorted source).solved ∧ planned.dischargedSiblings = false ∧
      ∀ name, name ∈ planned.plan.available ↔ name ∈ source.available ∨
        ∃ relationship, request.pattern.relationships.head? = some relationship ∧
          request.pattern.relationshipGroup? relationship.name = some name := by
  unfold varExpandCandidate at ran
  cases relationships : request.pattern.relationships with
  | nil =>
    rw [relationships] at ran
    cases ran
  | cons relationship others =>
    rw [relationships] at ran
    cases grouped : request.pattern.relationshipGroup? relationship.name with
    | none =>
      simp only [grouped] at ran
      cases ran
    | some group =>
      simp only [grouped] at ran
      obtain ⟨plan, _, finished, ran⟩ := bind_eq_ok ran
      obtain ⟨estimate, _, -, ran⟩ := bind_eq_ok ran
      cases ran
      obtain ⟨id, rfl, -⟩ := (environment.yields_finish _ _ fun _ => rfl).result finished
      have farBound : decide ((request.hop relationship direction).target ∈ source.available) = true := decide_eq_true far
      have full (predicates : List VariablePredicate) : request.expansion environment.config (request.hop relationship direction) group
          predicates (request.prunes environment.config (request.needs source) group true) true =
            .varLengthExpand (request.hop relationship direction) group request.pattern.repetition [] predicates .into := by
        rcases request.expansion_cases environment.config (request.hop relationship direction) group predicates
          (request.prunes environment.config (request.needs source) group true) true with full | ⟨pruned, -⟩
        · exact full
        · simp only [QuantifiedRequest.prunes, Bool.not_true, Bool.and_false, Bool.false_eq_true] at pruned
      refine ⟨rfl, rfl, fun name => ?_⟩
      simp only [farBound]
      rw [Plan.mem_available_step, full]
      have begins : (request.hop relationship direction).source ∈ source.available := near
      have finishes : (request.hop relationship direction).target ∈ source.available := far
      simp only [Step.binds, List.mem_cons, List.not_mem_nil, or_false, List.head?_cons, Option.some.injEq, exists_eq_left', grouped]
      grind

/-- The candidates of both directions come to the same. -/
theorem patternCandidate_alike (left : request.pattern.left.outer ∈ source.available)
    (right : request.pattern.right.outer ∈ source.available) {start finish : Session ν} {former latter : PlannedPattern ν}
    {first second : TraversalDirection}
    (one : environment.patternCandidate source request first before = .ok former after)
    (other : environment.patternCandidate source request second start = .ok latter finish) :
    former.solvedOuter = latter.solvedOuter ∧ former.dischargedSiblings = latter.dischargedSiblings ∧
      (former.plan.available = latter.plan.available ∨ ∃ common : NameSet,
        former.plan.available = common.insert (trailEnd before.arena.freshNames) ∧
        latter.plan.available = common.insert (trailEnd start.arena.freshNames)) := by
  have bound (direction : TraversalDirection) : (request.pattern.near direction).outer ∈ source.available ∧
      (request.pattern.far direction).outer ∈ source.available := by
    cases direction with
    | forward => exact ⟨left, right⟩
    | reversed => exact ⟨right, left⟩
  unfold patternCandidate at one other
  split at one
  next collapses =>
    rw [if_pos collapses] at other
    obtain ⟨solved, discharged, available⟩ := varExpandCandidate_ok (bound first).1 (bound first).2 one
    obtain ⟨solvedToo, dischargedToo, availableToo⟩ := varExpandCandidate_ok (bound second).1 (bound second).2 other
    exact ⟨solved.trans solvedToo.symm, discharged.trans dischargedToo.symm,
      .inl (NameSet.ext fun name => (available name).trans (availableToo name).symm)⟩
  next kept =>
    rw [if_neg kept] at other
    obtain ⟨solved, discharged, available⟩ := trailCandidate_ok (bound first).1 (bound first).2 one
    obtain ⟨solvedToo, dischargedToo, availableToo⟩ := trailCandidate_ok (bound second).1 (bound second).2 other
    exact ⟨solved.trans solvedToo.symm, discharged.trans dischargedToo.symm, .inr ⟨_, available, availableToo⟩⟩

/-- Where one direction comes upon a predicate that cannot be placed, the other comes upon it as well, unless the estimator refuses an
operator on the way there. -/
theorem patternCandidate_unsolvable (leaves : ∀ call node predicates,
      environment.leafPlanner call node predicates environment.statistics =
        .ok (LeafCandidate.standard node predicates environment.statistics)) (formed : request.pattern.WellFormed)
    {start : Session ν} {first second : TraversalDirection} (possible : first ∈ request.directions source.available)
    (possibleToo : second ∈ request.directions source.available) (tidy : before.arena.Tidy) (tidyToo : start.arena.Tidy)
    {error : PlanningError} (failed : environment.patternCandidate source request first before = .error error after)
    (stranger : ∀ plan, environment.estimator plan environment.statistics ≠ .error error) :
    ∃ other finish, environment.patternCandidate source request second start = .error other finish ∧
      (other = error ∨ ∃ plan, environment.estimator plan environment.statistics = .error other) := by
  obtain ⟨kept, obstacle⟩ : request.collapses environment.config (request.sorted source) (request.needs source) = false ∧
      request.obstacle? source = some error := by
    rcases patternCandidate_ends leaves formed possible tidy with ⟨planned, late, ran, -⟩ | ⟨fault, late, ran, cause⟩
    · cases ran.symm.trans failed
    · cases ran.symm.trans failed
      exact cause.resolve_left fun ⟨plan, refused⟩ => stranger plan refused
  rcases patternCandidate_ends leaves formed possibleToo tidyToo with
    ⟨planned, late, -, free⟩ | ⟨fault, late, ran, refused | cause⟩
  · rw [free kept] at obstacle
    cases obstacle
  · exact ⟨fault, late, ran, .inr refused⟩
  · exact ⟨fault, late, ran, .inl (Option.some.inj (cause.2.symm.trans obstacle))⟩

variable [Quantity ν]

/-- Candidates that compete for a connection come to the same. An expansion and a join bind the same variables and leave the same
predicates open. For a quantified pattern between bound boundaries the candidates of both directions take over the same predicates, both
or neither take over the checks against the siblings, and they bind the same variables but for the ends that loops make up. When one
direction fails since a predicate cannot be placed, so does the other, unless the estimator fails first; for this the arena must have no
records yet under the ids that the candidates get, which is how every run leaves it. -/
theorem candidates_agree (leaves : ∀ call node predicates, environment.leafPlanner call node predicates environment.statistics =
    .ok (LeafCandidate.standard node predicates environment.statistics)) :
    (∀ graph index relationship plan ledger (before after start finish : Session ν) expanded joined,
      environment.expand graph index (.relationship relationship) plan ledger before = .ok expanded after →
      environment.hashJoinCandidate index relationship plan ledger start = .ok (some joined) finish →
      expanded.plan.available = joined.plan.available ∧ expanded.remaining = joined.remaining) ∧
    ∀ source (request : QuantifiedRequest), (∃ draft : QuantifiedDraft, draft.build = .ok request.pattern) →
      request.pattern.left.outer ∈ source.available → request.pattern.right.outer ∈ source.available →
      (∀ (before after start finish : Session ν) forward reversed,
        environment.patternCandidate source request .forward before = .ok forward after →
        environment.patternCandidate source request .reversed start = .ok reversed finish →
        forward.solvedOuter = reversed.solvedOuter ∧ forward.dischargedSiblings = reversed.dischargedSiblings ∧
          (forward.plan.available = reversed.plan.available ∨ ∃ common : NameSet,
            forward.plan.available = common.insert (trailEnd before.arena.freshNames) ∧
            reversed.plan.available = common.insert (trailEnd start.arena.freshNames))) ∧
      ∀ first second (before after start : Session ν) predicate missing, before.arena.Tidy → start.arena.Tidy →
        environment.patternCandidate source request first before = .error (.unsolvablePredicate predicate missing) after →
        (∀ plan, environment.estimator plan environment.statistics ≠ .error (.unsolvablePredicate predicate missing)) →
        ∃ error finish, environment.patternCandidate source request second start = .error error finish ∧
          (error = .unsolvablePredicate predicate missing ∨
            ∃ plan, environment.estimator plan environment.statistics = .error error) := by
  have standard : environment.StandardLeaves := by
    intro call node predicates offered same leaf member
    rw [leaves, Except.ok.injEq] at same
    exact same ▸ member
  refine ⟨fun graph index relationship plan ledger before after start finish expanded joined one other => ?_,
    fun source request ⟨draft, built⟩ left right => ⟨fun before after start finish forward reversed one other =>
      patternCandidate_alike left right one other,
      fun first second before after start predicate missing tidy tidyToo failed stranger => ?_⟩⟩
  · obtain ⟨-, _, extended⟩ := (environment.yields_expand graph index (.relationship relationship) plan ledger).result one
    obtain ⟨_, added⟩ := (environment.yields_hashJoinCandidate graph index relationship plan ledger).result other joined rfl
    exact extended.traversed.alike (added.traversed standard)
  · exact patternCandidate_unsolvable leaves (QuantifiedDraft.build_ok built) (request.mem_directions source left right first)
      (request.mem_directions source left right second) tidy tidyToo failed stranger

end Environment

/-! Both directions above an argument. -/

/-- A draft between nodes that are given, of which nobody else speaks. -/
def QuantifiedDraft.request (draft : QuantifiedDraft) : QuantifiedRequest := ⟨draft.pattern, [], ∅, [], ∅, false⟩

namespace Planning

variable {ν β : Type} {outcome : EStateM.Result PlanningError (Session ν) β}

/-- The session that a run leaves. -/
def final : EStateM.Result PlanningError (Session ν) β → Session ν
  | .ok _ after => after
  | .error _ after => after

def returned? : EStateM.Result PlanningError (Session ν) β → Option β
  | .ok value _ => some value
  | .error _ _ => none

def raised? : EStateM.Result PlanningError (Session ν) β → Option PlanningError
  | .ok _ _ => none
  | .error error _ => some error

theorem ok_of_returned? {value : β} (returned : returned? outcome = some value) : outcome = .ok value (final outcome) := by
  cases outcome with
  | ok result after => rw [Option.some.inj returned]; rfl
  | error error after => cases returned

theorem error_of_raised? {error : PlanningError} (raised : raised? outcome = some error) : outcome = .error error (final outcome) := by
  cases outcome with
  | ok result after => cases raised
  | error other after => rw [Option.some.inj raised]; rfl

end Planning

namespace Environment

variable {ν : Type} {environment : Environment ν} {draft : QuantifiedDraft}

/-- Whether a draft, planned forward and then reversed above an argument that binds its boundaries, ends as it should. -/
def bothWays (environment : Environment ν) (draft : QuantifiedDraft)
    (judges : EStateM.Result PlanningError (Session ν) (PlannedPattern ν) →
      EStateM.Result PlanningError (Session ν) (PlannedPattern ν) → Bool) : Bool :=
  let started := environment.finish (.leaf · (.argument [draft.left.outer, draft.right.outer])) [] (.initial false)
  (returned? started).any fun source =>
    let forward := environment.patternCandidate source draft.request .forward (final started)
    judges forward (environment.patternCandidate source draft.request .reversed (final forward))

theorem bothWays_found {judges} (judged : environment.bothWays draft judges = true) : ∃ source started,
    environment.finish (.leaf · (.argument [draft.left.outer, draft.right.outer])) [] (.initial false) = .ok source started ∧
      (draft.left.outer ∈ source.available ∧ draft.right.outer ∈ source.available) ∧
      judges (environment.patternCandidate source draft.request .forward started) (environment.patternCandidate source draft.request
        .reversed (final (environment.patternCandidate source draft.request .forward started))) = true := by
  obtain ⟨source, returned, judged⟩ := (Option.any_eq_true ..).mp judged
  have ran := ok_of_returned? returned
  obtain ⟨id, rfl, -⟩ := (environment.yields_finish _ _ fun _ => rfl).result ran
  refine ⟨_, _, ran, ?_, judged⟩
  simp only [Plan.mem_available_leaf, Leaf.binds, List.mem_cons, true_or, or_true, and_self]

end Environment

/-! A node that is given, a relationship that leads away from it, and a predicate on its other end. -/

def Plan.hub : Plan := .leaf ⟨0⟩ (.argument ["a"])

def PatternRelationship.spoke : PatternRelationship := ⟨"q", "a", "b", .outgoing, [], .simple⟩

def Ledger.rim : Ledger := [⟨0, .equals (.property "b" "x") (.literal (.integer 1)), none⟩]

/-- A loop with a predicate on either node; the second one reads a variable that nobody binds. -/
def QuantifiedDraft.stray : QuantifiedDraft where
  left := ⟨"a", "n"⟩
  right := ⟨"b", "m"⟩
  relationships := [⟨"r", "n", "m", .outgoing, [], .simple⟩]
  repetition := .oneOrMore
  nodeGroupings := []
  relationshipGroupings := [⟨"r", "r"⟩]
  selections := [.equals (.property "n" "x") (.literal (.integer 1)), .equals (.property "m" "x") (.reference "zz")]
  groupByName := false

namespace Environment

/-- A planner that counts operators finds an expansion and a join that agree, and two directions that agree, in success and in failure. -/
theorem counting_agrees :
    (∃ expanded after joined finish,
      counting.expand (MatchGraph.parallel "g") 0 (.relationship .spoke) .hub .rim (.initial false) = .ok expanded after ∧
      counting.hashJoinCandidate 0 .spoke .hub .rim (.initial false) = .ok (some joined) finish ∧
      expanded.plan.available = joined.plan.available ∧ expanded.remaining = joined.remaining) ∧
    (∃ source started forward between reversed finish,
      counting.patternCandidate source QuantifiedDraft.short.request .forward started = .ok forward between ∧
      counting.patternCandidate source QuantifiedDraft.short.request .reversed between = .ok reversed finish ∧
      forward.solvedOuter = reversed.solvedOuter ∧ forward.dischargedSiblings = reversed.dischargedSiblings) ∧
    ∃ source started predicate missing between finish,
      counting.patternCandidate source QuantifiedDraft.stray.request .forward started =
        .error (.unsolvablePredicate predicate missing) between ∧
      counting.patternCandidate source QuantifiedDraft.stray.request .reversed started =
        .error (.unsolvablePredicate predicate missing) finish := by
  obtain ⟨growths, directions⟩ := candidates_agree (fun call node predicates => show counting.leafPlanner call node predicates
    counting.statistics = _ from rfl)
  refine ⟨?_, ?_, ?_⟩
  · have grows : (returned? (counting.expand (MatchGraph.parallel "g") 0 (.relationship .spoke) .hub .rim (.initial false))).isSome =
        true := by decide +kernel
    have joins : (returned? (counting.hashJoinCandidate 0 .spoke .hub .rim (.initial false))).join.isSome = true := by decide +kernel
    obtain ⟨expanded, returned⟩ := Option.isSome_iff_exists.mp grows
    obtain ⟨joined, both⟩ := Option.isSome_iff_exists.mp joins
    have grown := ok_of_returned? returned
    have met := ok_of_returned? (Option.join_eq_some_iff.mp both)
    exact ⟨expanded, _, joined, _, grown, met, growths _ _ _ _ _ _ _ _ _ _ _ grown met⟩
  · have both : counting.bothWays .short (fun forward reversed => (returned? forward).isSome && (returned? reversed).isSome) = true := by
      decide +kernel
    obtain ⟨source, started, -, ⟨left, right⟩, judged⟩ := bothWays_found both
    rw [Bool.and_eq_true, Option.isSome_iff_exists, Option.isSome_iff_exists] at judged
    obtain ⟨⟨forward, first⟩, reversed, second⟩ := judged
    have one := ok_of_returned? first
    have other := ok_of_returned? second
    have alike := (directions source QuantifiedDraft.short.request ⟨.short, rfl⟩ left right).1 _ _ _ _ _ _ one other
    exact ⟨source, started, forward, _, reversed, _, one, other, alike.1, alike.2.1⟩
  · have neither : counting.bothWays .stray (fun forward _ => (raised? forward).any PlanningError.isCandidateLocal) = true := by
      decide +kernel
    obtain ⟨source, started, ran, ⟨left, right⟩, judged⟩ := bothWays_found neither
    obtain ⟨error, raised, passed⟩ := (Option.any_eq_true ..).mp judged
    obtain ⟨predicate, missing, rfl⟩ := PlanningError.unsolvable_of_isCandidateLocal passed
    have failed := error_of_raised? raised
    have tidy : started.arena.Tidy := by
      have accounted := keeps_finish (.leaf · (.argument [QuantifiedDraft.stray.left.outer, QuantifiedDraft.stray.right.outer])) []
        (fun _ => rfl) (.initial false) (Environment.Accounts.initial : counting.Accounts _)
      rw [ran] at accounted
      exact accounted.vacant
    obtain ⟨error, finish, also, same | ⟨plan, refused⟩⟩ := (directions source QuantifiedDraft.stray.request ⟨.stray, rfl⟩ left right).2
      .forward .reversed started _ started predicate missing tidy tidy failed fun plan refused => by cases refused
    · exact ⟨source, started, predicate, missing, _, finish, failed, same ▸ also⟩
    · cases refused

/-- A planner whose statistics count ten nodes and as many relationships. An expansion takes off from the cost of its input. -/
def rebating : Environment Rat := { standard .standard (Statistics.counts 10 0) with
  estimator plan statistics := { CostModel.standard with expandPerRow := -1, cpuPerRow := 1 : CostModel Rat }.estimate statistics plan }

/-- Forward, the second predicate is found impossible once the loop's body is planned. Reversed, that body cannot be planned: there the
expansion comes before any filter has cost anything, and the estimator refuses a cost below zero. -/
theorem stray_parted : (∃ draft : QuantifiedDraft, draft.build = .ok QuantifiedDraft.stray.request.pattern) ∧ ∃ source started,
    rebating.finish (.leaf · (.argument ["a", "b"])) [] (.initial false) = .ok source started ∧
      (QuantifiedDraft.stray.left.outer ∈ source.available ∧ QuantifiedDraft.stray.right.outer ∈ source.available) ∧
      ∃ predicate missing between,
        rebating.patternCandidate source QuantifiedDraft.stray.request .forward started =
          .error (.unsolvablePredicate predicate missing) between ∧
        ¬∃ other absent after, rebating.patternCandidate source QuantifiedDraft.stray.request .reversed between =
          .error (.unsolvablePredicate other absent) after := by
  have parted : rebating.bothWays .stray (fun forward reversed =>
      (raised? forward).any PlanningError.isCandidateLocal && (raised? reversed).any fun error => !error.isCandidateLocal) = true := by
    decide +kernel
  obtain ⟨source, started, ran, bound, judged⟩ := bothWays_found parted
  rw [Bool.and_eq_true, Option.any_eq_true, Option.any_eq_true] at judged
  obtain ⟨⟨error, first, passed⟩, other, second, fatal⟩ := judged
  obtain ⟨predicate, missing, rfl⟩ := PlanningError.unsolvable_of_isCandidateLocal passed
  refine ⟨⟨.stray, rfl⟩, source, started, ran, bound, predicate, missing, _, error_of_raised? first, ?_⟩
  rintro ⟨reason, absent, after, unsolvable⟩
  rw [unsolvable] at second
  cases second
  cases fatal

end Environment

end MatchPlanner
