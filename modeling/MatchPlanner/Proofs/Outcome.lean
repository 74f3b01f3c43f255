import MatchPlanner.Planning.Session

/-! What is known of the value an action returns. An arena only grows, so a record made on the way still stands in every later
state; a statement about a value may therefore speak of the records of the state in which the whole run ends. -/

namespace MatchPlanner

def AttributeTable.Grows {α : Type} (before after : AttributeTable α) : Prop :=
  ∀ id value, before.get? id = some value → after.get? id = some value

namespace AttributeTable

variable {α : Type}

theorem Grows.refl (table : AttributeTable α) : table.Grows table := fun _ _ found => found

theorem Grows.trans {first second third : AttributeTable α} (former : first.Grows second) (latter : second.Grows third) :
    first.Grows third := fun id value found => latter id value (former id value found)

theorem set_ok {table after : AttributeTable α} {kind : AttributeKind} {id : PlanId} {value : α}
    (written : table.set kind id value = .ok after) : table.Grows after ∧ after.get? id = some value := by
  unfold set at written
  split at written
  · cases written
  next unset =>
    cases written
    have absent : table.entries.lookup id = none := by
      simpa only [isSet, get?, Bool.not_eq_true, Option.isSome_eq_false_iff, Option.isNone_iff_eq_none] using unset
    refine ⟨?_, by simp [get?]⟩
    intro other kept found
    have different : (other == id) = false := by
      apply Bool.eq_false_iff.mpr
      intro same
      rw [get?, beq_iff_eq.mp same, absent] at found
      cases found
    simpa only [get?, List.lookup_cons, different] using found

end AttributeTable

variable {ν : Type}

/-- What was allocated and recorded before stays allocated and recorded. -/
structure Session.Grows (before after : Session ν) : Prop where
  allocated : before.arena.allocated ≤ after.arena.allocated
  freshNames : before.arena.freshNames ≤ after.arena.freshNames
  cardinalities : before.arena.cardinalities.Grows after.arena.cardinalities
  solvedPredicates : before.arena.solvedPredicates.Grows after.arena.solvedPredicates
  providedOrders : before.arena.providedOrders.Grows after.arena.providedOrders

namespace Session

theorem Grows.refl (session : Session ν) : session.Grows session :=
  ⟨Nat.le_refl _, Nat.le_refl _, .refl _, .refl _, .refl _⟩

theorem Grows.trans {first second third : Session ν} (former : first.Grows second) (latter : second.Grows third) :
    first.Grows third where
  allocated := Nat.le_trans former.allocated latter.allocated
  freshNames := Nat.le_trans former.freshNames latter.freshNames
  cardinalities := former.cardinalities.trans latter.cardinalities
  solvedPredicates := former.solvedPredicates.trans latter.solvedPredicates
  providedOrders := former.providedOrders.trans latter.providedOrders

end Session

namespace Planning

variable {β γ : Type}

/-- The records have grown, and a value returned on the way to the state `final` is as stated. -/
def Outcome (final before : Session ν) (post : β → Prop) : EStateM.Result PlanningError (Session ν) β → Prop
  | .ok value after => before.Grows after ∧ (after.Grows final → post value)
  | .error _ after => before.Grows after

/-- What is said of an action holds from whatever state it starts. -/
def Yields (final : Session ν) (action : Planning ν β) (post : β → Prop) : Prop :=
  ∀ before, Outcome final before post (action before)

variable {final : Session ν}

/-- A successful run that ends in `final` itself. -/
theorem Yields.result {action : Planning ν β} {post : β → Prop} {before : Session ν} {value : β}
    (valid : Yields final action post) (ran : action before = .ok value final) : post value := by
  have outcome := valid before
  rw [ran] at outcome
  exact outcome.2 (.refl final)

theorem Yields.weaken {action : Planning ν β} {post weaker : β → Prop} (valid : Yields final action post)
    (implies : ∀ value, post value → weaker value) : Yields final action weaker := by
  intro before
  have outcome := valid before
  cases ran : action before with
  | ok value after =>
    rw [ran] at outcome
    exact ⟨outcome.1, fun later => implies value (outcome.2 later)⟩
  | error error after =>
    rw [ran] at outcome
    exact outcome

theorem yields_pure {value : β} {post : β → Prop} (holds : post value) : Yields final (pure value) post :=
  fun before => ⟨.refl before, fun _ => holds⟩

theorem yields_throw (error : PlanningError) (post : β → Prop) : Yields final (throw error) post :=
  fun before => Session.Grows.refl before

theorem bind_eq_ok {first : Planning ν β} {next : β → Planning ν γ} {before after : Session ν} {result : γ}
    (ran : (first >>= next) before = .ok result after) :
    ∃ value middle, first before = .ok value middle ∧ next value middle = .ok result after := by
  change EStateM.bind first next before = _ at ran
  unfold EStateM.bind at ran
  split at ran
  next value middle finished => exact ⟨value, middle, finished, ran⟩
  next => cases ran

/-- What the first action established is an assumption of the statement about the second, which has to grow the records
whether or not that assumption holds. -/
theorem Yields.bind {first : Planning ν β} {next : β → Planning ν γ} {middle : β → Prop} {post : γ → Prop}
    (valid : Yields final first middle) (rest : ∀ value, Yields final (next value) fun result => middle value → post result) :
    Yields final (first >>= next) post := by
  intro before
  have started := valid before
  change Outcome final before post (EStateM.bind first next before)
  unfold EStateM.bind
  cases ran : first before with
  | error error after =>
    rw [ran] at started
    exact started
  | ok value after =>
    rw [ran] at started
    have continued := rest value after
    simp only
    cases finished : next value after with
    | error error last =>
      rw [finished] at continued
      exact started.1.trans continued
    | ok result last =>
      rw [finished] at continued
      exact ⟨started.1.trans continued.1, fun later => continued.2 later (started.2 (continued.1.trans later))⟩

theorem Yields.ite {condition : Prop} [Decidable condition] {first second : Planning ν β} {post : β → Prop}
    (holds : Yields final first fun value => condition → post value)
    (fails : Yields final second fun value => ¬ condition → post value) :
    Yields final (if condition then first else second) post := by
  split
  next met => exact holds.weaken fun _ implied => implied met
  next unmet => exact fails.weaken fun _ implied => implied unmet

theorem yields_ofExcept (value : Except PlanningError β) : Yields final (ofExcept value) fun result => value = .ok result := by
  cases value with
  | ok result => exact yields_pure rfl
  | error error => exact yields_throw error _

theorem yields_get : Yields final (get : Planning ν (Session ν)) fun _ => True := fun before => ⟨.refl before, fun _ => trivial⟩

theorem attempt_apply (action : Planning ν β) (before : Session ν) :
    Planning.attempt action before = match action before with
      | .ok value after => .ok (.ok value) after
      | .error error after => if error.isCandidateLocal then .ok (.error error) after else .error error after := by
  change EStateM.tryCatch (Except.ok <$> action) _ before = _
  delta EStateM.tryCatch
  simp only [Functor.map, EStateM.map]
  cases action before with
  | ok value after => rfl
  | error error after =>
    simp only
    split <;> rfl

theorem Yields.attempt {action : Planning ν β} {post : β → Prop} (valid : Yields final action post) :
    Yields final (attempt action) fun result => ∀ value, result = .ok value → post value := by
  intro before
  have outcome := valid before
  rw [attempt_apply]
  cases ran : action before with
  | ok value after =>
    rw [ran] at outcome
    refine ⟨outcome.1, fun later result same => ?_⟩
    cases same
    exact outcome.2 later
  | error error after =>
    rw [ran] at outcome
    simp only
    split
    · exact ⟨outcome, fun _ value impossible => by cases impossible⟩
    · exact outcome

theorem yields_allocate : Yields final (allocate : Planning ν PlanId) fun _ => True := fun _ =>
  ⟨⟨Nat.le_succ _, Nat.le_refl _, .refl _, .refl _, .refl _⟩, fun _ => trivial⟩

theorem yields_freshName (stem : String) :
    Yields final (freshName stem : Planning ν String) fun name => ∃ number : Nat, name = "  " ++ stem ++ "_" ++ toString number :=
  fun before => ⟨⟨Nat.le_refl _, Nat.le_succ _, .refl _, .refl _, .refl _⟩, fun _ => ⟨before.arena.freshNames, rfl⟩⟩

theorem yields_record (phase : PlanningPhase) (description : String) (metadata : TraceMetadata ν) :
    Yields final (record phase description metadata) fun _ => True := fun _ =>
  ⟨⟨Nat.le_refl _, Nat.le_refl _, .refl _, .refl _, .refl _⟩, fun _ => trivial⟩

theorem yields_checkCancellation : Yields final (checkCancellation : Planning ν Unit) fun _ => True :=
  yields_get.bind fun _ => .ite (yields_throw _ _) (yields_pure fun _ _ => trivial)

theorem yields_setCardinality (id : PlanId) (rows : ν) : Yields final (setCardinality id rows) fun _ => True := by
  intro before
  change Outcome final before _ (EStateM.bind (ofExcept (before.arena.cardinalities.set .cardinality id rows)) _ before)
  cases written : before.arena.cardinalities.set .cardinality id rows with
  | error error => exact Session.Grows.refl before
  | ok table => exact ⟨⟨Nat.le_refl _, Nat.le_refl _, (AttributeTable.set_ok written).1, .refl _, .refl _⟩, fun _ => trivial⟩

theorem yields_setOrder (id : PlanId) (order : ProvidedOrder) : Yields final (setOrder (ν := ν) id order) fun _ => True := by
  intro before
  change Outcome final before _ (EStateM.bind (ofExcept (before.arena.providedOrders.set .providedOrder id order)) _ before)
  cases written : before.arena.providedOrders.set .providedOrder id order with
  | error error => exact Session.Grows.refl before
  | ok table => exact ⟨⟨Nat.le_refl _, Nat.le_refl _, .refl _, .refl _, (AttributeTable.set_ok written).1⟩, fun _ => trivial⟩

/-- What an operator solves is what the arena says of it in the end. -/
theorem yields_setSolved (id : PlanId) (predicates : List Expression) :
    Yields final (setSolved id predicates) fun _ => final.arena.solved id = predicates := by
  intro before
  change Outcome final before _
    (EStateM.bind (ofExcept (before.arena.solvedPredicates.set .solvedPredicates id predicates)) _ before)
  cases written : before.arena.solvedPredicates.set .solvedPredicates id predicates with
  | error error => exact Session.Grows.refl before
  | ok table =>
    obtain ⟨grows, recorded⟩ := AttributeTable.set_ok written
    refine ⟨⟨Nat.le_refl _, Nat.le_refl _, .refl _, grows, .refl _⟩, fun later => ?_⟩
    simp only [Arena.solved, later.solvedPredicates id predicates recorded, Option.getD_some]

end Planning

/-- A plan with a filter above it, or the plan itself when there is nothing to filter by. -/
inductive Filtered (input : Plan) : List Expression → Plan → Prop where
  | untouched : Filtered input [] input
  | filter {id : PlanId} {predicates : List Expression} (some : predicates ≠ []) :
    Filtered input predicates (.step id (.filter predicates) input)

namespace Environment

open Planning

variable (environment : Environment ν) {final : Session ν}

theorem yields_estimate (plan : Plan) : Yields final (environment.estimate plan) fun _ => True :=
  (yields_ofExcept _).weaken fun _ _ => trivial

theorem yields_finish (operator : PlanId → Plan) (solved : List Expression) (labelled : ∀ id, (operator id).id = id) :
    Yields final (environment.finish operator solved) fun plan =>
      ∃ id, plan = operator id ∧ final.arena.solved id = solved := by
  unfold finish
  refine yields_allocate.bind fun id => (environment.yields_estimate _).bind fun estimate => yields_get.bind fun session =>
    (yields_setCardinality _ _).bind fun _ => (yields_setSolved _ _).bind fun _ => (yields_setOrder _ _).bind fun _ =>
    yields_pure fun _ recorded _ _ _ _ => ⟨id, rfl, ?_⟩
  rwa [labelled] at recorded

theorem yields_filter (input : Plan) (predicates : List Expression) :
    Yields final (environment.filter input predicates) (Filtered input predicates) := by
  unfold filter
  refine .ite (yields_pure fun empty => ?_) ?_
  · rw [List.isEmpty_iff.mp empty]
    exact .untouched
  · refine (environment.yields_finish _ _ fun _ => rfl).weaken ?_
    rintro plan ⟨id, rfl, -⟩ filled
    exact .filter fun empty => filled (List.isEmpty_iff.mpr empty)

theorem yields_leafCandidates (node : String) (predicates : List Expression) :
    Yields final (environment.leafCandidates node predicates) fun leaves =>
      ∃ call, environment.leafPlanner call node predicates environment.statistics = .ok leaves := by
  intro before
  change Outcome final before _
    (ofExcept (environment.leafPlanner (before.leafCalls + 1) node predicates environment.statistics) _)
  cases planned : environment.leafPlanner (before.leafCalls + 1) node predicates environment.statistics with
  | error error => exact ⟨Nat.le_refl _, Nat.le_refl _, .refl _, .refl _, .refl _⟩
  | ok leaves => exact ⟨⟨Nat.le_refl _, Nat.le_refl _, .refl _, .refl _, .refl _⟩, fun _ => ⟨before.leafCalls + 1, planned⟩⟩

end Environment

end MatchPlanner
