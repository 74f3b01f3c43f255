import MatchPlanner.Proofs.Leaves
import MatchPlanner.Proofs.Outcome

/-! Actions that return. What an action may fail with is said beforehand; from every session in good order it ends in one of
these failures or returns a value as stated, and leaves the session in good order. -/

namespace MatchPlanner

/-- Nothing is written under the ids from a number on. -/
def AttributeTable.Below {α : Type} (table : AttributeTable α) (count : Nat) : Prop :=
  ∀ id : PlanId, count ≤ id.number → table.get? id = none

namespace AttributeTable

variable {α : Type} {table : AttributeTable α} {count : Nat}

theorem below_empty (count : Nat) : (empty : AttributeTable α).Below count := fun _ _ => rfl

theorem Below.succ (below : table.Below count) : table.Below (count + 1) := fun id later => below id (Nat.le_of_succ_le later)

/-- An id that is not set can be written to, and no other id is touched. -/
theorem set_unset {id : PlanId} (unset : table.get? id = none) (kind : AttributeKind) (value : α) :
    table.set kind id value = .ok ⟨(id, value) :: table.entries⟩ ∧
      ∀ other, other ≠ id → (AttributeTable.mk ((id, value) :: table.entries)).get? other = table.get? other := by
  have free : table.isSet id = false := by rw [isSet, unset, Option.isSome_none]
  refine ⟨by rw [AttributeTable.set, free]; rfl, fun other different => ?_⟩
  rw [get?, List.lookup_cons, beq_eq_false_iff_ne.mpr different]
  rfl

/-- A new id can be written to. -/
theorem Below.set (below : table.Below count) (kind : AttributeKind) (value : α) :
    table.set kind ⟨count⟩ value = .ok ⟨(⟨count⟩, value) :: table.entries⟩ ∧
      (AttributeTable.mk ((⟨count⟩, value) :: table.entries)).Below (count + 1) := by
  obtain ⟨written, others⟩ := set_unset (below ⟨count⟩ (Nat.le_refl _)) kind value
  refine ⟨written, fun id later => ?_⟩
  rw [others id (by rintro rfl; exact Nat.not_succ_le_self count later)]
  exact below.succ id later

end AttributeTable

variable {ν : Type}

/-- Only ids already given away are written to, and a request for cancellation is among the failures put up with. -/
structure Session.Ready (faults : PlanningError → Prop) (session : Session ν) : Prop where
  cardinalities : session.arena.cardinalities.Below session.arena.allocated
  solvedPredicates : session.arena.solvedPredicates.Below session.arena.allocated
  providedOrders : session.arena.providedOrders.Below session.arena.allocated
  cancellation : session.cancelled = true → faults .cancelled

/-- The collaborators fail in no way but those put up with. -/
structure Environment.Dependable (environment : Environment ν) (faults : PlanningError → Prop) : Prop where
  estimates : ∀ plan error, environment.estimator plan environment.statistics = .error error → faults error
  leaves : ∀ call node predicates, environment.leafPlanner call node predicates environment.statistics =
    .ok (LeafCandidate.standard node predicates environment.statistics)
  cancels : ∀ call, environment.cancelsDuring call = true → faults .cancelled

theorem Environment.Dependable.weaken {environment : Environment ν} {faults more : PlanningError → Prop}
    (dependable : environment.Dependable faults) (implies : ∀ error, faults error → more error) : environment.Dependable more where
  estimates plan error failed := implies error (dependable.estimates plan error failed)
  leaves := dependable.leaves
  cancels call requested := implies _ (dependable.cancels call requested)

theorem Environment.Dependable.standardLeaves {environment : Environment ν} {faults : PlanningError → Prop}
    (dependable : environment.Dependable faults) : environment.StandardLeaves := by
  intro call node predicates leaves offered leaf member
  rw [dependable.leaves, Except.ok.injEq] at offered
  exact offered ▸ member

namespace Planning

variable {β γ : Type}

/-- A session in good order is left, with a value as stated or with a failure that is put up with. -/
def Ended (faults : PlanningError → Prop) (post : β → Prop) : EStateM.Result PlanningError (Session ν) β → Prop
  | .ok value after => after.Ready faults ∧ post value
  | .error error after => after.Ready faults ∧ faults error

/-- From a session in good order the action returns a value as stated, or fails in a way that is put up with. -/
def Completes (faults : PlanningError → Prop) (action : Planning ν β) (post : β → Prop) : Prop :=
  ∀ before, before.Ready faults → Ended faults post (action before)

variable {faults : PlanningError → Prop}

theorem Completes.weaken {action : Planning ν β} {post weaker : β → Prop} (completes : Completes faults action post)
    (implies : ∀ value, post value → weaker value) : Completes faults action weaker := by
  intro before ready
  have outcome := completes before ready
  cases ran : action before with
  | ok value after =>
    rw [ran] at outcome
    exact ⟨outcome.1, implies value outcome.2⟩
  | error error after =>
    rw [ran] at outcome
    exact outcome

/-- What is known of every value an action returns is known of the value it returns here. -/
theorem Completes.known {action : Planning ν β} {post : β → Prop} {known : Session ν → β → Prop}
    (completes : Completes faults action post) (yields : ∀ final, Yields final action (known final)) :
    Completes faults action fun value => post value ∧ ∃ final, known final value := by
  intro before ready
  have outcome := completes before ready
  cases ran : action before with
  | ok value after =>
    rw [ran] at outcome
    exact ⟨outcome.1, outcome.2, after, (yields after).result ran⟩
  | error error after =>
    rw [ran] at outcome
    exact outcome

theorem completes_pure {value : β} {post : β → Prop} (holds : post value) : Completes faults (pure value : Planning ν β) post :=
  fun _ ready => ⟨ready, holds⟩

theorem completes_throw {error : PlanningError} {post : β → Prop} (fault : faults error) :
    Completes faults (throw error : Planning ν β) post := fun _ ready => ⟨ready, fault⟩

/-- A run goes on from where its first action ends. -/
theorem ended_bind {first : Planning ν β} {next : β → Planning ν γ} {post : γ → Prop} {before middle : Session ν} {value : β}
    (ran : first before = .ok value middle) (rest : Ended faults post (next value middle)) :
    Ended faults post ((first >>= next) before) := by
  change Ended faults post (EStateM.bind first next before)
  rwa [EStateM.bind, ran]

theorem ended_failure {first : Planning ν β} {next : β → Planning ν γ} {post : γ → Prop} {before after : Session ν}
    {error : PlanningError} (failed : first before = .error error after) (ready : after.Ready faults) (fault : faults error) :
    Ended faults post ((first >>= next) before) := by
  change Ended faults post (EStateM.bind first next before)
  rw [EStateM.bind, failed]
  exact ⟨ready, fault⟩

theorem Completes.bind {first : Planning ν β} {next : β → Planning ν γ} {middle : β → Prop} {post : γ → Prop}
    (completes : Completes faults first middle) (rest : ∀ value, middle value → Completes faults (next value) post) :
    Completes faults (first >>= next) post := by
  intro before ready
  have started := completes before ready
  cases ran : first before with
  | error error after =>
    rw [ran] at started
    exact ended_failure ran started.1 started.2
  | ok value after =>
    rw [ran] at started
    exact ended_bind ran (rest value started.2 after started.1)

theorem completes_ofExcept {value : Except PlanningError β} {post : β → Prop} (fault : ∀ error, value = .error error → faults error)
    (holds : ∀ result, value = .ok result → post result) : Completes faults (ofExcept value : Planning ν β) post := by
  cases value with
  | ok result => exact completes_pure (holds result rfl)
  | error error => exact completes_throw (fault error rfl)

/-- A candidate is planned, or turns out impossible in a way that is put up with. -/
theorem Completes.attempt {action : Planning ν β} {post : β → Prop} (completes : Completes faults action post) :
    Completes faults (attempt action) fun result => (∃ value, result = .ok value ∧ post value) ∨
      ∃ error, result = .error error ∧ faults error := by
  intro before ready
  have outcome := completes before ready
  rw [attempt_apply]
  cases ran : action before with
  | ok value after =>
    rw [ran] at outcome
    exact ⟨outcome.1, .inl ⟨value, rfl, outcome.2⟩⟩
  | error error after =>
    rw [ran] at outcome
    simp only
    split
    · exact ⟨outcome.1, .inr ⟨error, rfl, outcome.2⟩⟩
    · exact outcome

theorem completes_freshName (stem : String) : Completes faults (freshName stem : Planning ν String) fun _ => True :=
  fun _ ready => ⟨⟨ready.cardinalities, ready.solvedPredicates, ready.providedOrders, ready.cancellation⟩, trivial⟩

theorem completes_record (phase : PlanningPhase) (description : String) (metadata : TraceMetadata ν) :
    Completes faults (record phase description metadata) fun _ => True :=
  fun _ ready => ⟨⟨ready.cardinalities, ready.solvedPredicates, ready.providedOrders, ready.cancellation⟩, trivial⟩

theorem completes_checkCancellation : Completes faults (checkCancellation : Planning ν Unit) fun _ => True := by
  intro before ready
  change Ended faults _ ((if before.cancelled = true then throw .cancelled else pure () : Planning ν Unit) before)
  split
  next requested => exact ⟨ready, ready.cancellation requested⟩
  next => exact ⟨ready, trivial⟩

theorem get_ok (session : Session ν) : (get : Planning ν (Session ν)) session = .ok session session := rfl

theorem allocate_ok (before : Session ν) : (allocate : Planning ν PlanId) before = .ok ⟨before.arena.allocated⟩
    { before with arena := { before.arena with allocated := before.arena.allocated + 1 } } := rfl

theorem setCardinality_ok {before : Session ν} {id : PlanId} {rows : ν} {table : AttributeTable ν}
    (written : before.arena.cardinalities.set .cardinality id rows = .ok table) : setCardinality id rows before =
      .ok () { before with arena := { before.arena with cardinalities := table } } := by
  change (ofExcept (before.arena.cardinalities.set .cardinality id rows) >>= _) before = _
  rw [written]
  rfl

theorem setSolved_ok {before : Session ν} {id : PlanId} {predicates : List Expression} {table : AttributeTable (List Expression)}
    (written : before.arena.solvedPredicates.set .solvedPredicates id predicates = .ok table) : setSolved id predicates before =
      .ok () { before with arena := { before.arena with solvedPredicates := table } } := by
  change (ofExcept (before.arena.solvedPredicates.set .solvedPredicates id predicates) >>= _) before = _
  rw [written]
  rfl

theorem setOrder_ok {before : Session ν} {id : PlanId} {order : ProvidedOrder} {table : AttributeTable ProvidedOrder}
    (written : before.arena.providedOrders.set .providedOrder id order = .ok table) : setOrder id order before =
      .ok () { before with arena := { before.arena with providedOrders := table } } := by
  change (ofExcept (before.arena.providedOrders.set .providedOrder id order) >>= _) before = _
  rw [written]
  rfl

end Planning

namespace Environment

open Planning

variable {environment : Environment ν} {faults : PlanningError → Prop}

theorem estimate_ok {plan : Plan} {estimate : Estimate ν} (estimated : environment.estimator plan environment.statistics = .ok estimate)
    (before : Session ν) : environment.estimate plan before = .ok estimate before := by
  rw [Environment.estimate, estimated]
  rfl

theorem estimate_error {plan : Plan} {error : PlanningError} (failed : environment.estimator plan environment.statistics = .error error)
    (before : Session ν) : environment.estimate plan before = .error error before := by
  rw [Environment.estimate, failed]
  rfl

theorem Dependable.estimate (dependable : environment.Dependable faults) (plan : Plan) :
    Completes faults (environment.estimate plan) fun _ => True :=
  completes_ofExcept (dependable.estimates plan) fun _ _ => trivial

/-- An operator gets an id of its own, so all its attributes can be written. -/
theorem Dependable.finish (dependable : environment.Dependable faults) (operator : PlanId → Plan) (solved : List Expression)
    (labelled : ∀ id, (operator id).id = id) : Completes faults (environment.finish operator solved) fun _ => True := by
  intro before ready
  refine ended_bind (allocate_ok before) ?_
  cases estimated : environment.estimator (operator ⟨before.arena.allocated⟩) environment.statistics with
  | error error =>
    refine ended_failure (estimate_error estimated _) ?_ (dependable.estimates _ _ estimated)
    exact ⟨ready.cardinalities.succ, ready.solvedPredicates.succ, ready.providedOrders.succ, ready.cancellation⟩
  | ok estimate =>
    obtain ⟨cardinality, cardinalities⟩ := ready.cardinalities.set .cardinality estimate.rows
    obtain ⟨predicates, solvedPredicates⟩ := ready.solvedPredicates.set .solvedPredicates solved
    obtain ⟨order, providedOrders⟩ := ready.providedOrders.set .providedOrder
      ((operator ⟨before.arena.allocated⟩).orderFrom before.arena.orderOf)
    refine ended_bind (estimate_ok estimated _) (ended_bind (get_ok _) ?_)
    rw [labelled]
    refine ended_bind (setCardinality_ok cardinality) (ended_bind (setSolved_ok predicates) (ended_bind (setOrder_ok order) ?_))
    exact ⟨⟨cardinalities, solvedPredicates, providedOrders, ready.cancellation⟩, trivial⟩

theorem Dependable.filter (dependable : environment.Dependable faults) (input : Plan) (predicates : List Expression) :
    Completes faults (environment.filter input predicates) fun _ => True := by
  unfold Environment.filter
  split
  · exact completes_pure trivial
  · exact dependable.finish _ _ fun _ => rfl

theorem Dependable.leafCandidates (dependable : environment.Dependable faults) (node : String) (predicates : List Expression) :
    Completes faults (environment.leafCandidates node predicates)
      (· = LeafCandidate.standard node predicates environment.statistics) := by
  intro before ready
  change Ended faults _ (ofExcept (environment.leafPlanner (before.leafCalls + 1) node predicates environment.statistics) _)
  rw [dependable.leaves]
  refine ⟨⟨ready.cardinalities, ready.solvedPredicates, ready.providedOrders, fun requested => ?_⟩, rfl⟩
  rcases (Bool.or_eq_true _ _).mp requested with earlier | now
  exacts [ready.cancellation earlier, dependable.cancels _ now]

end Environment

end MatchPlanner
