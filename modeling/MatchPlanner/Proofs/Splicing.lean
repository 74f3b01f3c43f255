import MatchPlanner.Proofs.Barriers
import MatchPlanner.Proofs.Completion
import MatchPlanner.Proofs.Threading

/-! Splicing. However a reader is come by, at the root, below an operator, in a loop or under the Eager it already has, it ends up
directly below one Eager. So one request takes a plan with the barriers of the earlier requests to the plan with one more request's
barriers, and requests in any order and number take it to the plan with the barriers of all. -/

namespace MatchPlanner

/-- Nothing is recorded under an id. -/
structure Arena.Vacant {ν : Type} (arena : Arena ν) (id : PlanId) : Prop where
  cardinality : arena.cardinalities.get? id = none
  solved : arena.solvedPredicates.get? id = none
  order : arena.providedOrders.get? id = none

/-- A number of ids was given away, and ids that are still to be given away stayed vacant. -/
structure Session.Spent {ν : Type} (before : Session ν) (count : Nat) (after : Session ν) : Prop where
  allocated : after.arena.allocated = before.arena.allocated + count
  vacant : ∀ id : PlanId, after.arena.allocated ≤ id.number → before.arena.Vacant id → after.arena.Vacant id

namespace Session

variable {ν : Type}

theorem Spent.refl (session : Session ν) : session.Spent 0 session := ⟨rfl, fun _ _ vacant => vacant⟩

theorem Spent.trans {first second third : Session ν} {count more : Nat} (former : first.Spent count second)
    (latter : second.Spent more third) : first.Spent (count + more) third where
  allocated := by rw [latter.allocated, former.allocated, Nat.add_assoc]
  vacant id later vacant :=
    latter.vacant id later (former.vacant id (Nat.le_trans (by rw [latter.allocated]; exact Nat.le_add_right _ _) later) vacant)

end Session

namespace Planning

variable {ν β γ : Type}

/-- The action returns this value and leaves a session as stated. -/
def Reaches (before : Session ν) (good : Session ν → Prop) (action : Planning ν β) (value : β) : Prop :=
  ∃ after, action before = .ok value after ∧ good after

variable {before : Session ν} {good : Session ν → Prop}

theorem reaches_pure {value : β} (holds : good before) : Reaches before good (pure value) value := ⟨before, rfl, holds⟩

theorem Reaches.bind {better : Session ν → Prop} {first : Planning ν β} {next : β → Planning ν γ} {value : β} {result : γ}
    (reached : Reaches before good first value) (rest : ∀ middle, good middle → Reaches middle better (next value) result) :
    Reaches before better (first >>= next) result := by
  obtain ⟨middle, ran, holds⟩ := reached
  obtain ⟨after, finished, better⟩ := rest middle holds
  refine ⟨after, ?_, better⟩
  change EStateM.bind first next before = _
  rw [EStateM.bind, ran]
  exact finished

end Planning

namespace Environment

open Planning

variable {ν : Type} {environment : Environment ν}

/-- An operator gets the next id when nothing is recorded under it yet. -/
theorem finish_reaches (estimates : ∀ plan, ∃ estimate, environment.estimator plan environment.statistics = .ok estimate)
    {operator : PlanId → Plan} (labelled : ∀ id, (operator id).id = id) (solved : List Expression) {before : Session ν}
    (vacant : before.arena.Vacant ⟨before.arena.allocated⟩) :
    Reaches before (before.Spent 1) (environment.finish operator solved) (operator ⟨before.arena.allocated⟩) := by
  obtain ⟨estimate, estimated⟩ := estimates (operator ⟨before.arena.allocated⟩)
  obtain ⟨rows, otherRows⟩ := AttributeTable.set_unset vacant.cardinality .cardinality estimate.rows
  obtain ⟨predicates, otherPredicates⟩ := AttributeTable.set_unset vacant.solved .solvedPredicates solved
  obtain ⟨order, otherOrders⟩ := AttributeTable.set_unset vacant.order .providedOrder
    ((operator ⟨before.arena.allocated⟩).orderFrom before.arena.orderOf)
  unfold finish
  refine Reaches.bind ⟨_, allocate_ok before, rfl⟩ fun _ same => same ▸ ?_
  refine Reaches.bind ⟨_, estimate_ok estimated _, rfl⟩ fun _ same => same ▸ ?_
  refine Reaches.bind ⟨_, get_ok _, rfl⟩ fun _ same => same ▸ ?_
  rw [labelled]
  refine Reaches.bind ⟨_, setCardinality_ok rows, rfl⟩ fun _ same => same ▸ ?_
  refine Reaches.bind ⟨_, setSolved_ok predicates, rfl⟩ fun _ same => same ▸ ?_
  refine Reaches.bind ⟨_, setOrder_ok order, rfl⟩ fun _ same => same ▸ ?_
  refine reaches_pure ⟨rfl, fun id later vacant => ?_⟩
  have different : id ≠ ⟨before.arena.allocated⟩ := by
    rintro rfl
    exact Nat.not_succ_le_self _ later
  exact ⟨(otherRows id different).trans vacant.cardinality, (otherPredicates id different).trans vacant.solved,
    (otherOrders id different).trans vacant.order⟩

end Environment

/-! One request, wherever its reader is. -/

namespace Environment

open Planning

variable {ν : Type} (environment : Environment ν) (request : EagerRequest)

/-- A plan with its reader wrapped, the root included. -/
def wrapWithin (plan : Plan) : Planning ν (Option Plan) :=
  if plan.id = request.reader then do return some (← environment.wrapReader plan request) else environment.wrapBelow request plan

variable {environment request}

theorem wrapWithin_of_ne {plan : Plan} (elsewhere : plan.id ≠ request.reader) :
    environment.wrapWithin request plan = environment.wrapBelow request plan := if_neg elsewhere

theorem wrapBelow_step {id : PlanId} {operator : Step} {input : Plan} (other : operator.kind ≠ .eager) :
    environment.wrapBelow request (.step id operator input) =
      do return (← environment.wrapWithin request input).map (.step id operator) := by
  have unmerged : request.mergeAbove? (.step id operator input) = none := by
    cases operator <;> first | rfl | exact absurd rfl other
  simp only [wrapBelow, unmerged, wrapWithin]
  split <;> simp

theorem wrapBelow_merge {id : PlanId} {reasons : List EagerReason} {input : Plan} (here : input.id = request.reader) :
    environment.wrapBelow request (.step id (.eager reasons) input) =
      pure (some (.step id (.eager (mergeReason reasons request.reason)) input)) := by
  have merged : request.mergeAbove? (.step id (.eager reasons) input) =
      some (.step id (.eager (mergeReason reasons request.reason)) input) := if_pos here
  rw [wrapBelow, merged]

theorem wrapBelow_eager {id : PlanId} {reasons : List EagerReason} {input : Plan} (elsewhere : input.id ≠ request.reader) :
    environment.wrapBelow request (.step id (.eager reasons) input) =
      do return (← environment.wrapBelow request input).map (.step id (.eager reasons)) := by
  have unmerged : request.mergeAbove? (.step id (.eager reasons) input) = none := if_neg elsewhere
  rw [wrapBelow, unmerged]
  exact if_neg elsewhere

theorem wrapBelow_trail {id : PlanId} {parameters : TrailParameters} {input inner : Plan} :
    environment.wrapBelow request (.trail id parameters input inner) = do
      match ← environment.wrapWithin request input with
      | some changed => return some (.trail id parameters changed inner)
      | none => return (← environment.wrapWithin request inner).map (.trail id parameters input) := by
  rw [wrapBelow, wrapWithin, wrapWithin]
  split
  · simp
  · congr 1
    funext found
    cases found <;> simp only
    split <;> simp

theorem wrapBelow_join {id : PlanId} {operator : Join} {left right : Plan} :
    environment.wrapBelow request (.join id operator left right) = do
      match ← environment.wrapWithin request left with
      | some changed => return some (.join id operator changed right)
      | none => return (← environment.wrapWithin request right).map (.join id operator left) := by
  rw [wrapBelow, wrapWithin, wrapWithin]
  split
  · simp
  · congr 1
    funext found
    cases found <;> simp only
    split <;> simp

theorem spliceEager_unknown {root : Plan} (absent : request.reader ∉ root.ids) :
    environment.spliceEager root request = throw (.unknownPlanId request.reader) := by
  have unknown : (root.find? request.reader).isNone = true := by
    rw [Plan.find?, Option.isNone_iff_eq_none, List.find?_eq_none]
    exact fun subtree member same => absent (beq_iff_eq.mp same ▸ List.mem_map_of_mem member)
  rw [spliceEager, unknown, if_pos rfl]
  rfl

/-- The cases told apart at the root are the ones told apart below it. -/
theorem spliceEager_eq {root : Plan} (found : request.reader ∈ root.ids) :
    environment.spliceEager root request = (do
      match ← environment.wrapWithin request root with
      | some changed => return changed
      | none => throw (.internal (.unreachableReader request.reader))) := by
  have known : (root.find? request.reader).isNone = false := by
    obtain ⟨subtree, member, same⟩ := List.mem_map.mp found
    rw [Plan.find?, Option.isNone_eq_false_iff, List.find?_isSome]
    exact ⟨subtree, member, beq_iff_eq.mpr same⟩
  have merges (merged : Plan) (here : request.mergeAbove? root = some merged) :
      environment.wrapWithin request root = pure (some merged) := by
    unfold EagerRequest.mergeAbove? at here
    split at here
    next id reasons input =>
      split at here
      next reader =>
        cases here
        rw [wrapWithin, wrapBelow_merge reader]
        split
        · rw [wrapReader]; rfl
        · rfl
      next => cases here
    next => cases here
  rw [spliceEager, known, if_neg Bool.false_ne_true]
  cases merged : request.mergeAbove? root with
  | some plan => rw [merges plan merged]; rfl
  | none =>
    simp only [wrapWithin]
    split
    · simp
    · rfl

variable {before : Session ν} {good : Session ν → Prop} {barriers : List Barrier}

theorem wrapWithin_guarded_none {plan : Plan} (apart : ∀ barrier ∈ barriers, barrier.id ≠ request.reader)
    (elsewhere : plan.id ≠ request.reader) (absent : environment.wrapBelow request plan = pure none) :
    environment.wrapWithin request (plan.guarded barriers) = pure none := by
  cases found : Barrier.above? barriers plan.id with
  | none => rw [Plan.guarded_none found, wrapWithin_of_ne elsewhere, absent]
  | some barrier =>
    have different : (Plan.step barrier.id (.eager barrier.reasons) plan).id ≠ request.reader :=
      apart barrier (List.mem_of_find?_eq_some found)
    rw [Plan.guarded_some found, wrapWithin_of_ne different, wrapBelow_eager elsewhere, absent]
    rfl

/-- A plan without the reader is searched in vain. -/
theorem wrapWithin_none {plan : Plan} (apart : ∀ barrier ∈ barriers, barrier.id ≠ request.reader) (plain : plan.Unguarded)
    (absent : request.reader ∉ plan.ids) : environment.wrapWithin request (plan.barred barriers) = pure none := by
  induction plan with
  | leaf id operator =>
    rw [Plan.ids_leaf, List.mem_singleton] at absent
    refine wrapWithin_guarded_none apart (Ne.symm absent) ?_
    rw [wrapBelow]
  | step id operator input step =>
    obtain ⟨other, below⟩ := Plan.unguarded_step.mp plain
    rw [Plan.ids_step, List.mem_cons, not_or] at absent
    refine wrapWithin_guarded_none apart (Ne.symm absent.1) ?_
    rw [wrapBelow_step other, step below absent.2]
    rfl
  | trail id parameters input inner former latter =>
    obtain ⟨first, second⟩ := Plan.unguarded_trail.mp plain
    rw [Plan.ids_trail, List.mem_cons, List.mem_append, not_or, not_or] at absent
    refine wrapWithin_guarded_none apart (Ne.symm absent.1) ?_
    rw [wrapBelow_trail, former first absent.2.1, latter second absent.2.2]
    rfl
  | join id operator left right former latter =>
    obtain ⟨first, second⟩ := Plan.unguarded_join.mp plain
    rw [Plan.ids_join, List.mem_cons, List.mem_append, not_or, not_or] at absent
    refine wrapWithin_guarded_none apart (Ne.symm absent.1) ?_
    rw [wrapBelow_join, former first absent.2.1, latter second absent.2.2]
    rfl

variable {later : List Barrier}

theorem wrapWithin_guarded {plan changed : Plan} (apart : ∀ barrier ∈ barriers, barrier.id ≠ request.reader)
    (others : ∀ id, id ≠ request.reader → Barrier.above? barriers id = Barrier.above? later id)
    (elsewhere : plan.id ≠ request.reader) (same : changed.id = plan.id)
    (reached : Reaches before good (environment.wrapBelow request plan) (some changed)) :
    Reaches before good (environment.wrapWithin request (plan.guarded barriers)) (some (changed.guarded later)) := by
  have kept : Barrier.above? later changed.id = Barrier.above? barriers plan.id := by rw [same, others plan.id elsewhere]
  cases found : Barrier.above? barriers plan.id with
  | none => rwa [Plan.guarded_none found, Plan.guarded_none (kept.trans found), wrapWithin_of_ne elsewhere]
  | some barrier =>
    have different : (Plan.step barrier.id (.eager barrier.reasons) plan).id ≠ request.reader :=
      apart barrier (List.mem_of_find?_eq_some found)
    rw [Plan.guarded_some found, Plan.guarded_some (kept.trans found), wrapWithin_of_ne different, wrapBelow_eager elsewhere]
    exact reached.bind fun _ holds => reaches_pure holds

/-- The search finds the reader in whichever part of the plan it is, and changes nothing on the way. -/
theorem wrapWithin_barred {plan : Plan} (apart : ∀ barrier ∈ barriers, barrier.id ≠ request.reader)
    (others : ∀ id, id ≠ request.reader → Barrier.above? barriers id = Barrier.above? later id)
    (wraps : ∀ reader : Plan, reader.id = request.reader → reader.kind ≠ .eager →
      Reaches before good (environment.wrapWithin request (reader.guarded barriers)) (some (reader.guarded later)))
    (plain : plan.Unguarded) (distinct : plan.ids.Nodup) (inside : request.reader ∈ plan.ids) :
    Reaches before good (environment.wrapWithin request (plan.barred barriers)) (some (plan.barred later)) := by
  have unchanged {part : Plan} (absent : request.reader ∉ part.ids) : part.barred barriers = part.barred later :=
    Plan.barred_congr fun id member => others id fun same => absent (same ▸ member)
  induction plan with
  | leaf id operator =>
    rw [Plan.ids_leaf, List.mem_singleton] at inside
    exact wraps _ inside.symm (by cases operator <;> simp [Plan.kind, Leaf.kind])
  | step id operator input step =>
    obtain ⟨other, below⟩ := Plan.unguarded_step.mp plain
    rw [Plan.ids_step, List.nodup_cons] at distinct
    by_cases here : id = request.reader
    · rw [Plan.barred, Plan.barred, ← unchanged (here ▸ distinct.1)]
      exact wraps _ here other
    · rw [Plan.ids_step, List.mem_cons] at inside
      refine wrapWithin_guarded apart others here rfl ?_
      rw [wrapBelow_step other]
      exact (step below distinct.2 (inside.resolve_left (Ne.symm here))).bind fun _ holds => reaches_pure holds
  | trail id parameters input inner former latter =>
    obtain ⟨first, second⟩ := Plan.unguarded_trail.mp plain
    rw [Plan.ids_trail, List.nodup_cons, List.mem_append, not_or, List.nodup_append] at distinct
    by_cases here : id = request.reader
    · rw [Plan.barred, Plan.barred, ← unchanged (here ▸ distinct.1.1), ← unchanged (here ▸ distinct.1.2)]
      exact wraps _ here (by simp [Plan.kind])
    · rw [Plan.ids_trail, List.mem_cons, List.mem_append] at inside
      refine wrapWithin_guarded apart others here rfl ?_
      rw [wrapBelow_trail]
      by_cases left : request.reader ∈ input.ids
      · rw [← unchanged fun right => distinct.2.2.2 _ left _ right rfl]
        exact (former first distinct.2.1 left).bind fun _ holds => reaches_pure holds
      · have right := (inside.resolve_left (Ne.symm here)).resolve_left left
        rw [wrapWithin_none apart first left, pure_bind, ← unchanged left]
        exact (latter second distinct.2.2.1 right).bind fun _ holds => reaches_pure holds
  | join id operator left right former latter =>
    obtain ⟨first, second⟩ := Plan.unguarded_join.mp plain
    rw [Plan.ids_join, List.nodup_cons, List.mem_append, not_or, List.nodup_append] at distinct
    by_cases here : id = request.reader
    · rw [Plan.barred, Plan.barred, ← unchanged (here ▸ distinct.1.1), ← unchanged (here ▸ distinct.1.2)]
      exact wraps _ here (by cases operator <;> simp [Plan.kind, Join.kind])
    · rw [Plan.ids_join, List.mem_cons, List.mem_append] at inside
      refine wrapWithin_guarded apart others here rfl ?_
      rw [wrapBelow_join]
      by_cases within : request.reader ∈ left.ids
      · rw [← unchanged fun beyond => distinct.2.2.2 _ within _ beyond rfl]
        exact (former first distinct.2.1 within).bind fun _ holds => reaches_pure holds
      · have beyond := (inside.resolve_left (Ne.symm here)).resolve_left within
        rw [wrapWithin_none apart first within, pure_bind, ← unchanged within]
        exact (latter second distinct.2.2.1 beyond).bind fun _ holds => reaches_pure holds

end Environment

/-! All requests. -/

namespace Environment

open Planning EagerRequest

variable {ν : Type} {environment : Environment ν}

/-- One request more: a reader that has a barrier keeps it, any other reader gets the next id for its own. -/
theorem spliceEager_barred (estimates : ∀ plan, ∃ estimate, environment.estimator plan environment.statistics = .ok estimate)
    {plan : Plan} (plain : plan.Unguarded) (distinct : plan.ids.Nodup) {start before : Session ν}
    (older : ∀ id ∈ plan.ids, id.number < start.arena.allocated) {requests : List EagerRequest} {request : EagerRequest}
    (inside : request.reader ∈ plan.ids) (spent : start.Spent (readers requests).length before)
    (vacant : request.reader ∉ readers requests → before.arena.Vacant ⟨before.arena.allocated⟩) :
    Reaches before (start.Spent (readers (requests ++ [request])).length)
      (environment.spliceEager (plan.barred (barriers start.arena.allocated requests)) request)
      (plan.barred (barriers start.arena.allocated (requests ++ [request]))) := by
  have apart : ∀ barrier ∈ barriers start.arena.allocated requests, barrier.id ≠ request.reader := by
    rintro barrier member same
    have := older_of_barrier requests _ member
    have := older _ inside
    rw [same] at *
    omega
  rw [spliceEager_eq (Plan.mem_ids_barred inside)]
  refine Reaches.bind (wrapWithin_barred apart (fun id different => above?_snoc_other requests request _ different) ?_ plain distinct
    inside) fun _ (holds : start.Spent (readers (requests ++ [request])).length _) => reaches_pure holds
  intro reader here other
  have later := above?_snoc requests request start.arena.allocated request.reader
  rw [readers_snoc]
  by_cases served : request.reader ∈ readers requests
  · rw [if_pos served] at later ⊢
    obtain ⟨barrier, placed, same⟩ := List.mem_map.mp ((map_reader_barriers requests start.arena.allocated).symm ▸ served)
    obtain ⟨barrier, found⟩ : ∃ barrier, Barrier.above? (barriers start.arena.allocated requests) request.reader = some barrier :=
      Option.isSome_iff_exists.mp (List.find?_isSome.mpr ⟨barrier, placed, beq_iff_eq.mpr same⟩)
    rw [found, Option.map_some, Barrier.merged, if_pos (Barrier.reader_of_above found)] at later
    rw [← here] at found later
    have different : (Plan.step barrier.id (.eager barrier.reasons) reader).id ≠ request.reader :=
      apart barrier (List.mem_of_find?_eq_some found)
    rw [Plan.guarded_some found, Plan.guarded_some later, wrapWithin_of_ne different, wrapBelow_merge here]
    exact reaches_pure spent
  · rw [if_neg served] at later ⊢
    have missing : Barrier.above? (barriers start.arena.allocated requests) request.reader = none := by
      refine List.find?_eq_none.mpr fun barrier placed same => served ?_
      rw [← map_reader_barriers requests start.arena.allocated, ← beq_iff_eq.mp same]
      exact List.mem_map_of_mem placed
    have next : Barrier.above? (barriers start.arena.allocated (requests ++ [request])) request.reader =
        some ⟨⟨before.arena.allocated⟩, request.reader, [request.reason]⟩ := by
      rw [later, missing, spent.allocated]
      simp [Barrier.above?]
    rw [← here] at missing next
    rw [Plan.guarded_none missing, Plan.guarded_some next, wrapWithin, if_pos here, List.length_append]
    have wraps : environment.wrapReader reader request = environment.finish (.step · (.eager [request.reason]) reader) [] := by
      unfold wrapReader
      split
      · exact absurd rfl other
      · rfl
    rw [wraps]
    exact (finish_reaches estimates (fun _ => rfl) [] (vacant served)).bind fun _ one => reaches_pure (spent.trans one)

/-- All requests, whatever their order. -/
theorem spliceAll_barred (estimates : ∀ plan, ∃ estimate, environment.estimator plan environment.statistics = .ok estimate)
    {plan : Plan} (plain : plan.Unguarded) (distinct : plan.ids.Nodup) {before : Session ν}
    (older : ∀ id ∈ plan.ids, id.number < before.arena.allocated) {requests : List EagerRequest}
    (inside : ∀ request ∈ requests, request.reader ∈ plan.ids)
    (vacant : ∀ offset < (readers requests).length, before.arena.Vacant ⟨before.arena.allocated + offset⟩) :
    Reaches before (before.Spent (readers requests).length) (environment.spliceAll plan requests)
      (plan.barred (barriers before.arena.allocated requests)) := by
  induction requests using List.reverseRecOn with
  | nil =>
    rw [spliceAll, List.foldlM_nil]
    have untouched : plan.barred (barriers before.arena.allocated []) = plan := plan.barred_nil
    rw [untouched]
    exact reaches_pure (.refl before)
  | append_singleton requests request step =>
    have grows := readers_snoc requests request
    rw [spliceAll, List.foldlM_append]
    have earlier := step (fun other member => inside other (List.mem_append_left _ member)) fun offset less => vacant offset (by
      rw [grows]
      split
      · exact less
      · rw [List.length_append]
        omega)
    refine earlier.bind fun middle spent => ?_
    rw [List.foldlM_cons]
    refine (spliceEager_barred estimates plain distinct older (inside request (by simp)) spent fun fresh => ?_).bind
      fun _ holds => reaches_pure holds
    rw [grows, if_neg fresh, List.length_append] at vacant
    refine spent.vacant _ (Nat.le_refl _) ?_
    rw [spent.allocated]
    exact vacant _ (Nat.lt_succ_self _)

end Environment

/-! Splicing reads nothing of the trace, so noting each barrier in it makes no difference to anything else. -/

/-- The sessions differ at most in their traces. -/
structure Session.Alike {ν : Type} (first second : Session ν) : Prop where
  arena : first.arena = second.arena
  leafCalls : first.leafCalls = second.leafCalls
  cancelled : first.cancelled = second.cancelled

namespace Planning

variable {ν β γ : Type}

/-- Two runs end alike, whatever they traced. -/
def EndAlike : EStateM.Result PlanningError (Session ν) β → EStateM.Result PlanningError (Session ν) β → Prop
  | .ok value after, .ok other later => value = other ∧ after.Alike later
  | .error error after, .error other later => error = other ∧ after.Alike later
  | _, _ => False

/-- Started alike, two actions end alike. -/
def Matches (first second : Planning ν β) : Prop := ∀ before other, before.Alike other → EndAlike (first before) (second other)

theorem matches_pure (value : β) : Matches (pure value : Planning ν β) (pure value) := fun _ _ alike => ⟨rfl, alike⟩

theorem matches_throw (error : PlanningError) : Matches (throw error : Planning ν β) (throw error) := fun _ _ alike => ⟨rfl, alike⟩

theorem matches_ofExcept (value : Except PlanningError β) : Matches (ofExcept value : Planning ν β) (ofExcept value) := by
  cases value with
  | ok value => exact matches_pure value
  | error error => exact matches_throw error

theorem Matches.bind {first second : Planning ν β} {next other : β → Planning ν γ} (former : Matches first second)
    (latter : ∀ value, Matches (next value) (other value)) : Matches (first >>= next) (second >>= other) := by
  intro before start alike
  have ends := former before start alike
  change EndAlike (EStateM.bind first next before) (EStateM.bind second other start)
  unfold EStateM.bind
  cases ran : first before <;> cases finished : second start <;> rw [ran, finished] at ends
  case ok.ok value after result later =>
    obtain ⟨rfl, same⟩ := ends
    exact latter value after later same
  case error.error => exact ends
  all_goals exact ends.elim

theorem Matches.ite {condition : Prop} [Decidable condition] {first second other third : Planning ν β}
    (former : Matches first other) (latter : Matches second third) :
    Matches (if condition then first else second) (if condition then other else third) := by
  split
  exacts [former, latter]

/-- What is traced is read by nobody. -/
theorem matches_record (phase : PlanningPhase) (description : String) (metadata : TraceMetadata ν) :
    Matches (record phase description metadata) (pure ()) := fun _ _ alike => ⟨rfl, alike.arena, alike.leafCalls, alike.cancelled⟩

theorem matches_allocate : Matches (allocate : Planning ν PlanId) allocate := by
  rintro ⟨arena, trace, calls, cancelled⟩ ⟨_, other, _, _⟩ ⟨rfl, rfl, rfl⟩
  exact ⟨rfl, rfl, rfl, rfl⟩

theorem matches_get {next other : Session ν → Planning ν β}
    (rest : ∀ first second, first.Alike second → Matches (next first) (other second)) :
    Matches (get >>= next) (get >>= other) := fun before start alike => rest before start alike before start alike

theorem matches_set {first second : Session ν} (alike : first.Alike second) : Matches (set first : Planning ν PUnit) (set second) :=
  fun _ _ _ => ⟨rfl, alike⟩

theorem matches_setCardinality (id : PlanId) (rows : ν) : Matches (setCardinality id rows) (setCardinality id rows) := by
  refine matches_get fun first second alike => ?_
  rw [alike.arena]
  exact (matches_ofExcept _).bind fun _ => matches_set ⟨rfl, alike.leafCalls, alike.cancelled⟩

theorem matches_setSolved (id : PlanId) (predicates : List Expression) :
    Matches (setSolved id predicates : Planning ν Unit) (setSolved id predicates) := by
  refine matches_get fun first second alike => ?_
  rw [alike.arena]
  exact (matches_ofExcept _).bind fun _ => matches_set ⟨rfl, alike.leafCalls, alike.cancelled⟩

theorem matches_setOrder (id : PlanId) (order : ProvidedOrder) : Matches (setOrder id order : Planning ν Unit) (setOrder id order) := by
  refine matches_get fun first second alike => ?_
  rw [alike.arena]
  exact (matches_ofExcept _).bind fun _ => matches_set ⟨rfl, alike.leafCalls, alike.cancelled⟩

/-- What a caller gets of a run, its trace apart. -/
def answer (action : Planning ν (PlannedQuery ν)) (before : Session ν) : Except PlanningError (Plan × Arena ν) :=
  match action before with
  | .ok query _ => .ok (query.root, query.arena)
  | .error error _ => .error error

end Planning

namespace Environment

open Planning

variable {ν : Type} (environment : Environment ν)

theorem matches_finish (operator : PlanId → Plan) (solved : List Expression) :
    Matches (environment.finish operator solved) (environment.finish operator solved) := by
  unfold finish
  refine matches_allocate.bind fun id => Matches.bind (matches_ofExcept _) fun estimate => matches_get fun first second alike => ?_
  rw [alike.arena]
  exact (matches_setCardinality _ _).bind fun _ => (matches_setSolved _ _).bind fun _ => (matches_setOrder _ _).bind fun _ =>
    matches_pure _

theorem matches_wrapReader (reader : Plan) (request : EagerRequest) :
    Matches (environment.wrapReader reader request) (environment.wrapReader reader request) := by
  unfold wrapReader
  split
  · exact matches_pure _
  · exact environment.matches_finish _ _

theorem matches_wrapBelow (request : EagerRequest) (plan : Plan) :
    Matches (environment.wrapBelow request plan) (environment.wrapBelow request plan) := by
  have wraps (reader : Plan) (rebuild : Plan → Plan) := (environment.matches_wrapReader reader request).bind fun changed =>
    matches_pure (ν := ν) (some (rebuild changed))
  induction plan with
  | leaf id operator => exact matches_pure _
  | step id operator input step =>
    rw [wrapBelow]
    split
    · exact matches_pure _
    · exact .ite (wraps _ _) (step.bind fun _ => matches_pure _)
  | trail id parameters input inner former latter =>
    rw [wrapBelow]
    refine .ite (wraps _ _) (former.bind fun found => ?_)
    split
    · exact matches_pure _
    · exact .ite (wraps _ _) (latter.bind fun _ => matches_pure _)
  | join id operator left right former latter =>
    rw [wrapBelow]
    refine .ite (wraps _ _) (former.bind fun found => ?_)
    split
    · exact matches_pure _
    · exact .ite (wraps _ _) (latter.bind fun _ => matches_pure _)

theorem matches_spliceEager (root : Plan) (request : EagerRequest) :
    Matches (environment.spliceEager root request) (environment.spliceEager root request) := by
  by_cases found : request.reader ∈ root.ids
  · have within : Matches (environment.wrapWithin request root) (environment.wrapWithin request root) :=
      .ite ((environment.matches_wrapReader root request).bind fun _ => matches_pure _) (environment.matches_wrapBelow request root)
    rw [spliceEager_eq found]
    refine within.bind fun changed => ?_
    split
    · exact matches_pure _
    · exact matches_throw _
  · rw [spliceEager_unknown found]
    exact matches_throw _

theorem matches_spliceRecorded (root : Plan) (requests : List EagerRequest) :
    Matches (environment.spliceRecorded root requests) (environment.spliceAll root requests) := by
  induction requests generalizing root with
  | nil => exact matches_pure root
  | cons request rest step =>
    rw [spliceRecorded, spliceAll, List.foldlM_cons]
    refine (environment.matches_spliceEager root request).bind fun spliced => ?_
    have traced := (matches_record .eagerSplicing ("Eager above " ++ request.reader.render ++ ": " ++ request.reason.description)
      .empty).bind fun _ => step spliced
    rwa [pure_bind] at traced

theorem matches_applyConflicts (root : Plan) (analyzer : ConflictAnalyzer) :
    Matches (Planning.ofExcept (analyzer root) >>= environment.spliceRecorded root) (environment.applyConflicts root analyzer) :=
  (matches_ofExcept _).bind fun requests => environment.matches_spliceRecorded root requests

theorem answer_bind {β : Type} (first : Planning ν β) (next : β → Planning ν (PlannedQuery ν)) (before : Session ν) :
    answer (first >>= next) before = match first before with
      | .ok value after => answer (next value) after
      | .error error _ => .error error := by
  change answer (EStateM.bind first next) before = _
  unfold answer EStateM.bind
  cases first before <;> rfl

theorem answer_planned {first second : Planning ν Plan} (same : Matches first second) (session : Session ν) :
    answer (first >>= planned) session = answer (second >>= planned) session := by
  have ends := same session session ⟨rfl, rfl, rfl⟩
  rw [answer_bind, answer_bind]
  cases ran : first session <;> cases finished : second session <;> rw [ran, finished] at ends
  case ok.ok value after result later =>
    obtain ⟨rfl, alike⟩ := ends
    exact congrArg (fun arena => Except.ok (value, arena)) alike.arena
  case error.error error after fault later =>
    obtain ⟨rfl, -⟩ := ends
    rfl
  all_goals exact ends.elim

/-- Planning with conflicts answers what planning and then placing the barriers answers. -/
theorem answer_planWithConflicts [Quantity ν] (graph : MatchGraph) (analyzer : ConflictAnalyzer) (before : Session ν) :
    answer (environment.planWithConflicts graph analyzer) before = answer (do
      let query ← environment.plan graph
      planned (← environment.applyConflicts query.root analyzer)) before := by
  rw [planWithConflicts, plan, answer_bind, bind_assoc, answer_bind]
  cases environment.planRoot graph before with
  | error error after => rfl
  | ok root middle =>
    have spliced := answer_planned (environment.matches_applyConflicts root analyzer) middle
    rw [bind_assoc] at spliced
    exact spliced

open EagerRequest

variable {environment}

/-- Conflicts put every reader below a barrier of its own with the reasons given for it, whatever the order of the requests, and
leave the rest of the plan alone; whether this is done while planning or afterwards makes no difference. -/
theorem applyConflicts_guards [Quantity ν]
    (estimates : ∀ plan, ∃ estimate, environment.estimator plan environment.statistics = .ok estimate) {plan : Plan}
    (plain : .eager ∉ plan.kinds) (distinct : plan.ids.Nodup) {before : Session ν}
    (older : ∀ id ∈ plan.ids, id.number < before.arena.allocated) {analyzer : ConflictAnalyzer} {requests : List EagerRequest}
    (reported : analyzer plan = .ok requests) (inside : ∀ request ∈ requests, request.reader ∈ plan.ids)
    (vacant : ∀ offset < (readers requests).length, before.arena.Vacant ⟨before.arena.allocated + offset⟩) :
    (∃ root after, environment.applyConflicts plan analyzer before = .ok root after ∧
      plan.Guarded before.arena.allocated requests root ∧
      after.arena.allocated = before.arena.allocated + (readers requests).length) ∧
    ∀ (graph : MatchGraph) (start : Session ν), answer (environment.planWithConflicts graph analyzer) start = answer (do
      let query ← environment.plan graph
      planned (← environment.applyConflicts query.root analyzer)) start := by
  refine ⟨?_, fun graph start => environment.answer_planWithConflicts graph analyzer start⟩
  obtain ⟨after, ran, spent⟩ := spliceAll_barred estimates plain distinct older inside vacant
  refine ⟨_, after, ?_, ⟨Plan.withoutEagers_barred _ plain, Plan.barriers_perm plain distinct ?_ ?_⟩, spent.allocated⟩
  · rw [applyConflicts, reported]
    exact ran
  · rw [map_reader_barriers]
    exact readers_nodup requests
  · intro barrier member
    have reader := List.mem_map_of_mem (f := Barrier.reader) member
    rw [map_reader_barriers, mem_readers] at reader
    obtain ⟨request, asked, same⟩ := reader
    exact same ▸ inside request asked

end Environment

/-! A plan with a loop, two conflicts of the operator at its very bottom, and an arena in which someone wrote ahead. -/

namespace Plan

def looping : Plan :=
  .step ⟨0⟩ (.filter [.literal (.boolean true)]) (.trail ⟨1⟩
    ⟨.oneOrMore, "a", "b", "n", "m", [], [], ["r"], [], [], false⟩ (.leaf ⟨2⟩ (.allNodesScan "a"))
    (.step ⟨3⟩ (.expand ⟨"n", "m", .outgoing, []⟩ "r" .all) (.leaf ⟨4⟩ (.argument ["n"]))))

def conflicting : List EagerRequest :=
  [⟨⟨4⟩, ⟨"first", ⟨9⟩⟩⟩, ⟨⟨0⟩, ⟨"first", ⟨9⟩⟩⟩, ⟨⟨3⟩, ⟨"first", ⟨9⟩⟩⟩, ⟨⟨4⟩, ⟨"second", ⟨9⟩⟩⟩, ⟨⟨4⟩, ⟨"first", ⟨9⟩⟩⟩]

/-- The operators read from get the three next ids for their barriers. -/
theorem looping_guarded : ∃ root after, Environment.counting.applyConflicts looping (fun _ => .ok conflicting)
    ⟨⟨5, 0, .empty, .empty, .empty⟩, [], 0, false⟩ = .ok root after ∧ looping.Guarded 5 conflicting root ∧
      after.arena.allocated = 8 :=
  (Environment.applyConflicts_guards (fun plan => ⟨_, rfl⟩) (by decide) (by decide) (by decide) rfl (by decide)
    fun _ _ => ⟨rfl, rfl, rfl⟩).1

/-- A barrier is refused when its id has been written to before it was given away. -/
theorem occupied_refused : (∀ plan, ∃ estimate, Environment.counting.estimator plan Environment.counting.statistics = .ok estimate) ∧
    .eager ∉ (leaf ⟨0⟩ (.allNodesScan "a")).kinds ∧ (leaf ⟨0⟩ (.allNodesScan "a")).ids.Nodup ∧
    (∀ id ∈ (leaf ⟨0⟩ (.allNodesScan "a")).ids, id.number < 1) ∧
    ∃ after, Environment.counting.applyConflicts (.leaf ⟨0⟩ (.allNodesScan "a")) (fun _ => .ok [⟨⟨0⟩, ⟨"SET a.x", ⟨9⟩⟩⟩])
      ⟨⟨1, 0, ⟨[(⟨1⟩, 5)]⟩, .empty, .empty⟩, [], 0, false⟩ = .error (.attributeAlreadySet .cardinality ⟨1⟩) after :=
  ⟨fun plan => ⟨_, rfl⟩, by decide, by decide, by decide, _, rfl⟩

end Plan

end MatchPlanner
