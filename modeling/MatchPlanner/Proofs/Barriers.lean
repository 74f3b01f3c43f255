import MatchPlanner.Barrier
import Mathlib.Data.List.Induction
import Mathlib.Data.List.Nodup

/-! Barriers. What requests for barriers come to is said of the requests alone: one barrier for each reader, in the order in which
the readers are first named. Putting them into a plan is a walk over the plan that asks at each operator for its barrier. -/

namespace MatchPlanner

/-- An Eager and the operator directly below it. -/
structure Barrier where
  id : PlanId
  reader : PlanId
  reasons : List EagerReason
deriving DecidableEq

namespace Plan

/-- The Eagers of a plan, inner plans included. -/
def barriers (plan : Plan) : List Barrier :=
  plan.subtrees.filterMap fun subtree =>
    match subtree with
    | .step id (.eager reasons) input => some ⟨id, input.id, reasons⟩
    | _ => none

def withoutEagers : Plan → Plan
  | .leaf id operator => .leaf id operator
  | .step id operator input => if operator.kind = .eager then withoutEagers input else .step id operator (withoutEagers input)
  | .trail id parameters input inner => .trail id parameters (withoutEagers input) (withoutEagers inner)
  | .join id operator left right => .join id operator (withoutEagers left) (withoutEagers right)

end Plan

namespace EagerRequest

/-- The operators to be put below a barrier, in the order in which they are first named. -/
def readers (requests : List EagerRequest) : List PlanId := (requests.map EagerRequest.reader).eraseDups

def reasonsFor (reader : PlanId) (requests : List EagerRequest) : List EagerReason :=
  ((requests.filter fun request => request.reader == reader).map EagerRequest.reason).eraseDups

/-- The barriers that requests ask for when ids are given away from a number on. -/
def barriers (first : Nat) (requests : List EagerRequest) : List Barrier :=
  (readers requests).zipIdx.map fun (reader, position) => ⟨⟨first + position⟩, reader, reasonsFor reader requests⟩

end EagerRequest

/-- A plan with the barriers of some requests in it and nothing else changed. -/
structure Plan.Guarded (plan : Plan) (first : Nat) (requests : List EagerRequest) (root : Plan) : Prop where
  kept : root.withoutEagers = plan
  barriers : root.barriers.Perm (EagerRequest.barriers first requests)

/-- The barrier above an operator, if it has one. -/
def Barrier.above? (barriers : List Barrier) (id : PlanId) : Option Barrier := barriers.find? fun barrier => barrier.reader == id

theorem Barrier.reader_of_above {barriers : List Barrier} {id : PlanId} {barrier : Barrier}
    (found : Barrier.above? barriers id = some barrier) : barrier.reader = id := by
  simpa using List.find?_some found

namespace Plan

/-- A plan with the barrier of its root, if there is one. -/
def guarded (barriers : List Barrier) (plan : Plan) : Plan :=
  match Barrier.above? barriers plan.id with
  | some barrier => .step barrier.id (.eager barrier.reasons) plan
  | none => plan

theorem guarded_some {barriers : List Barrier} {plan : Plan} {barrier : Barrier}
    (found : Barrier.above? barriers plan.id = some barrier) :
    plan.guarded barriers = .step barrier.id (.eager barrier.reasons) plan := by
  rw [guarded, found]

theorem guarded_none {barriers : List Barrier} {plan : Plan} (missing : Barrier.above? barriers plan.id = none) :
    plan.guarded barriers = plan := by
  rw [guarded, missing]

/-- A plan with a barrier above each reader. -/
def barred (barriers : List Barrier) : Plan → Plan
  | .leaf id operator => guarded barriers (.leaf id operator)
  | .step id operator input => guarded barriers (.step id operator (barred barriers input))
  | .trail id parameters input inner => guarded barriers (.trail id parameters (barred barriers input) (barred barriers inner))
  | .join id operator left right => guarded barriers (.join id operator (barred barriers left) (barred barriers right))

@[simp] theorem ids_leaf (id : PlanId) (operator : Leaf) : (leaf id operator).ids = [id] := rfl

@[simp] theorem ids_step (id : PlanId) (operator : Step) (input : Plan) : (step id operator input).ids = id :: input.ids := rfl

@[simp] theorem ids_trail (id : PlanId) (parameters : TrailParameters) (input inner : Plan) :
    (trail id parameters input inner).ids = id :: (input.ids ++ inner.ids) := by
  simp [ids, subtrees, Plan.id]

@[simp] theorem ids_join (id : PlanId) (operator : Join) (left right : Plan) :
    (join id operator left right).ids = id :: (left.ids ++ right.ids) := by
  simp [ids, subtrees, Plan.id]

/-- No operator of the plan is an Eager. -/
def Unguarded (plan : Plan) : Prop := .eager ∉ plan.kinds

@[simp] theorem unguarded_step {id : PlanId} {operator : Step} {input : Plan} :
    (step id operator input).Unguarded ↔ operator.kind ≠ .eager ∧ input.Unguarded := by
  simp [Unguarded, kinds, subtrees, kind, eq_comm]

@[simp] theorem unguarded_trail {id : PlanId} {parameters : TrailParameters} {input inner : Plan} :
    (trail id parameters input inner).Unguarded ↔ input.Unguarded ∧ inner.Unguarded := by
  simp [Unguarded, kinds, subtrees, kind]

@[simp] theorem unguarded_join {id : PlanId} {operator : Join} {left right : Plan} :
    (join id operator left right).Unguarded ↔ left.Unguarded ∧ right.Unguarded := by
  cases operator <;> simp [Unguarded, kinds, subtrees, kind, Join.kind]

theorem guarded_congr {barriers others : List Barrier} {plan : Plan}
    (same : Barrier.above? barriers plan.id = Barrier.above? others plan.id) : plan.guarded barriers = plan.guarded others := by
  rw [guarded, guarded, same]

/-- Only the barriers above the operators of a plan matter to it. -/
theorem barred_congr {barriers others : List Barrier} {plan : Plan}
    (same : ∀ id ∈ plan.ids, Barrier.above? barriers id = Barrier.above? others id) :
    plan.barred barriers = plan.barred others := by
  induction plan with
  | leaf id operator => exact guarded_congr (same id (by simp))
  | step id operator input step =>
    rw [barred, barred, step fun inside member => same inside (by simp [member])]
    exact guarded_congr (same id (by simp))
  | trail id parameters input inner former latter =>
    rw [barred, barred, former fun inside member => same inside (by simp [member]),
      latter fun inside member => same inside (by simp [member])]
    exact guarded_congr (same id (by simp))
  | join id operator left right former latter =>
    rw [barred, barred, former fun inside member => same inside (by simp [member]),
      latter fun inside member => same inside (by simp [member])]
    exact guarded_congr (same id (by simp))

theorem barred_nil (plan : Plan) : plan.barred [] = plan := by
  induction plan with
  | leaf id operator => rfl
  | step id operator input step => rw [barred, step]; rfl
  | trail id parameters input inner former latter => rw [barred, former, latter]; rfl
  | join id operator left right former latter => rw [barred, former, latter]; rfl

theorem mem_ids_guarded {barriers : List Barrier} {plan : Plan} {id : PlanId} (member : id ∈ plan.ids) :
    id ∈ (plan.guarded barriers).ids := by
  rw [guarded]
  split
  · exact List.mem_cons_of_mem _ member
  · exact member

theorem mem_ids_barred {barriers : List Barrier} {plan : Plan} {id : PlanId} (member : id ∈ plan.ids) :
    id ∈ (plan.barred barriers).ids := by
  induction plan with
  | leaf own operator => exact mem_ids_guarded member
  | step own operator input step =>
    refine mem_ids_guarded ?_
    rw [ids_step, List.mem_cons] at member ⊢
    exact member.imp_right step
  | trail own parameters input inner former latter =>
    refine mem_ids_guarded ?_
    rw [ids_trail, List.mem_cons, List.mem_append] at member ⊢
    exact member.imp_right (Or.imp former latter)
  | join own operator left right former latter =>
    refine mem_ids_guarded ?_
    rw [ids_join, List.mem_cons, List.mem_append] at member ⊢
    exact member.imp_right (Or.imp former latter)

theorem withoutEagers_guarded (barriers : List Barrier) (plan : Plan) :
    (plan.guarded barriers).withoutEagers = plan.withoutEagers := by
  rw [guarded]
  split
  · exact if_pos rfl
  · rfl

/-- Taking the barriers away gives the plan back. -/
theorem withoutEagers_barred (barriers : List Barrier) {plan : Plan} (plain : plan.Unguarded) :
    (plan.barred barriers).withoutEagers = plan := by
  induction plan with
  | leaf id operator => rw [barred, withoutEagers_guarded]; rfl
  | step id operator input step =>
    obtain ⟨other, below⟩ := unguarded_step.mp plain
    rw [barred, withoutEagers_guarded, withoutEagers, if_neg other, step below]
  | trail id parameters input inner former latter =>
    obtain ⟨first, second⟩ := unguarded_trail.mp plain
    rw [barred, withoutEagers_guarded, withoutEagers, former first, latter second]
  | join id operator left right former latter =>
    obtain ⟨first, second⟩ := unguarded_join.mp plain
    rw [barred, withoutEagers_guarded, withoutEagers, former first, latter second]

theorem barriers_step {id : PlanId} {operator : Step} {input : Plan} (other : operator.kind ≠ .eager) :
    (step id operator input).barriers = input.barriers := by
  cases operator <;> first | rfl | exact absurd rfl other

@[simp] theorem barriers_trail (id : PlanId) (parameters : TrailParameters) (input inner : Plan) :
    (trail id parameters input inner).barriers = input.barriers ++ inner.barriers := by
  simp [Plan.barriers, subtrees]

@[simp] theorem barriers_join (id : PlanId) (operator : Join) (left right : Plan) :
    (join id operator left right).barriers = left.barriers ++ right.barriers := by
  simp [Plan.barriers, subtrees]

theorem barriers_guarded (barriers : List Barrier) (plan : Plan) :
    (plan.guarded barriers).barriers = (Barrier.above? barriers plan.id).toList ++ plan.barriers := by
  rw [guarded]
  cases found : Barrier.above? barriers plan.id with
  | none => rfl
  | some barrier =>
    have reader := Barrier.reader_of_above found
    change ⟨barrier.id, plan.id, barrier.reasons⟩ :: plan.barriers = barrier :: plan.barriers
    rw [← reader]

/-- The Eagers come in the order of the operators they stand above. -/
theorem barriers_barred (barriers : List Barrier) {plan : Plan} (plain : plan.Unguarded) :
    (plan.barred barriers).barriers = plan.ids.filterMap (Barrier.above? barriers) := by
  have cons (id : PlanId) (rest : List PlanId) : (id :: rest).filterMap (Barrier.above? barriers) =
      (Barrier.above? barriers id).toList ++ rest.filterMap (Barrier.above? barriers) := by
    cases found : Barrier.above? barriers id <;> simp [found]
  induction plan with
  | leaf id operator => rw [barred, barriers_guarded, ids_leaf, cons]; rfl
  | step id operator input step =>
    obtain ⟨other, below⟩ := unguarded_step.mp plain
    rw [barred, barriers_guarded, barriers_step other, step below, ids_step, cons]
    rfl
  | trail id parameters input inner former latter =>
    obtain ⟨first, second⟩ := unguarded_trail.mp plain
    rw [barred, barriers_guarded, barriers_trail, former first, latter second, ids_trail, cons, List.filterMap_append]
    rfl
  | join id operator left right former latter =>
    obtain ⟨first, second⟩ := unguarded_join.mp plain
    rw [barred, barriers_guarded, barriers_join, former first, latter second, ids_join, cons, List.filterMap_append]
    rfl

/-- Barriers of different readers, all of them in the plan, are its Eagers up to order. -/
theorem barriers_perm {barriers : List Barrier} {plan : Plan} (plain : plan.Unguarded) (distinct : plan.ids.Nodup)
    (once : (barriers.map Barrier.reader).Nodup) (inside : ∀ barrier ∈ barriers, barrier.reader ∈ plan.ids) :
    (plan.barred barriers).barriers.Perm barriers := by
  rw [barriers_barred barriers plain]
  refine (List.perm_ext_iff_of_nodup (distinct.filterMap ?_) (List.Nodup.of_map _ once)).mpr fun barrier => ?_
  · intro first second barrier former latter
    exact (Barrier.reader_of_above former).symm.trans (Barrier.reader_of_above latter)
  · rw [List.mem_filterMap]
    constructor
    · rintro ⟨id, -, found⟩
      exact List.mem_of_find?_eq_some found
    · intro member
      refine ⟨barrier.reader, inside barrier member, ?_⟩
      cases found : Barrier.above? barriers barrier.reader with
      | none => exact absurd (beq_self_eq_true _) (List.find?_eq_none.mp found barrier member)
      | some other =>
        rw [List.inj_on_of_nodup_map once (List.mem_of_find?_eq_some found) member (Barrier.reader_of_above found)]

end Plan

/-! One request more. -/

private theorem eraseDups_snoc {α : Type} [DecidableEq α] (values : List α) (value : α) :
    (values ++ [value]).eraseDups = if value ∈ values.eraseDups then values.eraseDups else values.eraseDups ++ [value] := by
  rw [List.eraseDups_append, List.removeAll, List.filter_singleton]
  by_cases member : value ∈ values
  · simp [member]
  · simp [member]
    rfl

/-- A barrier that serves a request if it stands above its reader. -/
def Barrier.merged (request : EagerRequest) (barrier : Barrier) : Barrier :=
  if barrier.reader = request.reader then { barrier with reasons := mergeReason barrier.reasons request.reason } else barrier

theorem Barrier.merged_reader (request : EagerRequest) (barrier : Barrier) : (barrier.merged request).reader = barrier.reader := by
  rw [Barrier.merged]
  split <;> rfl

namespace EagerRequest

variable (requests : List EagerRequest) (request : EagerRequest) (first : Nat)

theorem readers_snoc : readers (requests ++ [request]) =
    if request.reader ∈ readers requests then readers requests else readers requests ++ [request.reader] := by
  rw [readers, List.map_append, List.map_singleton, eraseDups_snoc]
  rfl

theorem readers_nodup : (readers requests).Nodup := by
  induction requests using List.reverseRecOn with
  | nil => exact List.nodup_nil
  | append_singleton requests request step =>
    rw [readers_snoc]
    split
    · exact step
    next missing => exact List.nodup_append.mpr ⟨step, List.nodup_singleton _, by
        rintro reader member _ (here | ⟨_, ⟨⟩⟩)
        exact fun same => missing (same ▸ member)⟩

theorem mem_readers {reader : PlanId} : reader ∈ readers requests ↔ ∃ request ∈ requests, request.reader = reader := by
  rw [readers, List.mem_eraseDups, List.mem_map]

theorem reasonsFor_snoc (reader : PlanId) : reasonsFor reader (requests ++ [request]) =
    if reader = request.reader then mergeReason (reasonsFor reader requests) request.reason else reasonsFor reader requests := by
  rw [reasonsFor, List.filter_append, List.map_append]
  by_cases same : reader = request.reader
  · rw [if_pos same, List.filter_singleton]
    simp only [same, beq_self_eq_true, cond_true, List.map_singleton]
    rw [eraseDups_snoc]
    rfl
  · rw [if_neg same, List.filter_singleton, beq_eq_false_iff_ne.mpr (Ne.symm same)]
    simp [reasonsFor]

theorem reasonsFor_nil {reader : PlanId} (missing : reader ∉ readers requests) : reasonsFor reader requests = [] := by
  rw [reasonsFor, List.filter_eq_nil_iff.mpr]
  · rfl
  · intro request member same
    exact missing ((mem_readers requests).mpr ⟨request, member, beq_iff_eq.mp same⟩)

theorem map_reader_barriers : (barriers first requests).map Barrier.reader = readers requests := by
  rw [barriers, List.map_map]
  exact List.zipIdx_map_fst 0 _

/-- A further request is merged into the barrier of its reader, or gets the last barrier. -/
theorem barriers_snoc : barriers first (requests ++ [request]) = (barriers first requests).map (Barrier.merged request) ++
    if request.reader ∈ readers requests then [] else [⟨⟨first + (readers requests).length⟩, request.reader, [request.reason]⟩] := by
  have earlier (entries : List (PlanId × Nat)) : (entries.map fun (reader, position) =>
      Barrier.mk ⟨first + position⟩ reader (reasonsFor reader (requests ++ [request]))) =
      (entries.map fun (reader, position) => Barrier.mk ⟨first + position⟩ reader (reasonsFor reader requests)).map
        (Barrier.merged request) := by
    rw [List.map_map]
    refine List.map_congr_left fun (reader, position) _ => ?_
    simp only [Function.comp_apply, reasonsFor_snoc, Barrier.merged]
    split <;> rfl
  rw [barriers, readers_snoc, earlier, barriers]
  split
  next => rw [List.append_nil]
  next missing =>
    rw [List.zipIdx_append, List.map_append, List.map_append]
    simp [Barrier.merged, reasonsFor_nil requests missing, mergeReason]

theorem above?_snoc (id : PlanId) : Barrier.above? (barriers first (requests ++ [request])) id =
    ((Barrier.above? (barriers first requests) id).map (Barrier.merged request)).or
      (Barrier.above? (if request.reader ∈ readers requests then []
        else [⟨⟨first + (readers requests).length⟩, request.reader, [request.reason]⟩]) id) := by
  have kept : (fun barrier : Barrier => barrier.reader == id) ∘ Barrier.merged request = fun barrier => barrier.reader == id := by
    funext barrier
    exact congrArg (· == id) (barrier.merged_reader request)
  rw [barriers_snoc, Barrier.above?, List.find?_append, List.find?_map, kept]
  rfl

/-- The barriers of other readers stay as they are. -/
theorem above?_snoc_other {id : PlanId} (different : id ≠ request.reader) :
    Barrier.above? (barriers first requests) id = Barrier.above? (barriers first (requests ++ [request])) id := by
  have unplaced : Barrier.above? (if request.reader ∈ readers requests then []
      else [⟨⟨first + (readers requests).length⟩, request.reader, [request.reason]⟩]) id = none := by
    split
    · rfl
    · simp [Barrier.above?, Ne.symm different]
  rw [above?_snoc, unplaced, Option.or_none]
  cases found : Barrier.above? (barriers first requests) id with
  | none => rfl
  | some barrier =>
    have elsewhere : barrier.reader ≠ request.reader := Barrier.reader_of_above found ▸ different
    rw [Option.map_some, Barrier.merged, if_neg elsewhere]

theorem older_of_barrier {barrier : Barrier} (member : barrier ∈ barriers first requests) : first ≤ barrier.id.number := by
  obtain ⟨entry, -, rfl⟩ := List.mem_map.mp member
  exact Nat.le_add_right _ _

end EagerRequest

end MatchPlanner
