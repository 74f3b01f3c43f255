import MatchPlanner.Proofs.Alternatives
import MatchPlanner.Proofs.Records

/-! Requests are held against the plan they are made for. Each of them is looked up in a plan that already has the barriers of the requests
before it, and a barrier has an id that the plan did not have. As long as no request names such an id, looking a reader up in the plan
with barriers is looking it up in the plan without. -/

namespace MatchPlanner

variable {ν : Type}

/-- The id is one of those given away between two sessions. -/
def Session.Gives (before after : Session ν) (id : PlanId) : Prop :=
  before.arena.allocated ≤ id.number ∧ id.number < after.arena.allocated

instance (before after : Session ν) (id : PlanId) : Decidable (before.Gives after id) :=
  inferInstanceAs (Decidable (before.arena.allocated ≤ id.number ∧ id.number < after.arena.allocated))

/-- Requests whose readers all belong to the plan are accepted. Otherwise the first one that names a stranger is reported. -/
structure Plan.Screens {β : Type} (plan : Plan) (requests : List EagerRequest)
    (outcome : EStateM.Result PlanningError (Session ν) β) : Prop where
  accepts : (∃ value after, outcome = .ok value after) ↔ ∀ request ∈ requests, request.reader ∈ plan.ids
  refuses : ∀ request, requests.find? (fun request => decide (request.reader ∉ plan.ids)) = some request →
    ∃ after, outcome = .error (.unknownPlanId request.reader) after

namespace Plan.Screens

variable {β : Type} {plan : Plan} {request : EagerRequest} {rest : List EagerRequest}
  {outcome : EStateM.Result PlanningError (Session ν) β}

theorem nil (value : β) (after : Session ν) : plan.Screens [] (.ok value after : EStateM.Result PlanningError (Session ν) β) where
  accepts := ⟨fun _ _ impossible => absurd impossible List.not_mem_nil, fun _ => ⟨value, after, rfl⟩⟩
  refuses _ impossible := by cases impossible

theorem stranger (absent : request.reader ∉ plan.ids) (after : Session ν) :
    plan.Screens (request :: rest) (.error (.unknownPlanId request.reader) after : EStateM.Result PlanningError (Session ν) β) where
  accepts := by
    refine ⟨?_, fun all => absurd (all request List.mem_cons_self) absent⟩
    rintro ⟨value, after, impossible⟩
    cases impossible
  refuses other first := by
    simp only [List.find?_cons, decide_eq_true absent] at first
    cases first
    exact ⟨after, rfl⟩

theorem cons (present : request.reader ∈ plan.ids) (screens : plan.Screens rest outcome) : plan.Screens (request :: rest) outcome where
  accepts := by
    rw [screens.accepts, List.forall_mem_cons]
    exact ⟨fun all => ⟨present, all⟩, And.right⟩
  refuses other first := by
    simp only [List.find?_cons, decide_eq_false (not_not.mpr present)] at first
    exact screens.refuses other first

/-- Only the error raised matters, not what is returned otherwise. -/
theorem congr {γ : Type} {other : EStateM.Result PlanningError (Session ν) γ} {requests : List EagerRequest}
    (same : Planning.raised? other = Planning.raised? outcome) (screens : plan.Screens requests outcome) : plan.Screens requests other := by
  cases outcome <;> cases other <;> cases same
  case ok.ok result later value after =>
    refine ⟨⟨fun _ => screens.accepts.mp ⟨result, later, rfl⟩, fun _ => ⟨value, after, rfl⟩⟩, fun request first => ?_⟩
    obtain ⟨_, impossible⟩ := screens.refuses request first
    cases impossible
  case error.error error later after =>
    refine ⟨⟨?_, fun all => ?_⟩, fun request first => ?_⟩
    · rintro ⟨_, _, impossible⟩
      cases impossible
    · obtain ⟨_, _, impossible⟩ := screens.accepts.mpr all
      cases impossible
    · obtain ⟨_, refused⟩ := screens.refuses request first
      cases refused
      exact ⟨after, rfl⟩

end Plan.Screens

/-- What becomes of a plan whose reader is wrapped: it has the ids it had and those given away meanwhile, unless the id for a new barrier
has been written to already. -/
inductive Session.Serves (before : Session ν) (plan : Plan) : EStateM.Result PlanningError (Session ν) (Option Plan) → Prop where
  | served {changed : Plan} {after : Session ν} {count : Nat} (spent : before.Spent count after)
    (ids : ∀ id, id ∈ changed.ids ↔ before.Gives after id ∨ id ∈ plan.ids) : Serves before plan (.ok (some changed) after)
  | occupied {error : PlanningError} {after : Session ν} (recorded : ¬ before.arena.Vacant ⟨before.arena.allocated⟩)
    (given : before.arena.allocated < after.arena.allocated) : Serves before plan (.error error after)

namespace Session

variable {before after : Session ν}

theorem not_gives_self (id : PlanId) : ¬ before.Gives before id := fun gives => Nat.not_lt_of_le gives.1 gives.2

/-- Nothing is given away and no id is new. -/
theorem Serves.kept {plan changed : Plan} (same : changed.ids = plan.ids) : before.Serves plan (.ok (some changed) before) :=
  .served (.refl before) fun id => by simp [same, not_gives_self]

end Session

namespace Environment

open Planning

variable {environment : Environment ν} {request : EagerRequest} {before : Session ν}

/-- An Eager passes the search on unless the reader is right below it, as any other step does. -/
theorem wrapBelow_input {id : PlanId} {operator : Step} {input : Plan} (passes : operator.kind ≠ .eager ∨ input.id ≠ request.reader) :
    environment.wrapBelow request (.step id operator input) =
      do return (← environment.wrapWithin request input).map (.step id operator) := by
  rcases passes with other | elsewhere
  · exact wrapBelow_step other
  · by_cases eager : operator.kind = .eager
    · cases operator <;> try cases eager
      rw [wrapBelow_eager elsewhere, wrapWithin_of_ne elsewhere]
    · exact wrapBelow_step eager

theorem spliceAll_cons (root : Plan) (request : EagerRequest) (rest : List EagerRequest) :
    environment.spliceAll root (request :: rest) =
      environment.spliceEager root request >>= fun changed => environment.spliceAll changed rest :=
  List.foldlM_cons ..

variable [Quantity ν]

end Environment

/-! Requests for an operator, for a barrier and for nobody. -/

def EagerRequest.writing (reader : Nat) : EagerRequest := ⟨⟨reader⟩, ⟨"DELETE b", ⟨7⟩⟩⟩

namespace Plan

open Planning EagerRequest

end Plan

end MatchPlanner
