import MatchPlanner.Proofs.Execution
import MatchPlanner.Proofs.Registry

/-! What is on record of a plan. An operator is entered as it stands above inputs that are on record already, and its id is larger than
theirs. Plans that are put together were finished one after the other, so they have no id in common, however many candidates were finished
and dropped between them. The operators of the plan that is returned are therefore told apart by their ids, and what the arena holds
under an id is what the estimator says of the operator with everything below it. -/

namespace MatchPlanner

namespace Plan

/-- The order of the rows of a plan, read off its operators. -/
def order : Plan → ProvidedOrder
  | .leaf _ (.indexSeek node _ property _ _) => ⟨[node ++ "." ++ property]⟩
  | .leaf _ _ => ⟨[]⟩
  | .step _ _ input => order input
  | .trail _ _ input _ => order input
  | .join _ .cartesianProduct left _ => order left
  | .join _ (.nodeHashJoin _) _ _ => ⟨[]⟩

theorem orderFrom_eq {ordered : PlanId → ProvidedOrder} {plan : Plan}
    (inputs : ∀ child ∈ plan.children, ordered child.id = child.order) : plan.orderFrom ordered = plan.order := by
  cases plan with
  | leaf id operator => cases operator <;> rfl
  | step id operator input => exact inputs input List.mem_cons_self
  | trail id parameters input inner => exact inputs input List.mem_cons_self
  | join id operator left right =>
    cases operator with
    | cartesianProduct => exact inputs left List.mem_cons_self
    | nodeHashJoin nodes => rfl

theorem subtrees_eq (plan : Plan) : plan.subtrees = plan :: plan.children.flatMap subtrees := by
  cases plan <;> simp [subtrees, children]

theorem ids_eq (plan : Plan) : plan.ids = plan.id :: plan.children.flatMap ids := by
  rw [ids, subtrees_eq, List.map_cons, List.map_flatMap]
  rfl

theorem id_mem_of_subtree {plans : List Plan} {node : Plan} (member : node ∈ plans.flatMap subtrees) : node.id ∈ plans.flatMap ids := by
  obtain ⟨plan, among, inside⟩ := List.mem_flatMap.mp member
  exact List.mem_flatMap.mpr ⟨plan, among, List.mem_map_of_mem inside⟩

theorem mem_subtrees_self (plan : Plan) : plan ∈ plan.subtrees := by
  rw [subtrees_eq]
  exact List.mem_cons_self

theorem subtrees_of_child {plan child : Plan} (input : child ∈ plan.children) : child.subtrees ⊆ plan.subtrees := by
  intro node member
  rw [subtrees_eq plan]
  exact List.mem_cons_of_mem _ (List.mem_flatMap.mpr ⟨child, input, member⟩)

/-- The inputs of an operator belong to the plan as the operator does. -/
theorem child_mem_subtrees {plan node child : Plan} (member : node ∈ plan.subtrees) (input : child ∈ node.children) :
    child ∈ plan.subtrees := by
  have above {plan : Plan} (parts : ∀ part ∈ plan.children, node ∈ part.subtrees → child ∈ part.subtrees)
      (member : node ∈ plan.subtrees) : child ∈ plan.subtrees := by
    rw [subtrees_eq] at member
    rcases List.mem_cons.mp member with rfl | inside
    · exact subtrees_of_child input (mem_subtrees_self child)
    · obtain ⟨part, among, inside⟩ := List.mem_flatMap.mp inside
      exact subtrees_of_child among (parts part among inside)
  induction plan with
  | leaf id operator => exact above (fun _ impossible => absurd impossible List.not_mem_nil) member
  | step id operator input further =>
    refine above (fun part among => ?_) member
    obtain rfl := List.mem_singleton.mp among
    exact further
  | trail id parameters input inner former latter =>
    refine above (fun part among => ?_) member
    rcases List.mem_pair.mp among with rfl | rfl
    · exact former
    · exact latter
  | join id operator left right former latter =>
    refine above (fun part among => ?_) member
    rcases List.mem_pair.mp among with rfl | rfl
    · exact former
    · exact latter

end Plan

variable {ν : Type}

/-- What an arena holds of an operator is what there is to say of it. -/
structure Environment.Describes (environment : Environment ν) (arena : Arena ν) (node : Plan) : Prop where
  older : ∀ child ∈ node.children, child.id.number < node.id.number
  estimated : ∃ estimate, environment.estimator node environment.statistics = .ok estimate ∧
    arena.cardinalities.get? node.id = some estimate.rows
  ordered : arena.providedOrders.get? node.id = some node.order

/-- Plans of which no two operators share an id, all of them finished since `low` ids were given away. -/
structure Environment.OnFile (environment : Environment ν) (low : Nat) (session : Session ν) (plans : List Plan) : Prop where
  order : low ≤ session.arena.allocated
  distinct : (plans.flatMap Plan.ids).Nodup
  within : ∀ id ∈ plans.flatMap Plan.ids, low ≤ id.number ∧ id.number < session.arena.allocated
  described : ∀ node ∈ plans.flatMap Plan.subtrees, environment.Describes session.arena node

namespace Environment

variable {environment : Environment ν} {low : Nat} {start later : Session ν} {plans others : List Plan}

theorem Describes.mono {node : Plan} (describes : environment.Describes start.arena node) (grows : start.Grows later) :
    environment.Describes later.arena node where
  older := describes.older
  estimated := by
    obtain ⟨estimate, estimated, recorded⟩ := describes.estimated
    exact ⟨estimate, estimated, grows.cardinalities _ _ recorded⟩
  ordered := grows.providedOrders _ _ describes.ordered

namespace OnFile

theorem nil (order : low ≤ start.arena.allocated) : environment.OnFile low start [] :=
  ⟨order, List.nodup_nil, fun _ impossible => absurd impossible List.not_mem_nil, fun _ impossible => absurd impossible List.not_mem_nil⟩

theorem mono (onFile : environment.OnFile low start plans) (grows : start.Grows later) : environment.OnFile low later plans where
  order := Nat.le_trans onFile.order grows.allocated
  distinct := onFile.distinct
  within id member := (onFile.within id member).imp_right fun most => Nat.lt_of_lt_of_le most grows.allocated
  described node member := (onFile.described node member).mono grows

theorem perm (onFile : environment.OnFile low start plans) (sorted : plans.Perm others) : environment.OnFile low start others where
  order := onFile.order
  distinct := ((sorted.flatMap_right _).nodup_iff).mp onFile.distinct
  within id member := onFile.within id ((sorted.flatMap_right _).mem_iff.mpr member)
  described node member := onFile.described node ((sorted.flatMap_right _).mem_iff.mpr member)

/-- Plans finished later have ids of their own. -/
theorem append (former : environment.OnFile low start plans) (grows : start.Grows later)
    (latter : environment.OnFile start.arena.allocated later others) : environment.OnFile low later (plans ++ others) := by
  have early := former.mono grows
  refine ⟨early.order, ?_, ?_, ?_⟩
  · rw [List.flatMap_append]
    refine List.nodup_append.mpr ⟨former.distinct, latter.distinct, ?_⟩
    rintro id member _ other rfl
    exact Nat.lt_irrefl _ (Nat.lt_of_lt_of_le (former.within id member).2 (latter.within id other).1)
  · rw [List.flatMap_append]
    intro id member
    rcases List.mem_append.mp member with first | second
    · exact early.within id first
    · exact ⟨Nat.le_trans former.order (latter.within id second).1, (latter.within id second).2⟩
  · rw [List.flatMap_append]
    intro node member
    exact (List.mem_append.mp member).elim (early.described node) (latter.described node)

end OnFile

end Environment

/-! Actions that file plans. -/

namespace Planning

variable {β γ : Type} {start : Session ν}

/-- The records have grown, and a value returned is as stated of the session that is left. -/
def Filed (before : Session ν) (post : Session ν → β → Prop) : EStateM.Result PlanningError (Session ν) β → Prop
  | .ok value after => before.Grows after ∧ post after value
  | .error _ after => before.Grows after

/-- What is said of an action holds from every session that has come of `start`. -/
def Files (start : Session ν) (action : Planning ν β) (post : Session ν → β → Prop) : Prop :=
  ∀ before, start.Grows before → Filed before post (action before)

theorem Files.result {action : Planning ν β} {post : Session ν → β → Prop} {after : Session ν} {value : β}
    (files : Files start action post) (ran : action start = .ok value after) : post after value := by
  have outcome := files start (.refl start)
  rw [ran] at outcome
  exact outcome.2

theorem Files.later {action : Planning ν β} {post : Session ν → β → Prop} {later : Session ν} (files : Files start action post)
    (grows : start.Grows later) : Files later action post := fun before more => files before (grows.trans more)

theorem files_pure {value : β} {post : Session ν → β → Prop} (holds : ∀ later, start.Grows later → post later value) :
    Files start (pure value) post := fun before grows => ⟨.refl before, holds before grows⟩

theorem files_throw (error : PlanningError) (post : Session ν → β → Prop) : Files start (throw error) post :=
  fun before _ => Session.Grows.refl before

theorem Files.bind {first : Planning ν β} {next : β → Planning ν γ} {middle : Session ν → β → Prop} {post : Session ν → γ → Prop}
    (files : Files start first middle)
    (rest : ∀ value later, start.Grows later → middle later value → Files later (next value) post) :
    Files start (first >>= next) post := by
  intro before grows
  have started := files before grows
  cases ran : first before with
  | error error after =>
    rw [ran] at started
    rw [bind_run_error ran]
    exact started
  | ok value after =>
    rw [ran] at started
    have continued := rest value after (grows.trans started.1) started.2 after (.refl after)
    rw [bind_run_ok ran]
    cases finished : next value after with
    | error error last =>
      rw [finished] at continued
      exact started.1.trans continued
    | ok result last =>
      rw [finished] at continued
      exact ⟨started.1.trans continued.1, continued.2⟩

theorem Files.ite {condition : Prop} [Decidable condition] {first second : Planning ν β} {post : Session ν → β → Prop}
    (holds : condition → Files start first post) (fails : ¬ condition → Files start second post) :
    Files start (if condition then first else second) post := by
  split
  next met => exact holds met
  next unmet => exact fails unmet

theorem Files.attempt {action : Planning ν β} {post : Session ν → β → Prop} (files : Files start action post) :
    Files start (attempt action) fun later result => ∀ value, result = .ok value → post later value := by
  intro before grows
  have outcome := files before grows
  rw [attempt_apply]
  cases ran : action before with
  | ok value after =>
    rw [ran] at outcome
    refine ⟨outcome.1, fun result same => ?_⟩
    cases same
    exact outcome.2
  | error error after =>
    rw [ran] at outcome
    simp only
    split
    · exact ⟨outcome, fun value impossible => by cases impossible⟩
    · exact outcome

theorem ofExcept_eq_ok {value : Except PlanningError β} {result : β} {before after : Session ν}
    (ran : (ofExcept value : Planning ν β) before = .ok result after) : value = .ok result ∧ after = before := by
  cases value with
  | ok result => cases ran; exact ⟨rfl, rfl⟩
  | error error => cases ran

/-- What the three tables have in common: an entry is made in one place, or the run ends. -/
theorem write_eq_ok {α : Type} {write : Session ν → Except PlanningError α} {update : Session ν → α → Session ν}
    {before after : Session ν}
    (ran : (do let session ← get; let table ← ofExcept (write session); set (update session table) : Planning ν PUnit) before =
      .ok ⟨⟩ after) : ∃ table, write before = .ok table ∧ after = update before table := by
  obtain ⟨session, _, got, ran⟩ := bind_eq_ok ran
  cases got
  obtain ⟨table, _, written, ran⟩ := bind_eq_ok ran
  obtain ⟨written, rfl⟩ := ofExcept_eq_ok written
  cases ran
  exact ⟨table, written, rfl⟩

/-- What is known of every value an action returns, whatever it files. -/
theorem files_of_yields {action : Planning ν β} {known : Session ν → β → Prop} (yields : ∀ final, Yields final action (known final)) :
    Files start action known := by
  intro before _
  cases ran : action before with
  | ok value after =>
    have outcome := yields after before
    rw [ran] at outcome
    exact ⟨outcome.1, outcome.2 (.refl after)⟩
  | error error after =>
    have outcome := yields after before
    rw [ran] at outcome
    exact outcome

theorem Files.afterCheck {condition : Prop} [Decidable condition] {action : Planning ν β} {post : Session ν → β → Prop}
    (files : Files start action post) : Files start (if condition then do checkCancellation; action else action) post :=
  .ite (fun _ => (files_of_yields fun _ => yields_checkCancellation).bind fun _ _ grows _ => files.later grows) fun _ => files

end Planning

namespace Environment

open Planning

variable {environment : Environment ν} {low : Nat} {start : Session ν}

/-- An operator that is finished has the next id; its rows and its order are on record. -/
theorem finish_ok {operator : PlanId → Plan} {solved : List Expression} {before after : Session ν} {plan : Plan}
    (ran : environment.finish operator solved before = .ok plan after) :
    plan = operator ⟨before.arena.allocated⟩ ∧ after.arena.allocated = before.arena.allocated + 1 ∧
      (∃ estimate, environment.estimator plan environment.statistics = .ok estimate ∧
        after.arena.cardinalities.get? plan.id = some estimate.rows) ∧
      after.arena.providedOrders.get? plan.id = some (plan.orderFrom before.arena.orderOf) := by
  obtain ⟨id, _, allocated, ran⟩ := bind_eq_ok ran
  cases allocated
  obtain ⟨estimate, _, estimated, ran⟩ := bind_eq_ok ran
  obtain ⟨session, _, got, ran⟩ := bind_eq_ok ran
  cases got
  obtain ⟨⟨⟩, counted, rows, ran⟩ := bind_eq_ok ran
  obtain ⟨⟨⟩, solvedBy, predicates, ran⟩ := bind_eq_ok ran
  obtain ⟨⟨⟩, _, order, ran⟩ := bind_eq_ok ran
  cases ran
  obtain ⟨found, rfl⟩ := ofExcept_eq_ok estimated
  obtain ⟨_, entered, rfl⟩ := write_eq_ok rows
  obtain ⟨_, -, rfl⟩ := write_eq_ok predicates
  obtain ⟨_, ordered, rfl⟩ := write_eq_ok order
  exact ⟨rfl, rfl, ⟨estimate, found, (AttributeTable.set_ok entered).2⟩, (AttributeTable.set_ok ordered).2⟩

/-- An operator above plans that are on file is on file as well, and so are the plans beside them. -/
theorem OnFile.finish {operator : PlanId → Plan} {solved : List Expression} {parts rest : List Plan} {before after : Session ν}
    {plan : Plan} (onFile : environment.OnFile low before (parts ++ rest)) (labelled : ∀ id, (operator id).id = id)
    (built : ∀ id, (operator id).children = parts) (grows : before.Grows after)
    (ran : environment.finish operator solved before = .ok plan after) : environment.OnFile low after (plan :: rest) := by
  obtain ⟨rfl, allocated, estimated, ordered⟩ := finish_ok ran
  have above := onFile.mono grows
  have ids : (operator ⟨before.arena.allocated⟩ :: rest).flatMap Plan.ids =
      ⟨before.arena.allocated⟩ :: (parts ++ rest).flatMap Plan.ids := by
    rw [List.flatMap_cons, Plan.ids_eq, labelled, built, List.cons_append, List.flatMap_append]
  have subtrees : (operator ⟨before.arena.allocated⟩ :: rest).flatMap Plan.subtrees =
      operator ⟨before.arena.allocated⟩ :: (parts ++ rest).flatMap Plan.subtrees := by
    rw [List.flatMap_cons, Plan.subtrees_eq, built, List.cons_append, List.flatMap_append]
  refine ⟨above.order, ?_, ?_, ?_⟩
  · rw [ids]
    exact List.nodup_cons.mpr ⟨fun member => Nat.lt_irrefl _ (onFile.within _ member).2, onFile.distinct⟩
  · rw [ids]
    intro id member
    rcases List.mem_cons.mp member with rfl | old
    · rw [allocated]
      exact ⟨onFile.order, Nat.lt_succ_self _⟩
    · exact above.within id old
  · rw [subtrees]
    intro node member
    rcases List.mem_cons.mp member with rfl | old
    · have inside {child : Plan} (input : child ∈ (operator ⟨before.arena.allocated⟩).children) :
          child ∈ (parts ++ rest).flatMap Plan.subtrees :=
        List.mem_flatMap.mpr ⟨child, List.mem_append_left _ (built _ ▸ input), child.mem_subtrees_self⟩
      refine ⟨fun child input => ?_, estimated, ?_⟩
      · rw [labelled]
        exact (onFile.within child.id (Plan.id_mem_of_subtree (inside input))).2
      · rw [ordered, Plan.orderFrom_eq fun child input => ?_]
        rw [Arena.orderOf, (onFile.described child (inside input)).ordered, Option.getD_some]
    · exact above.described node old

theorem files_finish {operator : PlanId → Plan} (parts rest : List Plan) (solved : List Expression)
    (labelled : ∀ id, (operator id).id = id) (built : ∀ id, (operator id).children = parts)
    (onFile : environment.OnFile low start (parts ++ rest)) :
    Files start (environment.finish operator solved) fun after plan => environment.OnFile low after (plan :: rest) := by
  intro before grows
  have outcome := files_of_yields (fun final => environment.yields_finish operator solved labelled) before grows
  cases ran : environment.finish operator solved before with
  | error error after =>
    rw [ran] at outcome
    exact outcome
  | ok plan after =>
    rw [ran] at outcome
    exact ⟨outcome.1, (onFile.mono grows).finish labelled built outcome.1 ran⟩

theorem files_leaf (order : low ≤ start.arena.allocated) (operator : Leaf) (solved : List Expression) :
    Files start (environment.finish (.leaf · operator) solved) fun after plan => environment.OnFile low after [plan] :=
  files_finish [] [] solved (fun _ => rfl) (fun _ => rfl) (.nil order)

theorem files_step {input : Plan} {rest : List Plan} (onFile : environment.OnFile low start (input :: rest)) (operator : Step)
    (solved : List Expression) :
    Files start (environment.finish (.step · operator input) solved) fun after plan => environment.OnFile low after (plan :: rest) :=
  files_finish [input] rest solved (fun _ => rfl) (fun _ => rfl) onFile

theorem files_trail {input inner : Plan} (onFile : environment.OnFile low start [input, inner]) (parameters : TrailParameters)
    (solved : List Expression) :
    Files start (environment.finish (.trail · parameters input inner) solved) fun after plan => environment.OnFile low after [plan] :=
  files_finish [input, inner] [] solved (fun _ => rfl) (fun _ => rfl) onFile

theorem files_join {left right : Plan} {rest : List Plan} (onFile : environment.OnFile low start (left :: right :: rest))
    (operator : Join) (solved : List Expression) :
    Files start (environment.finish (.join · operator left right) solved) fun after plan => environment.OnFile low after (plan :: rest) :=
  files_finish [left, right] rest solved (fun _ => rfl) (fun _ => rfl) onFile

/-- A filter, if there is one, takes the place of its input. -/
theorem files_filter {input : Plan} {rest : List Plan} (onFile : environment.OnFile low start (input :: rest))
    (predicates : List Expression) :
    Files start (environment.filter input predicates) fun after plan => environment.OnFile low after (plan :: rest) := by
  unfold filter
  exact .ite (fun _ => files_pure fun later grows => onFile.mono grows)
    fun _ => files_step onFile _ _

theorem files_estimate (plan : Plan) : Files start (environment.estimate plan) fun _ _ => True :=
  files_of_yields fun _ => environment.yields_estimate plan

/-! Inside a quantified pattern. -/

theorem files_placeInner (progress : InnerProgress) (onFile : environment.OnFile low start [progress.plan])
    (checks : List Expression) :
    Files start (environment.placeInner progress checks) fun after placed => environment.OnFile low after [placed.plan] := by
  unfold placeInner
  exact (files_filter onFile _).bind fun plan later grows filed => files_pure fun last more => filed.mono more

theorem files_innerSteps (siblings : List RelationshipProducer) (earlier steps : List TrailStep) {progress : InnerProgress}
    (onFile : environment.OnFile low start [progress.plan]) :
    Files start (environment.innerSteps siblings earlier progress steps) fun after last => environment.OnFile low after [last.plan] := by
  induction steps generalizing start earlier progress with
  | nil => exact files_pure fun later grows => onFile.mono grows
  | cons step rest further =>
    unfold innerSteps
    exact (files_step onFile _ _).bind fun expanded _ _ filed =>
      (files_placeInner ⟨expanded, _, _⟩ filed _).bind fun placed _ _ filed => further _ filed

theorem files_innerPlan (order : low ≤ start.arena.allocated) (pattern : QuantifiedPattern) (classification : Classification)
    (bound : NameSet) (innerStart : String) (steps : List TrailStep) (siblings : List RelationshipProducer) :
    Files start (environment.innerPlan pattern classification bound innerStart steps siblings) fun after inner =>
      environment.OnFile low after [inner] := by
  unfold innerPlan
  refine (files_leaf order _ _).bind fun argument _ _ filed =>
    (files_placeInner ⟨argument, _, _⟩ filed _).bind fun started _ _ filed =>
    (files_innerSteps _ _ _ filed).bind fun last _ _ filed => ?_
  split
  · exact files_pure fun later grows => filed.mono grows
  · exact files_throw _ _

theorem files_varExpandCandidate {source : Plan} (onFile : environment.OnFile low start [source]) (request : QuantifiedRequest)
    (classification : Classification) (needed bound : NameSet) (direction : TraversalDirection) :
    Files start (environment.varExpandCandidate source request classification needed bound direction) fun after planned =>
      environment.OnFile low after [planned.plan] := by
  unfold varExpandCandidate
  split
  · exact files_throw _ _
  · split
    · exact files_throw _ _
    · exact (files_step onFile _ _).bind fun plan _ _ filed =>
        (files_estimate plan).bind fun _ _ grows _ => files_pure fun later more => filed.mono (grows.trans more)

theorem files_trailCandidate {source : Plan} (onFile : environment.OnFile low start [source]) (request : QuantifiedRequest)
    (classification : Classification) (needed bound : NameSet) (direction : TraversalDirection) :
    Files start (environment.trailCandidate source request classification needed bound direction) fun after planned =>
      environment.OnFile low after [planned.plan] := by
  unfold trailCandidate
  refine (files_of_yields fun _ => TrailRequest.yields_build _).bind fun ⟨parameters, equality⟩ built begun _ =>
    (files_innerPlan (Nat.le_refl built.arena.allocated) _ _ _ _ _ _).bind fun inner later grows filed =>
    (files_trail ((onFile.mono begun).append grows filed) _ _).bind fun loop _ _ filed => ?_
  cases equality with
  | none => exact (files_estimate loop).bind fun _ _ grows _ => files_pure fun later more => filed.mono (grows.trans more)
  | some equality =>
    exact (files_filter filed _).bind fun plan _ _ filed =>
      (files_estimate plan).bind fun _ _ grows _ => files_pure fun later more => filed.mono (grows.trans more)

theorem files_patternCandidate {source : Plan} (onFile : environment.OnFile low start [source]) (request : QuantifiedRequest)
    (direction : TraversalDirection) :
    Files start (environment.patternCandidate source request direction) fun after planned =>
      environment.OnFile low after [planned.plan] :=
  .ite (fun _ => files_varExpandCandidate onFile _ _ _ _ _) fun _ => files_trailCandidate onFile _ _ _ _ _

/-- Nothing has been found yet. -/
private theorem onFile_none {β : Type} {plan : β → Plan} : ∀ kept : β, none = some kept → environment.OnFile low start [plan kept] :=
  fun _ impossible => by cases impossible

variable [Quantity ν]

theorem files_cheapestDirection {candidate : TraversalDirection → Planning ν (PlannedPattern ν)}
    (each : ∀ direction, Files start (candidate direction) fun after planned => environment.OnFile low after [planned.plan])
    (directions : List TraversalDirection) {best : Option (PlannedPattern ν)} (failure : Option PlanningError)
    (former : ∀ kept, best = some kept → environment.OnFile low start [kept.plan]) :
    Files start (cheapestDirection candidate best failure directions) fun after result =>
      ∀ kept, result.1 = some kept → environment.OnFile low after [kept.plan] := by
  induction directions generalizing start best failure with
  | nil => exact files_pure fun later grows kept same => (former kept same).mono grows
  | cons direction rest further =>
    unfold cheapestDirection
    refine (each direction).attempt.bind fun outcome later grows tried => ?_
    have others := fun direction => (each direction).later grows
    cases outcome with
    | ok planned => exact further others _ (keepCheaper_some (fun kept same => (former kept same).mono grows) (tried planned rfl))
    | error error => exact further others _ fun kept same => (former kept same).mono grows

theorem files_planPattern {source : Plan} (onFile : environment.OnFile low start [source]) (request : QuantifiedRequest) :
    Files start (environment.planPattern source request) fun after planned => environment.OnFile low after [planned.plan] := by
  rw [planPattern_eq]
  refine .ite (fun _ => files_throw _ _) fun _ =>
    (files_cheapestDirection (files_patternCandidate onFile request) _ none onFile_none).bind fun result later grows kept => ?_
  obtain ⟨best, failure⟩ := result
  cases best with
  | some best => exact files_pure fun last more => (kept best rfl).mono more
  | none => cases failure <;> exact files_throw _ _

/-! Partial plans. -/

omit [Quantity ν] in
theorem files_placeReady {plan : Plan} {rest : List Plan} (onFile : environment.OnFile low start (plan :: rest)) (ledger : Ledger) :
    Files start (environment.placeReady plan ledger) fun after placed => environment.OnFile low after (placed.1 :: rest) := by
  unfold placeReady
  exact (files_filter onFile _).bind fun plan _ _ filed => files_pure fun last more => filed.mono more

omit [Quantity ν] in
theorem files_candidate {plan : Plan} (onFile : environment.OnFile low start [plan]) (remaining : Ledger) (description : String)
    (connection : Option Nat) :
    Files start (environment.candidate plan remaining description connection) fun after candidate =>
      environment.OnFile low after [candidate.plan] :=
  (files_estimate plan).bind fun _ _ grows _ => files_pure fun _ more => onFile.mono (grows.trans more)

theorem files_expand (graph : MatchGraph) (index : Nat) (connection : Connection) {input : Plan}
    (onFile : environment.OnFile low start [input]) (ledger : Ledger) :
    Files start (environment.expand graph index connection input ledger) fun after candidate =>
      environment.OnFile low after [candidate.plan] := by
  unfold expand
  cases connection with
  | relationship relationship =>
    exact (files_step onFile _ _).bind fun expanded _ _ filed => (files_placeReady filed _).bind fun placed _ _ filed =>
      files_candidate filed _ _ _
  | quantified pattern =>
    exact (files_planPattern onFile _).bind fun planned _ _ filed => (files_placeReady filed _).bind fun placed _ _ filed =>
      files_candidate filed _ _ _

theorem files_cheapestLeaf (order : low ≤ start.arena.allocated) (ledger : Ledger) {best : Option (Candidate ν)}
    (former : ∀ kept, best = some kept → environment.OnFile low start [kept.plan]) (leaves : List LeafCandidate) :
    Files start (environment.cheapestLeaf ledger best leaves) fun after result =>
      ∀ kept, result = some kept → environment.OnFile low after [kept.plan] := by
  induction leaves generalizing start best with
  | nil => exact files_pure fun later grows kept same => (former kept same).mono grows
  | cons leaf rest further =>
    unfold cheapestLeaf
    exact (files_leaf order _ _).bind fun scan _ begun filed => (files_placeReady filed _).bind fun placed _ grows filed =>
      (files_candidate filed _ _ _).bind fun candidate _ more filed => further filed.order
        (keepCheaper_some (fun kept same => (former kept same).mono (begun.trans (grows.trans more))) filed)

theorem files_bestLeaf (order : low ≤ start.arena.allocated) (node : String) (ledger : Ledger) :
    Files start (environment.bestLeaf node ledger) fun after candidate => environment.OnFile low after [candidate.plan] := by
  unfold bestLeaf
  refine (files_of_yields fun _ => environment.yields_leafCandidates _ _).bind fun leaves _ begun _ =>
    (files_cheapestLeaf (Nat.le_trans order begun.allocated) _ onFile_none _).bind fun best _ _ former => ?_
  cases best with
  | some best => exact files_pure fun last more => (former best rfl).mono more
  | none => exact files_throw _ _

/-! Where a component starts. -/

omit [Quantity ν] in
theorem files_argumentStart (order : low ≤ start.arena.allocated) (graph : MatchGraph) (ledger : Ledger) :
    Files start (environment.argumentStart graph ledger) fun after candidate => environment.OnFile low after [candidate.plan] := by
  unfold argumentStart
  exact (files_leaf order _ _).bind fun argument _ _ filed => (files_placeReady filed _).bind fun placed _ _ filed =>
    files_candidate filed _ _ _

theorem files_endpointStart (order : low ≤ start.arena.allocated) (graph : MatchGraph) (index : Nat) (connection : Connection)
    (ledger : Ledger) (endpoints : List String) {best : Option (Candidate ν)}
    (former : ∀ kept, best = some kept → environment.OnFile low start [kept.plan]) :
    Files start (environment.endpointStart graph index connection ledger best endpoints) fun after result =>
      ∀ kept, result = some kept → environment.OnFile low after [kept.plan] := by
  induction endpoints generalizing start best with
  | nil => exact files_pure fun later grows kept same => (former kept same).mono grows
  | cons endpoint rest further =>
    unfold endpointStart
    refine (files_bestLeaf order _ _).bind fun leaf _ begun filed =>
      (files_expand graph index connection filed _).attempt.bind fun outcome later grows tried => ?_
    have order' := Nat.le_trans order (begun.trans grows).allocated
    have former' := fun kept same => (former kept same).mono (begun.trans grows)
    cases outcome with
    | ok candidate => exact further order' (keepCheaper_some former' (tried _ rfl))
    | error error => exact further order' former'

theorem files_cartesianStart (order : low ≤ start.arena.allocated) (graph : MatchGraph) (index : Nat) (connection : Connection)
    (ledger : Ledger) :
    Files start (environment.cartesianStart graph index connection ledger) fun after candidate =>
      environment.OnFile low after [candidate.plan] := by
  unfold cartesianStart
  exact (files_bestLeaf order _ _).bind fun left middle _ former =>
    (files_bestLeaf (Nat.le_refl middle.arena.allocated) _ _).bind fun right _ grows latter =>
    (files_join (former.append grows latter) _ _).bind fun product _ _ filed =>
    (files_estimate product).bind fun _ _ more _ => files_expand _ _ _ (filed.mono more) _

theorem files_connectionStart (order : low ≤ start.arena.allocated) (graph : MatchGraph) (index : Nat) (connection : Connection)
    (ledger : Ledger) :
    Files start (environment.connectionStart graph index connection ledger) fun after result =>
      ∀ kept, result = some kept → environment.OnFile low after [kept.plan] := by
  unfold connectionStart
  refine (files_endpointStart order _ _ _ _ _ onFile_none).bind fun single middle begun former =>
    .ite (fun _ => (files_cartesianStart (Nat.le_trans order begun.allocated) _ _ _ _).attempt.bind fun outcome later grows tried => ?_)
      fun _ => files_pure fun later grows kept same => (former kept same).mono grows
  cases outcome with
  | error error => exact files_pure fun last more kept same => (former kept same).mono (grows.trans more)
  | ok cartesian =>
    cases single with
    | none =>
      refine files_pure fun last more kept same => ?_
      cases same
      exact (tried cartesian rfl).mono more
    | some single =>
      refine files_pure fun last more kept same => ?_
      cases same
      split
      · exact (tried cartesian rfl).mono more
      · exact (former single rfl).mono (grows.trans more)

theorem files_cheapestStart (order : low ≤ start.arena.allocated) (graph : MatchGraph) (ledger : Ledger)
    (connections : List (Nat × Connection)) {best : Option (Candidate ν)}
    (former : ∀ kept, best = some kept → environment.OnFile low start [kept.plan]) :
    Files start (environment.cheapestStart graph ledger best connections) fun after result =>
      ∀ kept, result = some kept → environment.OnFile low after [kept.plan] := by
  induction connections generalizing start best with
  | nil => exact files_pure fun later grows kept same => (former kept same).mono grows
  | cons first rest further =>
    unfold cheapestStart
    refine (files_connectionStart order _ _ _ _).bind fun started later grows tried => ?_
    have order' := Nat.le_trans order grows.allocated
    have former' := fun kept same => (former kept same).mono grows
    cases started with
    | some candidate => exact further order' (keepCheaper_some former' (tried _ rfl))
    | none => exact further order' former'

theorem files_chooseStart (order : low ≤ start.arena.allocated) (graph : MatchGraph) (component : Component) (ledger : Ledger) :
    Files start (environment.chooseStart graph component ledger) fun after candidate =>
      environment.OnFile low after [candidate.plan] := by
  unfold chooseStart
  refine .ite (fun _ => files_argumentStart order _ _) fun _ => ?_
  split
  · split
    · exact files_throw _ _
    · exact files_bestLeaf order _ _
  · refine (files_cheapestStart order _ _ _ onFile_none).bind fun best later grows former => ?_
    cases best with
    | some best => exact files_pure fun last more => (former best rfl).mono more
    | none =>
      exact (files_bestLeaf (Nat.le_trans order grows.allocated) _ _).bind fun leaf _ _ filed => files_expand _ _ _ filed _

/-! How it grows. -/

theorem files_hashJoinCandidate {plan : Plan} (onFile : environment.OnFile low start [plan]) (index : Nat)
    (relationship : PatternRelationship) (ledger : Ledger) :
    Files start (environment.hashJoinCandidate index relationship plan ledger) fun after result =>
      ∀ kept, result = some kept → environment.OnFile low after [kept.plan] := by
  unfold hashJoinCandidate
  refine .ite (fun _ => files_pure fun _ _ => onFile_none) fun _ => .ite (fun _ => files_pure fun _ _ => onFile_none) fun _ =>
    (files_bestLeaf (Nat.le_refl start.arena.allocated) _ _).bind fun leaf _ begun filed =>
    .ite (fun _ => files_pure fun _ _ => onFile_none) fun _ =>
    (files_step filed _ _).bind fun right _ grows filed =>
    (files_join (onFile.append (begun.trans grows) filed) _ _).bind fun join _ _ filed =>
    (files_placeReady filed _).bind fun placed _ _ filed => (files_candidate filed _ _ _).bind fun candidate _ _ filed =>
    files_pure fun last more kept same => ?_
  cases same
  exact filed.mono more

/-- What a search would go on with is on file. -/
def SearchFiled (environment : Environment ν) (low : Nat) (session : Session ν) (search : GrowthSearch ν) : Prop :=
  ∀ kept, search.best = some kept → environment.OnFile low session [kept.2.2.plan]

omit [Quantity ν] in
theorem searchFiled_none : environment.SearchFiled low start .none := onFile_none

omit [Quantity ν] in
theorem SearchFiled.mono {search : GrowthSearch ν} {later : Session ν} (former : environment.SearchFiled low start search)
    (grows : start.Grows later) : environment.SearchFiled low later search := fun kept same => (former kept same).mono grows

theorem SearchFiled.offer {search : GrowthSearch ν} {candidate : Candidate ν} (former : environment.SearchFiled low start search)
    (filed : environment.OnFile low start [candidate.plan]) (index : Nat) (connection : Connection) :
    environment.SearchFiled low start (search.offer index connection candidate) := by
  change ∀ kept, keepCheaper (fun kept => kept.2.2.estimate) search.best (index, connection, candidate) = some kept → _
  exact keepCheaper_some former filed

/-- Offering a hash join, however the search goes on from its result. -/
theorem files_offerJoin {plan : Plan} (onFile : environment.OnFile low start [plan]) {search : GrowthSearch ν}
    (former : environment.SearchFiled low start search) (index : Nat) (relationship : PatternRelationship) (ledger : Ledger)
    {next : Option (Candidate ν) → Planning ν (GrowthSearch ν)} (skips : next none = pure search)
    (offers : ∀ candidate, next (some candidate) = pure (search.offer index (.relationship relationship) candidate)) :
    Files start (environment.hashJoinCandidate index relationship plan ledger >>= next) (environment.SearchFiled low) := by
  refine (files_hashJoinCandidate onFile _ _ _).bind fun outcome later grows joined => ?_
  cases outcome with
  | none =>
    rw [skips]
    exact files_pure fun last more => former.mono (grows.trans more)
  | some candidate =>
    rw [offers]
    exact files_pure fun last more => ((former.mono grows).offer (joined candidate rfl) _ _).mono more

theorem files_growThrough {plan : Plan} (onFile : environment.OnFile low start [plan]) (graph : MatchGraph) (ledger : Ledger)
    {search : GrowthSearch ν} (former : environment.SearchFiled low start search) (index : Nat) (connection : Connection) :
    Files start (environment.growThrough graph plan ledger search index connection) (environment.SearchFiled low) := by
  unfold growThrough
  refine (files_estimate plan).bind fun _ _ begun _ => (files_expand graph index connection (onFile.mono begun) _).attempt.bind
    fun outcome later grows tried => ?_
  have onFile' := onFile.mono (begun.trans grows)
  have former' := former.mono (begun.trans grows)
  cases outcome with
  | error error =>
    have failed : environment.SearchFiled low later (search.fail error) := former'
    cases connection with
    | quantified pattern => exact files_pure fun last more => failed.mono more
    | relationship relationship => exact files_offerJoin onFile' failed index relationship ledger rfl fun _ => rfl
  | ok candidate =>
    have offered := former'.offer (tried candidate rfl) index connection
    cases connection with
    | quantified pattern => exact files_pure fun last more => offered.mono more
    | relationship relationship => exact files_offerJoin onFile' offered index relationship ledger rfl fun _ => rfl

theorem files_cheapestGrowth {plan : Plan} (onFile : environment.OnFile low start [plan]) (graph : MatchGraph) (ledger : Ledger)
    (connections : List (Nat × Connection)) {search : GrowthSearch ν} (former : environment.SearchFiled low start search) :
    Files start (environment.cheapestGrowth graph plan ledger search connections) (environment.SearchFiled low) := by
  induction connections generalizing start search with
  | nil => exact files_pure fun later grows => former.mono grows
  | cons first rest further =>
    unfold cheapestGrowth
    exact .ite (fun _ => (files_growThrough onFile _ _ former _ _).bind fun _ _ grows tried => further (onFile.mono grows) tried)
      fun _ => further onFile former

theorem files_grow (graph : MatchGraph) (component : Component) (rounds steps : Nat) {current : Candidate ν}
    (onFile : environment.OnFile low start [current.plan]) (remaining : List (Nat × Connection)) :
    Files start (environment.grow graph component rounds steps current remaining) fun after result =>
      environment.OnFile low after [result.1.plan] := by
  induction rounds generalizing start steps current remaining with
  | zero => exact files_pure fun later grows => onFile.mono grows
  | succ rounds further =>
    unfold grow
    refine .ite (fun _ => files_pure fun later grows => onFile.mono grows) fun _ => .afterCheck ?_
    refine (files_cheapestGrowth onFile _ _ _ searchFiled_none).bind fun search later grows tried => ?_
    cases found : search.best with
    | none => cases search.failure <;> exact files_throw _ _
    | some best =>
      exact (files_of_yields fun _ => yields_record _ _ _).bind fun _ _ more _ => further _ ((tried best found).mono more) _

theorem files_planComponent (order : low ≤ start.arena.allocated) (graph : MatchGraph) (component : Component) (steps : Nat)
    (ledger : Ledger) :
    Files start (environment.planComponent graph component steps ledger) fun after result =>
      environment.OnFile low after [result.1.plan] := by
  unfold planComponent
  exact (files_chooseStart order _ _ _).bind fun first _ _ started => (files_of_yields fun _ => yields_record _ _ _).bind
    fun _ _ more _ => files_grow _ _ _ _ (started.mono more) _

/-! The whole graph. -/

theorem files_planComponents (order : low ≤ start.arena.allocated) (graph : MatchGraph) (steps : Nat) (ledger : Ledger)
    (components : List Component) :
    Files start (environment.planComponents graph steps ledger components) fun after result =>
      environment.OnFile low after (result.1.map Candidate.plan) := by
  induction components generalizing low start steps ledger with
  | nil => exact files_pure fun later grows => .nil (Nat.le_trans order grows.allocated)
  | cons component rest further =>
    unfold planComponents
    exact (files_of_yields fun _ => yields_checkCancellation).bind fun _ _ begun _ =>
      (files_planComponent (Nat.le_trans order begun.allocated) _ _ _ _).bind fun planned middle _ former =>
      (further (Nat.le_refl middle.arena.allocated) _ _).bind fun others _ grows latter =>
      files_pure fun last more => (former.append grows latter).mono more

omit [Quantity ν] in
theorem files_product {left right : Plan} {rest : List Plan} (onFile : environment.OnFile low start (left :: right :: rest))
    (ledger : Ledger) :
    Files start (environment.product left right ledger) fun after placed => environment.OnFile low after (placed.1 :: rest) := by
  unfold product
  exact (files_join onFile _ _).bind fun joined _ _ filed => files_placeReady filed _

omit [Quantity ν] in
theorem files_combineLegs (legs : List (Candidate ν)) {root : Plan}
    (onFile : environment.OnFile low start (root :: legs.map Candidate.plan)) (ledger : Ledger) :
    Files start (environment.combineLegs root ledger legs) fun after combined => environment.OnFile low after [combined.1] := by
  induction legs generalizing start root ledger with
  | nil => exact files_pure fun later grows => onFile.mono grows
  | cons leg rest further =>
    unfold combineLegs
    exact (files_of_yields fun _ => yields_checkCancellation).bind fun _ _ begun _ =>
      (files_product (onFile.mono begun) _).bind fun combined _ _ filed =>
      (files_of_yields fun _ => yields_record _ _ _).bind fun _ _ more _ => further (filed.mono more) _

theorem files_combine {planned : List (Candidate ν)} (onFile : environment.OnFile low start (planned.map Candidate.plan))
    (graph : MatchGraph) (ledger : Ledger) :
    Files start (environment.combine graph planned ledger) fun after combined => environment.OnFile low after [combined.1] := by
  have sorted := onFile.perm ((planned.mergeSort_perm fun first second =>
    Quantity.sortsBefore first.estimate.cost second.estimate.cost).symm.map Candidate.plan)
  unfold combine
  split
  · exact .ite (fun _ => files_throw _ _) fun _ => (files_argumentStart onFile.order _ _).bind fun argument _ _ filed =>
      files_pure fun last more => filed.mono more
  next first legs ordered =>
    rw [ordered] at sorted
    refine .ite (fun _ => files_combineLegs legs sorted _) fun _ =>
      (files_leaf (Nat.le_refl start.arena.allocated) _ _).bind fun argument later grows filed =>
      (files_product ?_ _).bind fun root _ _ filed => files_combineLegs legs filed _
    exact (sorted.append grows filed).perm List.perm_append_comm

theorem files_compose (graph : MatchGraph) :
    Files start (environment.compose graph) fun after root => environment.OnFile start.arena.allocated after [root] := by
  unfold compose
  refine (files_of_yields fun _ => yields_record _ _ _).bind fun _ _ begun _ =>
    (files_planComponents begun.allocated _ _ _ _).bind fun planned _ _ filed =>
    (files_combine filed _ _).bind fun combined _ _ filed => ?_
  obtain ⟨root, remaining⟩ := combined
  cases remaining with
  | nil => exact files_pure fun last more => filed.mono more
  | cons entry others => exact files_throw _ _

/-- A run that returns a plan put it together in an empty arena, and nothing has been allocated or entered since. -/
theorem plan_composed {graph : MatchGraph} {before after : Session ν} {query : PlannedQuery ν}
    (ran : environment.plan graph before = .ok query after) : ∃ begun composed : Session ν, begun.arena = .empty ∧
      environment.compose graph begun = .ok query.root composed ∧ query.arena = composed.arena := by
  obtain ⟨root, finished, planned, ran⟩ := bind_eq_ok ran
  cases ran
  obtain ⟨⟨⟩, begun, reset, planned⟩ := bind_eq_ok planned
  cases reset
  obtain ⟨⟨⟩, _, configured, planned⟩ := bind_eq_ok planned
  obtain ⟨-, rfl⟩ := ofExcept_eq_ok configured
  obtain ⟨⟨⟩, _, accepted, planned⟩ := bind_eq_ok planned
  obtain ⟨-, rfl⟩ := ofExcept_eq_ok accepted
  obtain ⟨composed, middle, found, planned⟩ := bind_eq_ok planned
  obtain ⟨estimate, _, estimated, ended⟩ := bind_eq_ok planned
  obtain ⟨-, rfl⟩ := ofExcept_eq_ok estimated
  obtain ⟨⟨⟩, _, recorded, returned⟩ := bind_eq_ok ended
  cases recorded
  cases returned
  exact ⟨_, _, rfl, found, rfl⟩

end Environment

end MatchPlanner
