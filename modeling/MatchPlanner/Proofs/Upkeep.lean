import MatchPlanner.Proofs.Recognition
import MatchPlanner.Proofs.Selections

/-! Upkeep of the records. A barrier is put below operators that were entered long ago, and nothing is entered for them again. That is
as it should be: how many rows an operator is expected to return depends on the rows of its inputs, never on their costs, and a barrier
passes rows and order on as they come. So what is on record of a plan is right for the plan with barriers too. -/

namespace MatchPlanner

variable {ν : Type}

namespace Plan

theorem orderFrom_congr {plan : Plan} {ordered other : PlanId → ProvidedOrder}
    (inputs : ∀ child ∈ plan.children, ordered child.id = other child.id) : plan.orderFrom ordered = plan.orderFrom other := by
  cases plan with
  | leaf id operator => cases operator <;> rfl
  | step id operator input => exact inputs input List.mem_cons_self
  | trail id parameters input inner => exact inputs input List.mem_cons_self
  | join id operator left right =>
    cases operator with
    | cartesianProduct => exact inputs left List.mem_cons_self
    | nodeHashJoin nodes => rfl

end Plan

/-! Rows are computed from rows. -/

namespace CostModel

variable [Quantity ν] (model : CostModel ν) (statistics : Statistics ν) {source other iteration next : Estimate ν}

theorem rows_stepEstimate (same : source.rows = other.rows) (operator : Step) :
    (model.stepEstimate statistics source operator).rows = (model.stepEstimate statistics other operator).rows := by
  cases operator <;> simp only [stepEstimate, pruningEstimate, same]

theorem rows_trailEstimate (same : source.rows = other.rows) (inside : iteration.rows = next.rows) (range : Repetition) :
    (model.trailEstimate source iteration range).rows = (model.trailEstimate other next range).rows := by
  simp only [trailEstimate, same, inside]

theorem rows_joinEstimate {right beyond : Estimate ν} (same : source.rows = other.rows) (alike : right.rows = beyond.rows)
    (operator : Join) : (model.joinEstimate statistics source right operator).rows =
      (model.joinEstimate statistics other beyond operator).rows := by
  cases operator <;> simp only [joinEstimate, same, alike]

theorem capped_capped (value : ν) : capped (capped value) = capped value := by
  by_cases beyond : Quantity.less rowCeiling value = true
  · simp only [capped, if_pos beyond, ite_self]
  · simp only [capped, if_neg beyond]

/-- What is expected of any plan is capped already. -/
theorem capped_rows (plan : Plan) : capped (model.estimatePlan statistics plan).rows = (model.estimatePlan statistics plan).rows := by
  cases plan <;> exact capped_capped _

theorem estimatePlan_of_estimate {model : CostModel ν} {statistics : Statistics ν} {plan : Plan} {estimate : Estimate ν}
    (estimated : model.estimate statistics plan = .ok estimate) : estimate = model.estimatePlan statistics plan := by
  dsimp only [CostModel.estimate] at estimated
  split at estimated
  · exact (Except.ok.inj estimated).symm
  · cases estimated

/-- An arena holds the rows that the model expects of an operator with everything below it, and the order that its inputs provide. -/
structure Records (model : CostModel ν) (statistics : Statistics ν) (arena : Arena ν) (node : Plan) : Prop where
  rows : arena.cardinalities.get? node.id = some (model.estimatePlan statistics node).rows
  order : arena.providedOrders.get? node.id = some (node.orderFrom arena.orderOf)

/-- An arena is right about every operator of a plan, those of inner plans included. -/
def UpToDate (model : CostModel ν) (statistics : Statistics ν) (arena : Arena ν) (plan : Plan) : Prop :=
  ∀ node ∈ plan.subtrees, model.Records statistics arena node

/-- A plan can take the place of another: it is on record, with the same rows and the same order. -/
structure Replaces (model : CostModel ν) (statistics : Statistics ν) (arena : Arena ν) (changed plan : Plan) : Prop where
  current : model.UpToDate statistics arena changed
  rows : (model.estimatePlan statistics changed).rows = (model.estimatePlan statistics plan).rows
  order : arena.orderOf changed.id = arena.orderOf plan.id

variable {model : CostModel ν} {statistics : Statistics ν} {arena : Arena ν} {plan changed : Plan}

theorem upToDate_of_inputs (records : model.Records statistics arena plan)
    (inputs : ∀ child ∈ plan.children, model.UpToDate statistics arena child) : model.UpToDate statistics arena plan := by
  intro node member
  rw [Plan.subtrees_eq] at member
  rcases List.mem_cons.mp member with rfl | below
  · exact records
  · obtain ⟨child, input, inside⟩ := List.mem_flatMap.mp below
    exact inputs child input node inside

theorem UpToDate.root (current : model.UpToDate statistics arena plan) : model.Records statistics arena plan :=
  current plan plan.mem_subtrees_self

theorem UpToDate.child {child : Plan} (current : model.UpToDate statistics arena plan) (input : child ∈ plan.children) :
    model.UpToDate statistics arena child := fun node member => current node (Plan.subtrees_of_child input member)

theorem Replaces.refl (current : model.UpToDate statistics arena plan) : model.Replaces statistics arena plan plan := ⟨current, rfl, rfl⟩

/-- An operator whose inputs are replaced keeps what is on record of it, as long as it computes its rows and its order alike. -/
theorem Records.replaces (records : model.Records statistics arena plan) (same : changed.id = plan.id)
    (rows : (model.estimatePlan statistics changed).rows = (model.estimatePlan statistics plan).rows)
    (order : changed.orderFrom arena.orderOf = plan.orderFrom arena.orderOf)
    (inputs : ∀ child ∈ changed.children, model.UpToDate statistics arena child) : model.Replaces statistics arena changed plan where
  current := by
    refine upToDate_of_inputs ⟨?_, ?_⟩ inputs
    · rw [same, rows, records.rows]
    · rw [same, order, records.order]
  rows := rows
  order := by rw [same]

namespace Replaces

variable {id : PlanId} {input : Plan}

theorem step {operator : Step} (records : model.Records statistics arena (.step id operator input))
    (replaces : model.Replaces statistics arena changed input) :
    model.Replaces statistics arena (.step id operator changed) (.step id operator input) := by
  refine records.replaces rfl (congrArg capped (rows_stepEstimate model statistics replaces.rows operator)) replaces.order ?_
  exact List.forall_mem_singleton.mpr replaces.current

theorem trail {parameters : TrailParameters} {inner other : Plan}
    (records : model.Records statistics arena (.trail id parameters input inner))
    (replaces : model.Replaces statistics arena changed input) (inside : model.Replaces statistics arena other inner) :
    model.Replaces statistics arena (.trail id parameters changed other) (.trail id parameters input inner) := by
  refine records.replaces rfl (congrArg capped (rows_trailEstimate model replaces.rows inside.rows parameters.range)) replaces.order ?_
  exact List.forall_mem_cons.mpr ⟨replaces.current, List.forall_mem_singleton.mpr inside.current⟩

theorem join {operator : Join} {right other : Plan} (records : model.Records statistics arena (.join id operator input right))
    (replaces : model.Replaces statistics arena changed input) (beyond : model.Replaces statistics arena other right) :
    model.Replaces statistics arena (.join id operator changed other) (.join id operator input right) := by
  refine records.replaces rfl (congrArg capped (rows_joinEstimate model statistics replaces.rows beyond.rows operator)) ?_ ?_
  · cases operator with
    | cartesianProduct => exact replaces.order
    | nodeHashJoin nodes => rfl
  · exact List.forall_mem_cons.mpr ⟨replaces.current, List.forall_mem_singleton.mpr beyond.current⟩

/-- A barrier can serve more readers than before. -/
theorem reasons {former latter : List EagerReason} (current : model.UpToDate statistics arena (.step id (.eager former) input)) :
    model.Replaces statistics arena (.step id (.eager latter) input) (.step id (.eager former) input) :=
  current.root.replaces rfl rfl rfl fun _ input => current.child input

end Replaces

/-! Entries are made once, so what is right stays right while further operators are finished. -/

variable {start later : Session ν}

theorem Records.orderOf (records : model.Records statistics start.arena plan) (grows : start.Grows later) :
    later.arena.orderOf plan.id = start.arena.orderOf plan.id := by
  rw [Arena.orderOf, Arena.orderOf, grows.providedOrders _ _ records.order, records.order]

theorem UpToDate.mono (current : model.UpToDate statistics start.arena plan) (grows : start.Grows later) :
    model.UpToDate statistics later.arena plan := by
  intro node member
  have records := current node member
  have inputs (child : Plan) (input : child ∈ node.children) : later.arena.orderOf child.id = start.arena.orderOf child.id :=
    (current child (Plan.child_mem_subtrees member input)).orderOf grows
  refine ⟨grows.cardinalities _ _ records.rows, ?_⟩
  rw [grows.providedOrders _ _ records.order, Plan.orderFrom_congr inputs]

theorem Replaces.mono (replaces : model.Replaces statistics start.arena changed plan)
    (current : model.UpToDate statistics start.arena plan) (grows : start.Grows later) :
    model.Replaces statistics later.arena changed plan where
  current := replaces.current.mono grows
  rows := replaces.rows
  order := by rw [replaces.current.root.orderOf grows, current.root.orderOf grows, replaces.order]

end CostModel

/-! One request. -/

namespace Environment

open Planning CostModel

variable [Quantity ν] {environment : Environment ν} {model : CostModel ν} {request : EagerRequest} {start : Session ν}
  {plan : Plan}

/-- What is found in the place of a plan, if anything is, can take its place. -/
abbrev Found (environment : Environment ν) (model : CostModel ν) (plan : Plan) (after : Session ν) (found : Option Plan) : Prop :=
  ∀ changed, found = some changed → model.Replaces environment.statistics after.arena changed plan

theorem files_wrapReader (estimates : environment.estimator = fun plan statistics => model.estimate statistics plan)
    {reader : Plan} (current : model.UpToDate environment.statistics start.arena reader) :
    Files start (environment.wrapReader reader request) fun after changed =>
      model.Replaces environment.statistics after.arena changed reader := by
  unfold wrapReader
  split
  next id reasons input => exact files_pure fun later grows => .reasons (current.mono grows)
  next =>
    intro before grows
    have outcome := files_of_yields (fun final => environment.yields_finish (.step · (.eager [request.reason]) reader) [] fun _ => rfl)
      before grows
    cases ran : environment.finish (.step · (.eager [request.reason]) reader) [] before with
    | error error after =>
      rw [ran] at outcome
      exact outcome
    | ok changed after =>
      rw [ran] at outcome
      obtain ⟨rfl, -, ⟨estimate, estimated, recorded⟩, ordered⟩ := finish_ok ran
      have present := current.mono grows
      have unmoved := present.root.orderOf outcome.1
      rw [estimates] at estimated
      rw [estimatePlan_of_estimate estimated] at recorded
      refine ⟨outcome.1, upToDate_of_inputs ⟨recorded, ?_⟩ ?_, capped_rows model _ reader, ?_⟩
      · exact ordered.trans (congrArg some unmoved.symm)
      · exact List.forall_mem_singleton.mpr (present.mono outcome.1)
      · rw [Arena.orderOf, ordered, unmoved]
        rfl

/-- The search for the reader goes on below the root, or the root is the reader. -/
theorem files_wrapWithin_of_below (estimates : environment.estimator = fun plan statistics => model.estimate statistics plan)
    (current : model.UpToDate environment.statistics start.arena plan)
    (below : Files start (environment.wrapBelow request plan) (environment.Found model plan)) :
    Files start (environment.wrapWithin request plan) (environment.Found model plan) := by
  refine .ite (fun _ => (files_wrapReader estimates current).bind fun wrapped later grows replaces => ?_) fun _ => below
  refine files_pure fun last more changed same => ?_
  exact Option.some.inj same ▸ replaces.mono (current.mono grows) more

theorem files_wrapWithin (estimates : environment.estimator = fun plan statistics => model.estimate statistics plan)
    (current : model.UpToDate environment.statistics start.arena plan) :
    Files start (environment.wrapWithin request plan) (environment.Found model plan) := by
  induction plan generalizing start with
  | leaf id operator =>
    refine files_wrapWithin_of_below estimates current ?_
    rw [wrapBelow]
    exact files_pure fun _ _ _ impossible => by cases impossible
  | step id operator input further =>
    refine files_wrapWithin_of_below estimates current ?_
    by_cases passes : operator.kind ≠ .eager ∨ input.id ≠ request.reader
    · rw [wrapBelow_input passes]
      refine (further (current.child List.mem_cons_self)).bind fun found later grows replaces => files_pure fun last more => ?_
      rintro _ same
      obtain ⟨changed, rfl, rfl⟩ := Option.map_eq_some_iff.mp same
      exact ((replaces changed rfl).step (current.mono grows).root).mono (current.mono grows) more
    · obtain ⟨eager, merges⟩ := not_or.mp passes
      replace eager := not_not.mp eager
      cases operator <;> try cases eager
      rw [wrapBelow_merge (not_not.mp merges)]
      refine files_pure fun later grows changed same => ?_
      exact Option.some.inj same ▸ .reasons (current.mono grows)
  | trail id parameters input inner former latter =>
    refine files_wrapWithin_of_below estimates current ?_
    rw [wrapBelow_trail]
    refine (former (current.child List.mem_cons_self)).bind fun found later grows replaces => ?_
    have present := current.mono grows
    have inside := present.child (List.mem_cons_of_mem _ List.mem_cons_self)
    cases found with
    | some changed =>
      refine files_pure fun last more _ same => ?_
      exact Option.some.inj same ▸ ((replaces changed rfl).trail present.root (.refl inside)).mono present more
    | none =>
      refine (latter inside).bind fun found last more replaces => files_pure fun final rest => ?_
      rintro _ same
      obtain ⟨changed, rfl, rfl⟩ := Option.map_eq_some_iff.mp same
      have present := present.mono more
      exact (Replaces.trail present.root (.refl (present.child List.mem_cons_self)) (replaces changed rfl)).mono present rest
  | join id operator left right former latter =>
    refine files_wrapWithin_of_below estimates current ?_
    rw [wrapBelow_join]
    refine (former (current.child List.mem_cons_self)).bind fun found later grows replaces => ?_
    have present := current.mono grows
    have beyond := present.child (List.mem_cons_of_mem _ List.mem_cons_self)
    cases found with
    | some changed =>
      refine files_pure fun last more _ same => ?_
      exact Option.some.inj same ▸ ((replaces changed rfl).join present.root (.refl beyond)).mono present more
    | none =>
      refine (latter beyond).bind fun found last more replaces => files_pure fun final rest => ?_
      rintro _ same
      obtain ⟨changed, rfl, rfl⟩ := Option.map_eq_some_iff.mp same
      have present := present.mono more
      exact (Replaces.join present.root (.refl (present.child List.mem_cons_self)) (replaces changed rfl)).mono present rest

theorem files_spliceEager (estimates : environment.estimator = fun plan statistics => model.estimate statistics plan)
    (current : model.UpToDate environment.statistics start.arena plan) :
    Files start (environment.spliceEager plan request) fun after changed =>
      model.UpToDate environment.statistics after.arena changed := by
  by_cases present : request.reader ∈ plan.ids
  · rw [spliceEager_eq present]
    refine (files_wrapWithin estimates current).bind fun found later grows replaces => ?_
    cases found with
    | some changed => exact files_pure fun last more => (replaces changed rfl).current.mono more
    | none => exact files_throw _ _
  · rw [spliceEager_unknown present]
    exact files_throw _ _

/-! All requests. -/

theorem files_spliceAll (estimates : environment.estimator = fun plan statistics => model.estimate statistics plan)
    (current : model.UpToDate environment.statistics start.arena plan) (requests : List EagerRequest) :
    Files start (environment.spliceAll plan requests) fun after root => model.UpToDate environment.statistics after.arena root := by
  induction requests generalizing plan start with
  | nil => exact files_pure fun later grows => current.mono grows
  | cons request rest further =>
    rw [spliceAll_cons]
    exact (files_spliceEager estimates current).bind fun changed later grows spliced => further spliced

/-- A plan that comes out of planning is on record as the model sees it. -/
theorem upToDate_of_planRoot (estimates : environment.estimator = fun plan statistics => model.estimate statistics plan)
    {graph : MatchGraph} {middle : Session ν} {root : Plan} (planned : environment.planRoot graph start = .ok root middle) :
    model.UpToDate environment.statistics middle.arena root := by
  obtain ⟨begun, composed, empty, found, same⟩ := plan_composed (bind_run_ok planned)
  have filed := (environment.files_compose graph).result found
  change middle.arena = composed.arena at same
  rw [same]
  have described {node : Plan} (member : node ∈ root.subtrees) : environment.Describes composed.arena node :=
    filed.described node (by rwa [List.flatMap_singleton])
  intro node member
  obtain ⟨estimate, estimated, recorded⟩ := (described member).estimated
  rw [estimates] at estimated
  rw [estimatePlan_of_estimate estimated] at recorded
  refine ⟨recorded, ?_⟩
  rw [(described member).ordered, Plan.orderFrom_eq fun child input => ?_]
  rw [Arena.orderOf, (described (Plan.child_mem_subtrees member input)).ordered, Option.getD_some]

/-- Barriers leave the records of a plan right, however many are placed, in whatever order, and wherever their readers are. So a plan
that is planned together with its conflicts is on record as the model sees it with all its barriers. -/
theorem splicing_upToDate (estimates : environment.estimator = fun plan statistics => model.estimate statistics plan) :
    (∀ (plan root : Plan) (requests : List EagerRequest) (before after : Session ν),
      model.UpToDate environment.statistics before.arena plan → environment.spliceAll plan requests before = .ok root after →
      model.UpToDate environment.statistics after.arena root) ∧
    ∀ (graph : MatchGraph) (analyzer : ConflictAnalyzer) (before after : Session ν) (query : PlannedQuery ν),
      environment.planWithConflicts graph analyzer before = .ok query after →
      model.UpToDate environment.statistics query.arena query.root := by
  have splices {plan root : Plan} {requests : List EagerRequest} {before after : Session ν}
      (current : model.UpToDate environment.statistics before.arena plan)
      (ran : environment.spliceAll plan requests before = .ok root after) : model.UpToDate environment.statistics after.arena root :=
    (files_spliceAll estimates current requests).result ran
  refine ⟨fun plan root requests before after => splices, fun graph analyzer before after query ran => ?_⟩
  obtain ⟨root, _, planned, analyzes⟩ := bind_eq_ok ran
  obtain ⟨requests, middle, reported, serves⟩ := bind_eq_ok analyzes
  obtain ⟨-, rfl⟩ := ofExcept_eq_ok reported
  obtain ⟨spliced, last, traced, packs⟩ := bind_eq_ok serves
  cases packs
  have ends := environment.matches_spliceRecorded root requests middle middle ⟨rfl, rfl, rfl⟩
  rw [traced] at ends
  cases untraced : environment.spliceAll root requests middle with
  | error error final =>
    rw [untraced] at ends
    exact ends.elim
  | ok other final =>
    rw [untraced] at ends
    obtain ⟨rfl, alike⟩ := ends
    exact alike.arena ▸ splices (upToDate_of_planRoot estimates planned) untraced

end Environment

/-! A loop of which the entries are made by hand, and a clause that is planned with conflicts. -/

namespace CostModel

instance [Quantity ν] [DecidableEq ν] (model : CostModel ν) (statistics : Statistics ν) (arena : Arena ν) (node : Plan) :
    Decidable (model.Records statistics arena node) :=
  decidable_of_iff (arena.cardinalities.get? node.id = some (model.estimatePlan statistics node).rows ∧
    arena.providedOrders.get? node.id = some (node.orderFrom arena.orderOf))
    ⟨fun ⟨rows, order⟩ => ⟨rows, order⟩, fun records => ⟨records.rows, records.order⟩⟩

instance [Quantity ν] [DecidableEq ν] (model : CostModel ν) (statistics : Statistics ν) (arena : Arena ν) (plan : Plan) :
    Decidable (model.UpToDate statistics arena plan) :=
  inferInstanceAs (Decidable (∀ node ∈ plan.subtrees, model.Records statistics arena node))

/-- The session in which a plan has just been entered. -/
def entered [Quantity ν] (model : CostModel ν) (statistics : Statistics ν) (plan : Plan) : Session ν where
  arena :=
    { allocated := plan.ids.length
      freshNames := 0
      cardinalities := ⟨plan.subtrees.map fun node => (node.id, (model.estimatePlan statistics node).rows)⟩
      solvedPredicates := .empty
      providedOrders := ⟨plan.subtrees.map fun node => (node.id, node.order)⟩ }
  trace := []
  leafCalls := 0
  cancelled := false

end CostModel

open Planning in
/-- The readers are in the inner plan of the loop, above it and below it. -/
theorem Plan.looping_upToDate :
    (∃ root after, (Environment.standard .standard (Statistics.counts 40 60)).spliceAll looping conflicting
        (CostModel.standard.entered (Statistics.counts 40 60) looping) = .ok root after ∧
      CostModel.standard.UpToDate (Statistics.counts 40 60) after.arena root) ∧
    ∃ query after, (Environment.standard .standard (Statistics.counts 100 0)).planWithConflicts .leading
        (fun root => .ok (root.ids.map fun id => ⟨id, ⟨"DELETE b", ⟨7⟩⟩⟩)) (.initial false) = .ok query after ∧
      CostModel.standard.UpToDate (Statistics.counts 100 0) query.arena query.root := by
  have estimates (statistics : Statistics Rat) : (Environment.standard .standard statistics).estimator =
      fun plan statistics => CostModel.standard.estimate statistics plan := rfl
  have splices := (Environment.splicing_upToDate (estimates (Statistics.counts 40 60))).1
  have plans := (Environment.splicing_upToDate (estimates (Statistics.counts 100 0))).2
  have spliced : (returned? ((Environment.standard .standard (Statistics.counts 40 60)).spliceAll looping conflicting
      (CostModel.standard.entered (Statistics.counts 40 60) looping))).isSome = true := by decide +kernel
  have planned : (returned? ((Environment.standard .standard (Statistics.counts 100 0)).planWithConflicts .leading
      (fun root => .ok (root.ids.map fun id => ⟨id, ⟨"DELETE b", ⟨7⟩⟩⟩)) (.initial false))).isSome = true := by decide +kernel
  obtain ⟨root, spliced⟩ := Option.isSome_iff_exists.mp spliced
  obtain ⟨query, planned⟩ := Option.isSome_iff_exists.mp planned
  exact ⟨⟨root, _, ok_of_returned? spliced, splices _ _ _ _ _ (by decide +kernel) (ok_of_returned? spliced)⟩, query, _,
    ok_of_returned? planned, plans _ _ _ _ _ (ok_of_returned? planned)⟩

end MatchPlanner
