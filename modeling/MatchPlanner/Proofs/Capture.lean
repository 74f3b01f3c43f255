import MatchPlanner.Proofs.Distinctness
import MatchPlanner.Proofs.Supply

/-! The scope of a loop and the scope around it. A variable of one is never taken for a variable of the other, as long as what a loop
has to avoid is not called like something inside its pattern. -/

namespace MatchPlanner

/-! The steps of a repetition. -/

/-- Each step binds a relationship and a node that are not bound where it is taken. -/
def TrailStep.Fresh : NameSet → List TrailStep → Prop
  | _, [] => True
  | bound, step :: rest => step.relationship ∉ bound ∧ step.hop.target ∉ bound ∧
    Fresh ((bound.insert step.relationship).insert step.hop.target) rest

theorem TrailStep.fresh_of_distinct {bound : NameSet} {steps : List TrailStep} (names : (steps.map TrailStep.relationship).Nodup)
    (nodes : (steps.map fun step => step.hop.target).Nodup)
    (apart : ∀ name ∈ steps.map TrailStep.relationship, name ∉ steps.map fun step => step.hop.target)
    (free : ∀ name ∈ bound, name ∉ steps.map TrailStep.relationship ∧ name ∉ steps.map fun step => step.hop.target) :
    Fresh bound steps := by
  induction steps generalizing bound with
  | nil => trivial
  | cons step rest further =>
    simp only [List.map_cons, List.nodup_cons, List.mem_cons, not_or] at names nodes apart free
    refine ⟨fun taken => (free _ taken).1.1 rfl, fun taken => (free _ taken).2.1 rfl, further names.2 nodes.2 ?_ ?_⟩
    · exact fun name member => (apart name (.inr member)).2
    · intro name member
      simp only [NameSet.mem_insert] at member
      rcases member with rfl | rfl | before
      · exact ⟨fun later => (apart _ (.inr later)).1 rfl, nodes.1⟩
      · exact ⟨names.1, (apart _ (.inl rfl)).2⟩
      · exact ⟨(free name before).1.2, (free name before).2.2⟩

theorem Walk.nodes {start finish : String} {steps : List TrailStep} (walk : Walk start steps finish) :
    (start :: steps.map fun step => step.hop.target) = (steps.map fun step => step.hop.source) ++ [finish] := by
  induction walk with
  | done => rfl
  | step _ further => rw [List.map_cons, further, List.map_cons, List.cons_append]

namespace QuantifiedPattern

variable {pattern : QuantifiedPattern}

theorem relationships_steps (direction : TraversalDirection) :
    ((pattern.steps direction).map TrailStep.relationship).Perm pattern.relationshipNames := by
  have forward : pattern.forwardSteps.map TrailStep.relationship = pattern.relationshipNames := by
    simp [forwardSteps, relationshipNames, Function.comp_def]
  cases direction with
  | forward => exact .of_eq forward
  | reversed =>
    rw [← forward, steps, List.map_map]
    exact (List.reverse_perm _).map _

/-- A repetition visits every inner node, beginning with the one it starts from. -/
theorem WellFormed.nodes_steps (formed : pattern.WellFormed) (direction : TraversalDirection) :
    ((pattern.near direction).inner :: (pattern.steps direction).map fun step => step.hop.target).Perm pattern.innerNodes := by
  have forward : (pattern.left.inner :: pattern.forwardSteps.map fun step => step.hop.target) = pattern.innerNodes := by
    simp [forwardSteps, innerNodes, nodesAlong, Function.comp_def]
  cases direction with
  | forward => exact .of_eq forward
  | reversed =>
    have along : (pattern.left.inner :: pattern.forwardSteps.map fun step => step.hop.target) =
        (pattern.forwardSteps.map fun step => step.hop.source) ++ [pattern.right.inner] := (formed.walk .forward).nodes
    have against : (pattern.right.inner :: (pattern.steps .reversed).map fun step => step.hop.target) =
        (pattern.left.inner :: pattern.forwardSteps.map fun step => step.hop.target).reverse := by
      rw [along]
      simp [steps, TrailStep.reversed, Function.comp_def]
    rw [← forward]
    exact (List.Perm.of_eq against).trans (List.reverse_perm _)

/-- No step of a repetition comes back to anything. -/
theorem WellFormed.fresh_steps (formed : pattern.WellFormed) (direction : TraversalDirection) {bound : NameSet}
    (inside : ∀ node ∈ pattern.innerNodes, node ∉ pattern.relationshipNames)
    (free : ∀ name ∈ bound, name ≠ (pattern.near direction).inner → name ∉ pattern.innerVariables) :
    TrailStep.Fresh bound (pattern.steps direction) := by
  have names := pattern.relationships_steps direction
  have visits := formed.nodes_steps direction
  obtain ⟨away, nodes⟩ := List.nodup_cons.mp (visits.nodup_iff.mpr formed.distinctNodes)
  have node : ∀ name ∈ (pattern.steps direction).map fun step => step.hop.target, name ∈ pattern.innerNodes :=
    fun name member => visits.subset (List.mem_cons_of_mem _ member)
  refine TrailStep.fresh_of_distinct (names.nodup_iff.mpr formed.distinctNames) nodes ?_ fun name given => ?_
  · exact fun name member target => inside name (node name target) (names.subset member)
  · by_cases start : name = (pattern.near direction).inner
    · subst start
      exact ⟨fun member => inside _ (visits.subset List.mem_cons_self) (names.subset member), away⟩
    · have outside := free name given start
      rw [innerVariables, NameSet.mem_ofList, List.mem_append, not_or] at outside
      exact ⟨fun member => outside.2 (names.subset member), fun member => outside.1 (node name member)⟩

end QuantifiedPattern

/-! One repetition. -/

/-- Every expansion of a plan finds a relationship and a node that are not bound below it. -/
def Plan.Discovers (plan : Plan) : Prop :=
  ∀ id hop relationship mode input, .step id (.expand hop relationship mode) input ∈ plan.subtrees →
    relationship ∉ input.available ∧ hop.target ∉ input.available ∧ mode = .all

theorem Filtered.discovers {input plan : Plan} {predicates : List Expression} (filtered : Filtered input predicates plan)
    (discovers : input.Discovers) : plan.Discovers := by
  cases filtered with
  | untouched => exact discovers
  | filter =>
    intro id hop relationship mode below member
    rcases List.mem_cons.mp member with impossible | deeper
    · cases impossible
    · exact discovers id hop relationship mode below deeper

theorem InnerSteps.discovers {siblings : List RelationshipProducer} {arguments : NameSet} {earlier steps : List TrailStep}
    {progress last : InnerProgress} {start finish : String} (stepped : InnerSteps siblings earlier progress steps last)
    (walk : Walk start steps finish) (sound : progress.Sound arguments earlier start)
    (known : ∀ sibling ∈ siblings, sibling.name ∈ arguments) (fresh : TrailStep.Fresh progress.scope steps)
    (discovers : progress.plan.Discovers) : last.plan.Discovers := by
  induction stepped generalizing start with
  | done => exact discovers
  | @step earlier rest step progress placed last id expanded _ further =>
    cases walk with
    | step onward =>
      obtain ⟨newName, newNode, rest⟩ := fresh
      refine further onward (sound.take expanded known) (expanded.scope ▸ rest) (expanded.filtered.discovers ?_)
      intro other hop relationship mode below member
      rcases List.mem_cons.mp member with here | deeper
      · cases here
        exact ⟨fun bound => newName ((sound.scope _).mpr bound), fun bound => newNode ((sound.scope _).mpr bound), if_neg newNode⟩
      · exact discovers other hop relationship mode below deeper

theorem InnerBuilt.discovers {pending : List Expression} {arguments : NameSet} {steps : List TrailStep}
    {siblings : List RelationshipProducer} {start finish : String} {plan : Plan}
    (built : InnerBuilt pending arguments steps siblings plan) (walk : Walk start steps finish) (given : start ∈ arguments)
    (known : ∀ sibling ∈ siblings, sibling.name ∈ arguments) (fresh : TrailStep.Fresh arguments steps) : plan.Discovers := by
  cases built with
  | @built id started last begun stepped complete =>
    have initial : (InnerProgress.initial id arguments pending).Sound arguments [] start := .initial given
    have above := initial.place begun fun _ impossible => absurd impossible List.not_mem_nil
    refine stepped.discovers walk above known (begun.scope ▸ fresh) (begun.filtered.discovers ?_)
    intro other hop relationship mode below member
    cases List.mem_singleton.mp member

/-- A check that can only have one outcome, because both its sides are the same variable. -/
def Expression.ComparesItself (check : Expression) : Prop :=
  ∃ name, check = .negation (.equals (.reference name) (.reference name)) ∨
    check = .negation (.isMember (.reference name) (.reference name)) ∨ check = .call "disjoint" [.reference name, .reference name]

section

variable {first second : String}

@[simp] theorem Expression.comparesItself_equals :
    (Expression.negation (.equals (.reference first) (.reference second))).ComparesItself ↔ first = second := by
  simp [ComparesItself, equals, isMember, eq_comm]

@[simp] theorem Expression.comparesItself_isMember :
    (Expression.negation (.isMember (.reference first) (.reference second))).ComparesItself ↔ first = second := by
  simp [ComparesItself, equals, isMember, eq_comm]

@[simp] theorem Expression.comparesItself_disjoint :
    (Expression.call "disjoint" [.reference first, .reference second]).ComparesItself ↔ first = second := by
  simp [ComparesItself, eq_comm]

end

theorem TrailStep.comparesItself_checkAgainst {step : TrailStep} {sibling : RelationshipProducer} :
    (step.checkAgainst sibling).ComparesItself ↔ step.relationship = sibling.name := by
  unfold checkAgainst
  split
  · exact Expression.comparesItself_equals
  · exact Expression.comparesItself_isMember

theorem RelationshipProducer.comparesItself_distinctness {first second : RelationshipProducer} :
    (first.distinctness second).ComparesItself ↔ first.name = second.name := by
  unfold distinctness
  dsimp only
  split
  · exact Expression.comparesItself_equals
  · exact Expression.comparesItself_isMember
  · exact Expression.comparesItself_isMember.trans eq_comm
  · exact Expression.comparesItself_disjoint

theorem TrailStep.generated_compare {siblings : List RelationshipProducer} {earlier steps : List TrailStep}
    (distinct : ((earlier ++ steps).map TrailStep.relationship).Nodup)
    (apart : ∀ sibling ∈ siblings, ∀ step ∈ steps, step.relationship ≠ sibling.name) :
    ∀ check ∈ generated siblings earlier steps, ¬ check.ComparesItself := by
  induction steps generalizing earlier with
  | nil => exact fun _ impossible => absurd impossible List.not_mem_nil
  | cons step rest further =>
    intro check member
    rcases List.mem_append.mp member with here | later
    · rcases List.mem_append.mp here with own | beside
      · rcases List.mem_cons.mp own with rfl | among
        · simp [Expression.ComparesItself, repeatCheck]
        · obtain ⟨other, overlapping, rfl⟩ := List.mem_map.mp among
          have before := (List.mem_filter.mp overlapping).1
          rw [Expression.comparesItself_equals]
          intro same
          rw [List.map_append] at distinct
          exact (List.nodup_append.mp distinct).2.2 _ (List.mem_map_of_mem before) _ List.mem_cons_self same.symm
      · obtain ⟨sibling, clashing, rfl⟩ := List.mem_map.mp beside
        rw [comparesItself_checkAgainst]
        exact apart sibling (List.mem_filter.mp clashing).1 step List.mem_cons_self
    · have regrouped : ((earlier ++ [step] ++ rest).map TrailStep.relationship).Nodup := by simpa using distinct
      exact further regrouped (fun sibling beside other taken => apart sibling beside other (List.mem_cons_of_mem _ taken)) check later

/-! The loops of a plan. -/

/-- All loops of a plan, those inside others included. -/
def Plan.loops (plan : Plan) : List Plan := plan.subtrees.filter fun node => node.kind == .trail

namespace Plan

variable {id : PlanId}

@[simp] theorem loops_leaf {operator : Leaf} : (leaf id operator).loops = [] := by
  cases operator <;> rfl

@[simp] theorem loops_step {operator : Step} {input : Plan} : (step id operator input).loops = input.loops := by
  cases operator <;> rfl

@[simp] theorem loops_trail {parameters : TrailParameters} {input inner : Plan} :
    (trail id parameters input inner).loops = trail id parameters input inner :: (input.loops ++ inner.loops) := by
  simp [loops, subtrees, kind]

@[simp] theorem loops_join {operator : Join} {left right : Plan} : (join id operator left right).loops = left.loops ++ right.loops := by
  cases operator <;> simp [loops, subtrees, kind, Join.kind]

end Plan

theorem Filtered.loops {input plan : Plan} {predicates : List Expression} (filtered : Filtered input predicates plan) :
    plan.loops = input.loops := by
  cases filtered with
  | untouched => rfl
  | filter => exact Plan.loops_step

theorem InnerSteps.loops {siblings : List RelationshipProducer} {earlier steps : List TrailStep} {progress last : InnerProgress}
    (stepped : InnerSteps siblings earlier progress steps last) : last.plan.loops = progress.plan.loops := by
  induction stepped with
  | done => rfl
  | step expanded _ further => rw [further, expanded.filtered.loops, InnerProgress.expand, Plan.loops_step]

/-- No loop stands inside another. -/
theorem InnerBuilt.loops {pending : List Expression} {arguments : NameSet} {steps : List TrailStep}
    {siblings : List RelationshipProducer} {plan : Plan} (built : InnerBuilt pending arguments steps siblings plan) :
    plan.loops = [] := by
  cases built with
  | built begun stepped complete => rw [stepped.loops, begun.filtered.loops, InnerProgress.initial, Plan.loops_leaf]

theorem LoopEnded.loops {bound : NameSet} {boundary finish : String} {loop plan : Plan}
    (ended : LoopEnded bound boundary loop finish plan) : plan.loops = loop.loops := by
  cases ended with
  | reached => rfl
  | closed => exact Plan.loops_step

section

variable {ν : Type} {environment : Environment ν} {arena : Arena ν} {graph : MatchGraph} {before after : Ledger} {plan : Plan}

theorem PatternPlanned.loops {source operator : Plan} {request : QuantifiedRequest} {discharged : Bool}
    (planned : PatternPlanned environment arena source request operator plan discharged) :
    ∀ loop ∈ plan.loops, loop = operator ∨ loop ∈ source.loops := by
  intro loop member
  cases planned with
  | collapsed => exact .inr (Plan.loops_step ▸ member)
  | looped kept possible built recorded ended =>
    rw [ended.loops, Plan.loops_trail, built.loops, List.append_nil] at member
    exact List.mem_cons.mp member

/-- A loop is the operator chosen for a quantified pattern of the graph, with some of its predicates still open. -/
def MatchGraph.Chooses (graph : MatchGraph) (environment : Environment ν) (arena : Arena ν) (loop : Plan) : Prop :=
  ∃ (index : Nat) (pattern : QuantifiedPattern) (ledger : Ledger) (source planned : Plan) (discharged : Bool),
    graph.connections[index]? = some (.quantified pattern) ∧ List.Sublist ledger (Ledger.ofGraph graph) ∧
      PatternPlanned environment arena source (pattern.site graph index source.available ledger).request loop planned discharged

theorem Scanned.loops {node : String} (scanned : Scanned environment arena node before plan after) : plan.loops = [] := by
  cases scanned with
  | scanned offered chosen recorded placed => rw [placed.filtered.loops, Plan.loops_leaf]

theorem Seeded.loops {connection : Connection} (seeded : Seeded environment arena connection before plan after) : plan.loops = [] := by
  cases seeded with
  | endpoint ends scanned => exact scanned.loops
  | crossed crosses scannedLeft scannedRight => rw [Plan.loops_join, scannedLeft.loops, scannedRight.loops, List.append_nil]

theorem Extended.loops {index : Nat} {connection : Connection} {input operator : Plan}
    (extended : Extended environment arena graph index input before connection operator plan after)
    (found : graph.connections[index]? = some connection) (known : before.Sublist (Ledger.ofGraph graph)) :
    ∀ loop ∈ plan.loops, loop ∈ input.loops ∨ graph.Chooses environment arena loop := by
  cases extended with
  | relationship recorded placed =>
    intro loop member
    rw [placed.filtered.loops, PatternRelationship.expandAbove, Plan.loops_step] at member
    exact .inl member
  | quantified chosen placed =>
    intro loop member
    rcases chosen.loops loop (placed.filtered.loops ▸ member) with rfl | below
    · exact .inr ⟨index, _, before, input, _, _, found, known, chosen⟩
    · exact .inl below

theorem Added.loops {index : Nat} {connection : Connection} {input operator : Plan}
    (added : Added environment arena graph index input before connection operator plan after)
    (found : graph.connections[index]? = some connection) (known : before.Sublist (Ledger.ofGraph graph)) :
    ∀ loop ∈ plan.loops, loop ∈ input.loops ∨ graph.Chooses environment arena loop := by
  cases added with
  | extended touches extended => exact extended.loops found known
  | joined simple oriented nearBound farFree scanned selective placed =>
    intro loop member
    rw [placed.filtered.loops, Plan.loops_join, Plan.loops_step, scanned.loops, List.append_nil] at member
    exact .inl member

theorem Grown.loops {component : Component} {assigned : Assignment}
    (grown : Grown environment arena graph component before plan after assigned) (known : before.Sublist (Ledger.ofGraph graph)) :
    ∀ loop ∈ plan.loops, graph.Chooses environment arena loop := by
  induction grown with
  | argument touched recorded placed =>
    intro loop impossible
    rw [placed.filtered.loops, Plan.loops_leaf] at impossible
    exact absurd impossible List.not_mem_nil
  | scan untouched member alone scanned =>
    intro loop impossible
    rw [scanned.loops] at impossible
    exact absurd impossible List.not_mem_nil
  | seeded untouched member seeded extended =>
    intro loop inside
    refine (extended.loops (Environment.mem_connectionsAt.mp member).2 (seeded.sublist.trans known) loop inside).resolve_left ?_
    rw [seeded.loops]
    exact List.not_mem_nil
  | added grown member fresh added further =>
    intro loop inside
    exact (added.loops (Environment.mem_connectionsAt.mp member).2 (grown.sublist.trans known) loop inside).elim (further loop) id

theorem Legs.loops {components : List Component} {legs : List Leg} (planned : Legs environment arena graph before components legs after)
    (known : before.Sublist (Ledger.ofGraph graph)) :
    ∀ leg ∈ legs, ∀ loop ∈ leg.plan.loops, graph.Chooses environment arena loop := by
  induction planned with
  | done => exact fun _ impossible => absurd impossible List.not_mem_nil
  | leg grown covers others further =>
    intro leg member
    rcases List.mem_cons.mp member with rfl | later
    · exact grown.loops known
    · exact further (grown.sublist.trans known) leg later

theorem Rooted.loops {first root : Plan} (rooted : Rooted arena graph first before root after) : root.loops = first.loops := by
  cases rooted with
  | covered => rfl
  | argument missing recorded placed => rw [placed.filtered.loops, Plan.loops_join, Plan.loops_leaf, List.nil_append]

theorem Combined.loops {legs : List Leg} {root : Plan} (combined : Combined root before legs plan after) :
    ∀ loop ∈ plan.loops, loop ∈ root.loops ∨ ∃ leg ∈ legs, loop ∈ leg.plan.loops := by
  induction combined with
  | done => exact fun loop member => .inl member
  | product placed others further =>
    intro loop member
    rcases further loop member with below | ⟨leg, among, inside⟩
    · rw [placed.filtered.loops, Plan.loops_join] at below
      exact (List.mem_append.mp below).imp_right fun inside => ⟨_, List.mem_cons_self, inside⟩
    · exact .inr ⟨leg, List.mem_cons_of_mem _ among, inside⟩

/-- All loops of a plan were chosen for patterns of the graph. -/
theorem Composed.loops {assigned : Assignment} (composed : Composed environment arena graph plan assigned) :
    ∀ loop ∈ plan.loops, graph.Chooses environment arena loop := by
  intro loop member
  cases composed with
  | argument empty some recorded placed =>
    rw [placed.filtered.loops, Plan.loops_leaf] at member
    exact absurd member List.not_mem_nil
  | combined planned sorted rooted combined =>
    have chosen := planned.loops (.refl _)
    rcases combined.loops loop member with first | ⟨leg, among, inside⟩
    · exact chosen _ (sorted.subset List.mem_cons_self) loop (rooted.loops ▸ first)
    · exact chosen leg (sorted.subset (List.mem_cons_of_mem _ among)) loop inside

end

/-! Two scopes kept apart. -/

/-- Relationships inside a pattern are not called like its nodes, and no producer that the pattern has to avoid is called like something
inside. -/
structure MatchGraph.Discerns (graph : MatchGraph) (index : Nat) (pattern : QuantifiedPattern) : Prop where
  inside : ∀ node ∈ pattern.innerNodes, node ∉ pattern.relationshipNames
  outside : ∀ own ∈ (Connection.quantified pattern).producers index, ∀ other ∈ graph.producers, own.clashes other = true →
    other.name ∉ pattern.innerVariables

/-- The loop of a pattern lets in no variable that is called like one of its own but the node it starts from, its steps bind nothing
that is bound already, and its checks compare different variables. -/
structure Secludes {ν : Type} (arena : Arena ν) (graph : MatchGraph) (pattern : QuantifiedPattern) (direction : TraversalDirection)
    (id : PlanId) (parameters : TrailParameters) (input inner : Plan) : Prop where
  loops : Loops pattern direction parameters inner
  arguments : ∀ leafId names, .leaf leafId (.argument names) ∈ inner.subtrees →
    ∀ name ∈ names, name ≠ parameters.innerStart → name ∉ pattern.innerVariables
  discovers : inner.Discovers
  compares : ∃ siblings, (∀ sibling ∈ siblings, sibling ∈ graph.producers) ∧ inner.filterPredicates.Perm
    ((pattern.classify (arena.solved id) input.available).innerPredicates ++
      TrailStep.generated siblings [] (pattern.steps direction)) ∧
    ∀ check ∈ TrailStep.generated siblings [] (pattern.steps direction), ¬ check.ComparesItself

theorem PatternPlanned.secludes {ν : Type} {environment : Environment ν} {arena : Arena ν} {graph : MatchGraph}
    {source operator planned input inner : Plan} {request : QuantifiedRequest} {discharged : Bool} {id : PlanId}
    {parameters : TrailParameters}
    (chosen : PatternPlanned environment arena source request operator planned discharged) (formed : request.pattern.WellFormed)
    (inside : ∀ node ∈ request.pattern.innerNodes, node ∉ request.pattern.relationshipNames)
    (outside : ∀ sibling ∈ request.siblings, sibling ∈ graph.producers ∧ sibling.name ∉ request.pattern.innerVariables)
    (loop : operator = .trail id parameters input inner) :
    ∃ direction, Secludes arena graph request.pattern direction id parameters input inner := by
  have realised := chosen.realises.2
  cases chosen with
  | collapsed => cases loop
  | @looped direction finish _ _ _ kept possible built recorded ended =>
    cases loop
    have avoided : ∀ sibling ∈ request.checked source direction finish,
        sibling ∈ graph.producers ∧ sibling.name ∉ request.pattern.innerVariables :=
      fun sibling member => outside sibling (QuantifiedRequest.mem_checked.mp member).1
    have walk := formed.walk direction
    obtain ⟨arguments, same⟩ : ∃ arguments, arguments = Environment.innerArguments request.pattern
        (request.sorted source).innerPredicates source.available (request.pattern.near direction).inner
        (request.checked source direction finish) := ⟨_, rfl⟩
    rw [← same] at built
    have given : (request.pattern.near direction).inner ∈ arguments := same ▸ Environment.mem_innerArguments.mpr (.inl rfl)
    have known : ∀ sibling ∈ request.checked source direction finish, sibling.name ∈ arguments :=
      fun sibling member => same ▸ Environment.mem_innerArguments.mpr (.inr (.inr ⟨sibling, member, rfl⟩))
    have free : ∀ name ∈ arguments, name ≠ (request.pattern.near direction).inner → name ∉ request.pattern.innerVariables := by
      intro name member other
      rcases Environment.mem_innerArguments.mp (same ▸ member) with start | ⟨-, apart, -⟩ | ⟨sibling, beside, rfl⟩
      exacts [absurd start other, apart, (avoided sibling beside).2]
    refine ⟨direction, ?_, fun leafId names member name among => ?_, ?_, _, fun sibling member => (avoided sibling member).1, ?_, ?_⟩
    · cases realised with
      | @looped _ side _ _ _ _ loops ends =>
        have same : side = direction := by
          have reversed : direction.isReversed = side.isReversed := loops.reversed
          cases side <;> cases direction <;> first | rfl | cases reversed
        exact same ▸ loops
    · obtain ⟨last, rfl, sound⟩ := built.sound walk given known
      obtain ⟨_, same⟩ := sound.leaves _ member rfl
      cases same
      exact free name among
    · exact built.discovers walk given known (formed.fresh_steps direction inside free)
    · rw [recorded, QuantifiedRequest.sorted, QuantifiedPattern.innerPredicates_classify]
      exact built.filterPredicates
    · refine TrailStep.generated_compare ?_ fun sibling beside step taken called => (avoided sibling beside).2 ?_
      · exact (request.pattern.relationships_steps direction).nodup_iff.mpr formed.distinctNames
      · refine NameSet.mem_ofList.mpr (List.mem_append_right _ ?_)
        exact (request.pattern.relationships_steps direction).subset (called ▸ List.mem_map_of_mem taken)

namespace MatchGraph

/-- The producers of two connections have different names. -/
theorem obligation_compares {graph : MatchGraph} (ordered : graph.producers.Pairwise RelationshipProducer.Precedes)
    {obligation : UniquenessObligation} (member : obligation ∈ graph.obligations) : ¬ obligation.predicate.ComparesItself := by
  obtain ⟨-, first, second, clashes⟩ := UniquenessObligation.mem_ofProducers member
  rw [UniquenessObligation.predicate_of_mem member, RelationshipProducer.comparesItself_distinctness]
  intro called
  rw [eq_of_name ordered first second called, RelationshipProducer.clashes, bne_self_eq_false, Bool.false_and] at clashes
  cases clashes

end MatchGraph

/-- Every loop of a plan belongs to a pattern of the graph and keeps its scope to itself. -/
def PlannedQuery.Isolates {ν : Type} (query : PlannedQuery ν) (graph : MatchGraph) : Prop :=
  ∀ id parameters input inner, .trail id parameters input inner ∈ query.root.subtrees →
    ∃ (index : Nat) (pattern : QuantifiedPattern) (direction : TraversalDirection),
      graph.connections[index]? = some (.quantified pattern) ∧
        Secludes query.arena graph pattern direction id parameters input inner

/-- When every pattern is told apart from what is around it, no loop of a plan takes a variable of one scope for one of the other, and no
two connections are kept apart by comparing a variable with itself. -/
theorem Environment.plan_isolates {ν : Type} [Quantity ν] {environment : Environment ν} {graph : MatchGraph}
    (built : ∀ pattern, .quantified pattern ∈ graph.connections → ∃ draft : QuantifiedDraft, draft.build = .ok pattern)
    (discerned : ∀ index pattern, graph.connections[index]? = some (.quantified pattern) → graph.Discerns index pattern)
    {before after : Session ν} {query : PlannedQuery ν} (ran : environment.plan graph before = .ok query after) :
    query.Isolates graph ∧ ∀ obligation ∈ graph.obligations, ¬ obligation.predicate.ComparesItself := by
  obtain ⟨valid, assigned, composed⟩ := environment.composed_of_plan ran
  have formed := MatchGraph.wellFormed_of_built built
  refine ⟨fun id parameters input inner member => ?_,
    fun obligation => MatchGraph.obligation_compares (MatchGraph.producers_pairwise valid formed)⟩
  obtain ⟨index, pattern, ledger, source, planned, discharged, found, known, chosen⟩ :=
    composed.loops _ (List.mem_filter.mpr ⟨member, rfl⟩)
  obtain ⟨inside, outside⟩ := discerned index pattern found
  have avoided : ∀ sibling ∈ (pattern.site graph index source.available ledger).request.siblings,
      sibling ∈ graph.producers ∧ sibling.name ∉ pattern.innerVariables := by
    intro sibling beside
    obtain ⟨_, own, concern, -⟩ := QuantifiedPattern.mem_siblings.mp beside
    obtain ⟨mine, theirs, clashes⟩ := Ledger.clash_of_obligation known.subset found concern
    exact ⟨theirs, outside own mine sibling theirs clashes⟩
  obtain ⟨direction, secludes⟩ := chosen.secludes (formed pattern (List.mem_of_getElem? found)) inside avoided rfl
  exact ⟨index, pattern, direction, found, secludes⟩

namespace MatchGraph

/-- Parallel loops are told apart from one another and from the relationship beside them. -/
theorem parallel_isolated : ∃ query after, Environment.counting.plan (parallel "g") (.initial false) = .ok query after ∧
    query.Isolates (parallel "g") ∧ ∀ obligation ∈ (parallel "g").obligations, ¬ obligation.predicate.ComparesItself := by
  have returns : parallelReturns "g" (fun _ => true) = true := by decide +kernel
  obtain ⟨query, after, ran, -⟩ := parallel_returns returns
  refine ⟨query, after, ran, Environment.plan_isolates (parallel_built rfl) (fun index pattern found => ?_) ran⟩
  rcases index with _ | _ | _ | index
  · cases found
  · cases found
    exact ⟨by decide +kernel, by decide +kernel⟩
  · cases found
    exact ⟨by decide +kernel, by decide +kernel⟩
  · cases found

/-- A loop whose relationship is called like a relationship beside the loop. -/
def shadowing : MatchGraph where
  nodes := [⟨"a", []⟩, ⟨"b", []⟩]
  connections := [.relationship ⟨"r", "a", "b", .outgoing, [], .simple⟩,
    .quantified { QuantifiedDraft.short.pattern with relationshipGroupings := [⟨"r", "g"⟩] }]
  selections := []
  arguments := ∅
  required := ∅
  distinctEndpoints := false

/-- A loop that lets in a relationship called like its own and compares the two. -/
private def captures : Plan → Bool
  | .trail _ parameters _ inner =>
    decide (parameters.innerStart ≠ "r") &&
      (inner.subtrees.any fun
        | .leaf _ (.argument names) => decide ("r" ∈ names)
        | _ => false) &&
      inner.filterPredicates.any fun
        | .negation (.binary .equal (.reference first) (.reference second)) => first == second
        | _ => false
  | _ => false

/-- The pattern groups its relationship under a name of its own, so both variables count as bound once. The loop then filters by a
check that no relationship passes. -/
theorem shadowing_captured :
    (∀ pattern, .quantified pattern ∈ shadowing.connections → ∃ draft : QuantifiedDraft, draft.build = .ok pattern) ∧
    ∃ query after, Environment.counting.plan shadowing (.initial false) = .ok query after ∧ ¬ query.Isolates shadowing ∧
      ∃ id parameters input inner, .trail id parameters input inner ∈ query.root.subtrees ∧
        ∃ check ∈ inner.filterPredicates, check.ComparesItself := by
  have returns : Environment.counting.returns shadowing (fun query => query.root.subtrees.any captures) = true := by decide +kernel
  obtain ⟨query, after, ran, accepted⟩ := Environment.returns_ok returns
  refine ⟨fun pattern member => ?_, query, after, ran, ?_⟩
  · have only : pattern = { QuantifiedDraft.short.pattern with relationshipGroupings := [⟨"r", "g"⟩] } := by
      simpa [shadowing] using member
    exact only ▸ ⟨{ QuantifiedDraft.short with relationshipGroupings := [⟨"r", "g"⟩] }, rfl⟩
  · obtain ⟨loop, member, captured⟩ := List.any_eq_true.mp accepted
    cases loop with
    | leaf | step | join => cases captured
    | trail id parameters input inner =>
      simp only [captures, Bool.and_eq_true, decide_eq_true_eq, List.any_eq_true] at captured
      obtain ⟨⟨start, leaf, among, carries⟩, check, placed, compares⟩ := captured
      refine ⟨fun isolates => ?_, id, parameters, input, inner, member, check, placed, ?_⟩
      · obtain ⟨index, pattern, direction, found, secludes⟩ := isolates id parameters input inner member
        have own : "r" ∈ pattern.innerVariables := by
          rcases index with _ | _ | index
          · cases found
          · cases found
            decide +kernel
          · cases found
        split at carries
        next leafId names => exact secludes.arguments leafId names among "r" (of_decide_eq_true carries) start.symm own
        next => cases carries
      · split at compares
        next first second => exact Expression.comparesItself_equals.mpr (eq_of_beq compares)
        next => cases compares

end MatchGraph

end MatchPlanner
