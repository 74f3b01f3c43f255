import MatchPlanner.Proofs.Repetition
import MatchPlanner.Proofs.Threading

/-! No operator of a plan reads a variable that is not bound where it stands. The two scopes of a loop are kept apart: its inner
plan starts from an argument of its own and meets the plan outside in the parameters of the loop alone. -/

namespace MatchPlanner

/-- A predicate on every visited element reads that element and what is bound. -/
def VariablePredicate.Scoped (bound : NameSet) (predicate : VariablePredicate) : Prop :=
  ∀ name ∈ predicate.predicate.dependencies, name = predicate.element ∨ name ∈ bound

/-- The value an index is searched for reads no variable. -/
def Leaf.Scoped : Leaf → Prop
  | .indexSeek _ _ _ value _ => value.dependencies = ∅
  | _ => True

def Join.Scoped (left right : NameSet) : Join → Prop
  | .cartesianProduct => True
  | .nodeHashJoin nodes => ∀ node ∈ nodes, node ∈ left ∧ node ∈ right

def Step.Scoped (bound : NameSet) : Step → Prop
  | .expand hop _ mode => hop.source ∈ bound ∧ (mode = .into ↔ hop.target ∈ bound)
  | .varLengthExpand hop _ _ nodes relationships mode =>
    hop.source ∈ bound ∧ (mode = .into ↔ hop.target ∈ bound) ∧ ∀ predicate ∈ nodes ++ relationships, predicate.Scoped bound
  | .pruningVarExpand hop _ _ nodes relationships => hop.source ∈ bound ∧ ∀ predicate ∈ nodes ++ relationships, predicate.Scoped bound
  | .bfsPruningVarExpand hop _ _ nodes relationships => hop.source ∈ bound ∧ ∀ predicate ∈ nodes ++ relationships, predicate.Scoped bound
  | .filter predicates => ∀ predicate ∈ predicates, ∀ name ∈ predicate.dependencies, name ∈ bound
  | .eager _ => True

/-- The parameters of a loop refer to its input on one side and to its inner plan on the other. -/
structure TrailParameters.Scoped (parameters : TrailParameters) (bound : NameSet) (inner : Plan) : Prop where
  start : parameters.start ∈ bound
  relationships : ∀ name ∈ parameters.boundRelationships, name ∈ bound
  groups : ∀ name ∈ parameters.boundRelationshipGroups, name ∈ bound
  arguments : ∀ node ∈ inner.subtrees, node.isLeaf = true → ∃ id names, node = .leaf id (.argument names) ∧
    ∀ name ∈ names, name = parameters.innerStart ∨ name ∈ bound
  finish : parameters.innerEnd ∈ inner.available
  kept : ∀ grouping ∈ parameters.groupNodes ++ parameters.groupRelationships, grouping.singleton ∈ inner.available

/-- What the operator at the root reads is bound below it. -/
def Plan.Scoped : Plan → Prop
  | .leaf _ operator => operator.Scoped
  | .step _ operator input => operator.Scoped input.available
  | .trail _ parameters input inner => parameters.Scoped input.available inner
  | .join _ operator left right => operator.Scoped left.available right.available

/-- Every operator of a plan is in scope, those inside loops included. -/
def Plan.WellScoped (plan : Plan) : Prop := ∀ node ∈ plan.subtrees, node.Scoped

namespace Plan

theorem WellScoped.leaf {id : PlanId} {operator : Leaf} (reads : (leaf id operator).Scoped) : (leaf id operator).WellScoped := by
  intro node member
  rwa [List.mem_singleton.mp member]

theorem WellScoped.step {id : PlanId} {operator : Step} {input : Plan} (reads : operator.Scoped input.available)
    (below : input.WellScoped) : (step id operator input).WellScoped := by
  intro node member
  rcases List.mem_cons.mp member with rfl | deeper
  · exact reads
  · exact below node deeper

theorem WellScoped.trail {id : PlanId} {parameters : TrailParameters} {input inner : Plan}
    (reads : parameters.Scoped input.available inner) (below : input.WellScoped) (inside : inner.WellScoped) :
    (trail id parameters input inner).WellScoped := by
  intro node member
  rcases List.mem_cons.mp member with rfl | deeper
  · exact reads
  · rcases List.mem_append.mp deeper with outside | within
    · exact below node outside
    · exact inside node within

theorem WellScoped.join {id : PlanId} {operator : Join} {left right : Plan} (reads : (join id operator left right).Scoped)
    (former : left.WellScoped) (latter : right.WellScoped) : (join id operator left right).WellScoped := by
  intro node member
  rcases List.mem_cons.mp member with rfl | deeper
  · exact reads
  · rcases List.mem_append.mp deeper with first | second
    · exact former node first
    · exact latter node second

end Plan

theorem Filtered.wellScoped {input plan : Plan} {predicates : List Expression} (filtered : Filtered input predicates plan)
    (below : input.WellScoped) (reads : ∀ predicate ∈ predicates, ∀ name ∈ predicate.dependencies, name ∈ input.available) :
    plan.WellScoped := by
  cases filtered with
  | untouched => exact below
  | filter => exact .step reads below

theorem Filtered.leaves {input plan leaf : Plan} {predicates : List Expression} (filtered : Filtered input predicates plan)
    (member : leaf ∈ plan.subtrees) (bare : leaf.isLeaf = true) : leaf ∈ input.subtrees := by
  cases filtered with
  | untouched => exact member
  | filter =>
    rcases List.mem_cons.mp member with rfl | deeper
    · cases bare
    · exact deeper

theorem reads_of_ready {ledger : Ledger} {bound : NameSet} (ready : ∀ entry ∈ ledger, entry.isReady bound = true) :
    ∀ predicate ∈ ledger.predicates, ∀ name ∈ predicate.dependencies, name ∈ bound := by
  intro predicate member
  obtain ⟨entry, among, rfl⟩ := List.mem_map.mp member
  exact NameSet.within_iff.mp (ready entry among)

/-! One repetition. -/

/-- A repetition is planned up to a node: what it takes for bound is what its plan binds. -/
structure InnerProgress.Sound (arguments : NameSet) (earlier : List TrailStep) (node : String) (progress : InnerProgress) :
    Prop where
  scope : ∀ name, name ∈ progress.scope ↔ name ∈ progress.plan.available
  wellScoped : progress.plan.WellScoped
  reached : node ∈ progress.scope
  given : ∀ name ∈ arguments, name ∈ progress.scope
  earlier : ∀ step ∈ earlier, step.hop.source ∈ progress.scope ∧ step.relationship ∈ progress.scope ∧ step.hop.target ∈ progress.scope
  leaves : ∀ leaf ∈ progress.plan.subtrees, leaf.isLeaf = true → ∃ id, leaf = .leaf id (.argument arguments.names)

namespace InnerProgress

variable {arguments : NameSet} {earlier : List TrailStep} {node : String} {progress placed : InnerProgress}

theorem Sound.initial {id : PlanId} {pending : List Expression} (member : node ∈ arguments) :
    (InnerProgress.initial id arguments pending).Sound arguments [] node where
  scope name := by simp [InnerProgress.initial, Leaf.binds]
  wellScoped := .leaf trivial
  reached := member
  given _ given := given
  earlier _ impossible := absurd impossible List.not_mem_nil
  leaves leaf among _ := ⟨id, List.mem_singleton.mp among⟩

theorem Sound.place {checks : List Expression} (sound : progress.Sound arguments earlier node)
    (above : InnerPlaced progress checks placed)
    (reads : ∀ check ∈ checks, ∀ name ∈ check.dependencies, name ∈ progress.scope) : placed.Sound arguments earlier node := by
  have same := above.filtered.available
  refine ⟨fun name => ?_, ?_, ?_, ?_, ?_, fun leaf among => ?_⟩
  · rw [above.scope, same]
    exact sound.scope name
  · apply above.filtered.wellScoped sound.wellScoped
    intro predicate member name read
    apply (sound.scope name).mp
    rcases List.mem_append.mp member with ready | check
    · exact NameSet.within_iff.mp (List.mem_filter.mp ready).2 name read
    · exact reads predicate check name read
  · exact above.scope ▸ sound.reached
  · exact above.scope ▸ sound.given
  · exact above.scope ▸ sound.earlier
  · intro bare
    exact sound.leaves leaf (above.filtered.leaves among bare) bare

theorem Sound.expand {id : PlanId} (step : TrailStep) (sound : progress.Sound arguments earlier step.hop.source) :
    (progress.expand id step).Sound arguments (earlier ++ [step]) step.hop.target where
  scope name := by
    have before := sound.scope name
    have start := sound.reached
    rw [mem_scope_expand]
    simp only [InnerProgress.expand, Plan.mem_available_step, Step.binds, List.mem_cons, List.not_mem_nil, or_false]
    grind
  wellScoped := by
    refine .step ⟨(sound.scope _).mp sound.reached, ?_⟩ sound.wellScoped
    rw [← sound.scope]
    split
    next bound => exact iff_of_true rfl bound
    next free => exact iff_of_false (by simp) free
  reached := mem_scope_expand.mpr (.inl rfl)
  given name given := mem_scope_expand.mpr (.inr (.inr (sound.given name given)))
  earlier other member := by
    simp only [mem_scope_expand]
    rcases List.mem_append.mp member with before | here
    · obtain ⟨source, relationship, target⟩ := sound.earlier other before
      exact ⟨.inr (.inr source), .inr (.inr relationship), .inr (.inr target)⟩
    · rw [List.mem_singleton.mp here]
      exact ⟨.inr (.inr sound.reached), .inr (.inl rfl), .inl rfl⟩
  leaves leaf among := by
    rcases List.mem_cons.mp among with rfl | deeper
    · intro impossible
      exact by cases impossible
    · exact sound.leaves leaf deeper

end InnerProgress

theorem TrailStep.mem_checks {step : TrailStep} {earlier : List TrailStep} {siblings : List RelationshipProducer}
    {check : Expression} {name : String} (member : check ∈ step.uniquenessChecks earlier siblings)
    (reads : name ∈ check.dependencies) : name = step.relationship ∨ (∃ other ∈ earlier, name = other.relationship) ∨
      ∃ sibling ∈ siblings, name = sibling.name := by
  unfold uniquenessChecks at member
  rcases List.mem_append.mp member with own | beside
  · rcases List.mem_cons.mp own with rfl | among
    · left
      simpa [repeatCheck, Expression.dependencies, Expression.dependenciesOfAll] using reads
    · obtain ⟨other, overlapping, rfl⟩ := List.mem_map.mp among
      simp only [Expression.equals, Expression.dependencies, NameSet.mem_union, NameSet.mem_ofList, List.mem_singleton] at reads
      exact reads.imp_right fun same => .inl ⟨other, (List.mem_filter.mp overlapping).1, same⟩
  · obtain ⟨sibling, overlapping, rfl⟩ := List.mem_map.mp beside
    have either : name = step.relationship ∨ name = sibling.name := by
      unfold checkAgainst at reads
      split at reads <;> simpa [Expression.equals, Expression.isMember, Expression.dependencies] using reads
    exact either.imp_right fun same => .inr ⟨sibling, (List.mem_filter.mp overlapping).1, same⟩

theorem InnerProgress.Sound.take {siblings : List RelationshipProducer} {arguments : NameSet} {earlier : List TrailStep}
    {step : TrailStep} {id : PlanId} {progress placed : InnerProgress} (sound : progress.Sound arguments earlier step.hop.source)
    (expanded : InnerPlaced (progress.expand id step) (step.uniquenessChecks earlier siblings) placed)
    (known : ∀ sibling ∈ siblings, sibling.name ∈ arguments) : placed.Sound arguments (earlier ++ [step]) step.hop.target := by
  have grown : (progress.expand id step).Sound arguments (earlier ++ [step]) step.hop.target := .expand step sound
  refine grown.place expanded fun check member name reads => ?_
  rcases TrailStep.mem_checks member reads with rfl | ⟨other, before, rfl⟩ | ⟨sibling, beside, rfl⟩
  · exact InnerProgress.mem_scope_expand.mpr (.inr (.inl rfl))
  · exact (grown.earlier other (List.mem_append_left _ before)).2.1
  · exact grown.given _ (known sibling beside)

theorem InnerSteps.sound {siblings : List RelationshipProducer} {arguments : NameSet} {earlier steps : List TrailStep}
    {progress last : InnerProgress} {start finish : String} (stepped : InnerSteps siblings earlier progress steps last)
    (walk : Walk start steps finish) (sound : progress.Sound arguments earlier start)
    (known : ∀ sibling ∈ siblings, sibling.name ∈ arguments) : last.Sound arguments (earlier ++ steps) finish := by
  induction stepped generalizing start with
  | done =>
    cases walk
    rwa [List.append_nil]
  | step expanded _ further =>
    cases walk with
    | step onward => simpa using further onward (sound.take expanded known)

theorem InnerBuilt.sound {pending : List Expression} {arguments : NameSet} {steps : List TrailStep}
    {siblings : List RelationshipProducer} {start finish : String} {plan : Plan}
    (built : InnerBuilt pending arguments steps siblings plan) (walk : Walk start steps finish) (given : start ∈ arguments)
    (known : ∀ sibling ∈ siblings, sibling.name ∈ arguments) :
    ∃ last : InnerProgress, last.plan = plan ∧ last.Sound arguments steps finish := by
  cases built with
  | @built id started last begun stepped complete =>
    have initial : (InnerProgress.initial id arguments pending).Sound arguments [] start := .initial given
    have above := initial.place begun fun _ impossible => absurd impossible List.not_mem_nil
    exact ⟨last, rfl, stepped.sound walk above known⟩

theorem InnerProgress.Sound.members {pattern : QuantifiedPattern} {direction : TraversalDirection} {arguments : NameSet}
    {last : InnerProgress} (sound : last.Sound arguments (pattern.steps direction) (pattern.far direction).inner)
    (given : (pattern.near direction).inner ∈ arguments) :
    (∀ node ∈ pattern.innerNodes, node ∈ last.plan.available) ∧ ∀ name ∈ pattern.relationshipNames, name ∈ last.plan.available := by
  simp only [← sound.scope]
  refine ⟨fun node member => ?_, fun name member => ?_⟩
  · rcases List.mem_cons.mp member with rfl | right
    · cases direction with
      | forward => exact sound.given _ given
      | reversed => exact sound.reached
    · obtain ⟨relationship, among, rfl⟩ := List.mem_map.mp right
      obtain ⟨step, taken, -, -, target | source⟩ := QuantifiedPattern.step_of_relationship direction among
      · exact target ▸ (sound.earlier step taken).2.2
      · exact source ▸ (sound.earlier step taken).1
  · obtain ⟨relationship, among, rfl⟩ := List.mem_map.mp member
    obtain ⟨step, taken, same, -⟩ := QuantifiedPattern.step_of_relationship direction among
    exact same ▸ (sound.earlier step taken).2.1

/-! Whole plans. -/

section

variable {ν : Type} {environment : Environment ν} {arena : Arena ν} {graph : MatchGraph}

theorem QuantifiedRequest.near_bound {request : QuantifiedRequest} {bound : NameSet} {direction : TraversalDirection}
    (possible : direction ∈ request.directions bound) : (request.pattern.near direction).outer ∈ bound := by
  unfold directions at possible
  rcases List.mem_append.mp possible with forward | reversed
  · split at forward
    next left => exact List.mem_singleton.mp forward ▸ left
    next => exact absurd forward List.not_mem_nil
  · split at reversed
    next right => exact List.mem_singleton.mp reversed ▸ right
    next => exact absurd reversed List.not_mem_nil

theorem LoopEnded.wellScoped {boundary finish : String} {bound : NameSet} {loop plan : Plan}
    (ended : LoopEnded bound boundary loop finish plan) (below : loop.WellScoped) (finishes : finish ∈ loop.available)
    (grows : ∀ name ∈ bound, name ∈ loop.available) : plan.WellScoped := by
  cases ended with
  | reached => exact below
  | closed taken reserved =>
    refine .step (fun predicate member name reads => ?_) below
    rw [List.mem_singleton.mp member] at reads
    simp only [Expression.equals, Expression.dependencies, NameSet.mem_union, NameSet.mem_ofList, List.mem_singleton] at reads
    rcases reads with rfl | rfl
    exacts [finishes, grows _ taken]

theorem PatternPlanned.wellScoped {source : Plan} {request : QuantifiedRequest} {operator plan : Plan} {discharged : Bool}
    (planned : PatternPlanned environment arena source request operator plan discharged) (formed : request.pattern.WellFormed)
    (below : source.WellScoped) : plan.WellScoped := by
  cases planned with
  | @collapsed direction relationship others group id collapses possible relationships grouped recorded =>
    refine .step ?_ below
    have start : (request.hop relationship direction).source ∈ source.available := request.near_bound possible
    have reads : ∀ predicate ∈ [] ++ (request.sorted source).extracted.map ExtractedPredicate.element,
        predicate.Scoped source.available := by
      intro predicate member
      obtain ⟨extracted, among, rfl⟩ := List.mem_map.mp member
      exact (QuantifiedPattern.extract?_some (QuantifiedPattern.mem_extracted among).2).2.2.2
    have mode : (if decide ((request.hop relationship direction).target ∈ source.available) = true then ExpansionMode.into else .all) =
        .into ↔ (request.hop relationship direction).target ∈ source.available := by
      split
      next bound => exact iff_of_true rfl (of_decide_eq_true bound)
      next free => exact iff_of_false (by simp) fun bound => free (decide_eq_true bound)
    rcases request.expansion_cases environment.config (request.hop relationship direction) group
      ((request.sorted source).extracted.map ExtractedPredicate.element)
      (request.prunes environment.config (request.needs source) group
        (decide ((request.hop relationship direction).target ∈ source.available)))
      (decide ((request.hop relationship direction).target ∈ source.available)) with full | ⟨-, ⟨most, -, pruned⟩ | ⟨-, pruned⟩⟩
    · rw [full]
      exact ⟨start, mode, reads⟩
    · rw [pruned]
      exact ⟨start, reads⟩
    · rw [pruned]
      exact ⟨start, reads⟩
  | @looped direction finish id inner _ kept possible built recorded ended =>
    have listed : ∀ form, ∀ name ∈ (request.trail source direction).boundNames form, name ∈ source.available := by
      intro form name member
      obtain ⟨sibling, -, -, -, bound, -⟩ := TrailRequest.mem_boundNames.mp member
      exact bound
    have given : (request.pattern.near direction).inner ∈ Environment.innerArguments request.pattern
        (request.sorted source).innerPredicates source.available (request.pattern.near direction).inner
        (request.checked source direction finish) :=
      Environment.mem_innerArguments.mpr (.inl rfl)
    obtain ⟨last, rfl, sound⟩ := built.sound (formed.walk direction) given fun sibling member =>
      Environment.mem_innerArguments.mpr (.inr (.inr ⟨sibling, member, rfl⟩))
    obtain ⟨nodes, names⟩ := sound.members given
    have parameters : ((request.trail source direction).parameters finish).Scoped source.available last.plan :=
      { start := request.near_bound possible
        relationships := listed .single
        groups := listed .list
        arguments := fun node member bare => by
          obtain ⟨leafId, rfl⟩ := sound.leaves node member bare
          refine ⟨leafId, _, rfl, fun name among => ?_⟩
          rcases Environment.mem_innerArguments.mp among with start | ⟨-, -, bound⟩ | ⟨sibling, beside, rfl⟩
          · exact .inl start
          · exact .inr bound
          · exact .inr (listed _ _ (QuantifiedRequest.mem_checked.mp beside).2)
        finish := (sound.scope _).mp sound.reached
        kept := fun grouping member => by
          rcases List.mem_append.mp member with node | relationship
          · exact nodes _ (formed.nodeMembers _ (List.mem_filter.mp node).1)
          · exact names _ (formed.relationshipMembers _ (List.mem_filter.mp relationship).1) }
    refine ended.wellScoped (.trail parameters below sound.wellScoped) ?_ fun name bound => ?_
    · exact Plan.mem_available_trail.mpr (.inr (.inl rfl))
    · exact Plan.mem_available_trail.mpr (.inl bound)

theorem PatternRelationship.wellScoped_expandAbove {relationship : PatternRelationship} {id : PlanId} {input : Plan}
    (touches : relationship.left ∈ input.available ∨ relationship.right ∈ input.available) (below : input.WellScoped) :
    (relationship.expandAbove id input).WellScoped := by
  have start : (relationship.orientation input.available).1 ∈ input.available := by
    rcases relationship.mem_orientation input.available with ⟨same, bound⟩ | ⟨same, free⟩ <;> rw [same]
    exacts [bound, touches.resolve_left free]
  have mode : (if (relationship.orientation input.available).2 ∈ input.available then ExpansionMode.into else .all) = .into ↔
      (relationship.orientation input.available).2 ∈ input.available := by
    split
    next bound => exact iff_of_true rfl bound
    next free => exact iff_of_false (by simp) free
  refine .step ?_ below
  unfold PatternRelationship.step
  split
  · exact ⟨start, mode⟩
  · exact ⟨start, mode, fun _ impossible => absurd impossible List.not_mem_nil⟩

theorem Scan.wellScoped {node : String} {plan : Plan} {account : Account} (scan : Scan arena graph node plan account) :
    plan.WellScoped := by
  cases scan with
  | @scan ledger entries leaf id plan known sound recorded ready filtered =>
    refine filtered.wellScoped (.leaf ?_) (reads_of_ready fun entry member => (ready entry member).2)
    change leaf.operator.Scoped
    cases same : leaf.operator with
    | indexSeek => exact sound.closed _ _ _ _ _ same
    | _ => exact trivial

/-- Each way to put a plan together keeps it in scope. -/
theorem Assembled.wellScoped {plan : Plan} {assigned : Assignment} {account : Account}
    (assembled : Assembled environment arena graph plan assigned account)
    (formed : ∀ pattern, .quantified pattern ∈ graph.connections → pattern.WellFormed) : plan.WellScoped := by
  induction assembled with
  | argument => exact .leaf trivial
  | scan declared scan => exact scan.wellScoped
  | placed below ready filtered further =>
    exact filtered.wellScoped further (reads_of_ready fun entry member => (ready entry member).2)
  | relationship below declared touches recorded further => exact PatternRelationship.wellScoped_expandAbove touches further
  | @quantified index pattern ledger done operator input plan discharged assigned account below declared fresh opened chosen further =>
    exact chosen.wellScoped (formed pattern (List.mem_of_getElem? declared)) further
  | @joined index relationship near far id joinId input leaf assigned account scanned below declared simple oriented nearBound
      farFree scan further =>
    have start : far ∈ leaf.available := scan.mem_available.mpr rfl
    have different : near ∉ leaf.available := fun same => farFree (scan.mem_available.mp same ▸ nearBound)
    refine .join (fun node member => ?_) further (.step ⟨start, iff_of_false (by simp) different⟩ scan.wellScoped)
    rw [List.mem_singleton.mp member]
    exact ⟨nearBound, Plan.mem_available_step.mpr (.inr (by simp [Step.binds, PatternRelationship.hop]))⟩
  | product below beside former latter => exact .join trivial former latter

variable [Quantity ν]

/-- Every operator of a returned plan, inside loops and outside, reads only what is bound where it stands. -/
theorem Environment.plan_wellScoped (standard : environment.StandardLeaves)
    (built : ∀ pattern, .quantified pattern ∈ graph.connections → ∃ draft : QuantifiedDraft, draft.build = .ok pattern)
    {before after : Session ν} {query : PlannedQuery ν} (ran : environment.plan graph before = .ok query after) :
    query.root.WellScoped := by
  obtain ⟨-, covered, account, assembled, -⟩ := environment.assembled_of_plan standard ran
  apply assembled.wellScoped
  intro pattern member
  obtain ⟨draft, accepted⟩ := built pattern member
  exact QuantifiedDraft.build_ok accepted

/-- The clause of parallel loops gets such a plan. -/
theorem MatchGraph.parallel_wellScoped : ∃ query after,
    Environment.counting.plan (parallel "g") (.initial false) = .ok query after ∧ query.root.WellScoped := by
  have returns : parallelReturns "g" (fun _ => true) = true := by decide +kernel
  obtain ⟨query, after, ran, -⟩ := parallel_returns returns
  exact ⟨query, after, ran, Environment.plan_wellScoped Environment.counting_standard (parallel_built rfl) ran⟩

end

end MatchPlanner
