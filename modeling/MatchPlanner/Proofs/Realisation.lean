import MatchPlanner.Proofs.Repetition
import MatchPlanner.Proofs.Threading

/-! Every connection of a graph is planned by exactly one operator, which follows the connection from one of its two sides. -/

namespace MatchPlanner

/-- The hop over a relationship between two nodes, seen from either of them. -/
def hopBetween (left right : String) (direction : Direction) (types : List String) : TraversalDirection → Hop
  | .forward => ⟨left, right, direction, types⟩
  | .reversed => ⟨right, left, direction.reversed, types⟩

/-- A step inside a loop goes over a relationship of the pattern, along the pattern or against it. -/
def Traverses (direction : TraversalDirection) (relationship : PatternRelationship) (operator : Plan) : Prop :=
  ∃ id mode input, operator = .step id (.expand (hopBetween relationship.left relationship.right relationship.direction
    relationship.types direction) relationship.name mode) input

/-- The relationships of a pattern in the order in which a loop comes to them. -/
def QuantifiedPattern.path (pattern : QuantifiedPattern) : TraversalDirection → List PatternRelationship
  | .forward => pattern.relationships
  | .reversed => pattern.relationships.reverse

/-- The loop of a pattern that starts at one of its boundaries. -/
structure Loops (pattern : QuantifiedPattern) (direction : TraversalDirection) (parameters : TrailParameters) (inner : Plan) :
    Prop where
  range : parameters.range = pattern.repetition
  start : parameters.start = (pattern.near direction).outer
  innerStart : parameters.innerStart = (pattern.near direction).inner
  innerEnd : parameters.innerEnd = (pattern.far direction).inner
  reversed : parameters.reversedGroups = direction.isReversed
  /-- From the bottom of the inner plan to its top. -/
  traverses : List.Forall₂ (Traverses direction) (pattern.path direction) inner.expansions.reverse

/-- An operator of a plan goes over the whole of a connection and over nothing else. -/
inductive Realises (plan : Plan) : Connection → Plan → Prop where
  | expand {relationship : PatternRelationship} {id : PlanId} {side : TraversalDirection} {mode : ExpansionMode} {input : Plan}
    (simple : relationship.length = .simple) :
    Realises plan (.relationship relationship)
      (.step id (.expand (hopBetween relationship.left relationship.right relationship.direction relationship.types side)
        relationship.name mode) input)
  | path {relationship : PatternRelationship} {range : Repetition} {id : PlanId} {side : TraversalDirection}
    {mode : ExpansionMode} {input : Plan} (long : relationship.length = .path range) :
    Realises plan (.relationship relationship)
      (.step id (.varLengthExpand (hopBetween relationship.left relationship.right relationship.direction relationship.types side)
        relationship.name range [] [] mode) input)
  | collapsed {pattern : QuantifiedPattern} {relationship : PatternRelationship} {group : String} {id : PlanId}
    {side : TraversalDirection} {predicates : List VariablePredicate} {mode : ExpansionMode} {input : Plan}
    (single : pattern.relationships = [relationship]) (grouped : pattern.relationshipGroup? relationship.name = some group) :
    Realises plan (.quantified pattern)
      (.step id (.varLengthExpand (hopBetween pattern.left.outer pattern.right.outer relationship.direction relationship.types side)
        group pattern.repetition [] predicates mode) input)
  | pruned {pattern : QuantifiedPattern} {relationship : PatternRelationship} {least most : Nat} {id : PlanId}
    {side : TraversalDirection} {predicates : List VariablePredicate} {input : Plan}
    (single : pattern.relationships = [relationship]) (bounds : pattern.repetition = ⟨least, .limited most⟩) :
    Realises plan (.quantified pattern)
      (.step id (.pruningVarExpand (hopBetween pattern.left.outer pattern.right.outer relationship.direction relationship.types side)
        least most [] predicates) input)
  | breadthFirst {pattern : QuantifiedPattern} {relationship : PatternRelationship} {id : PlanId} {side : TraversalDirection}
    {includeStart : Bool} {predicates : List VariablePredicate} {input : Plan} (single : pattern.relationships = [relationship])
    (least : pattern.repetition.least ≤ 1) (included : includeStart = true ↔ pattern.repetition.least = 0) :
    Realises plan (.quantified pattern)
      (.step id (.bfsPruningVarExpand
        (hopBetween pattern.left.outer pattern.right.outer relationship.direction relationship.types side) includeStart
        pattern.repetition.most [] predicates) input)
  | looped {pattern : QuantifiedPattern} {direction : TraversalDirection} {parameters : TrailParameters} {id : PlanId}
    {input inner : Plan} (loops : Loops pattern direction parameters inner)
    (ends : parameters.finish = (pattern.far direction).outer ∨ isReserved parameters.finish = true ∧ ∃ filterId,
      .step filterId (.filter [.equals (.reference parameters.finish) (.reference (pattern.far direction).outer)])
        (.trail id parameters input inner) ∈ plan.outer) :
    Realises plan (.quantified pattern) (.trail id parameters input inner)

theorem Realises.grow {plan larger operator : Plan} {connection : Connection} (realises : Realises plan connection operator)
    (grows : plan.outer ⊆ larger.outer) : Realises larger connection operator := by
  cases realises with
  | expand simple => exact .expand simple
  | path long => exact .path long
  | collapsed single grouped => exact .collapsed single grouped
  | pruned single bounds => exact .pruned single bounds
  | breadthFirst single least included => exact .breadthFirst single least included
  | looped loops ends => exact .looped loops (ends.imp_right fun ⟨reserved, filterId, member⟩ => ⟨reserved, filterId, grows member⟩)

/-! Orientation. -/

/-- A relationship left from its right end only is seen from the other side. -/
theorem PatternRelationship.hop_between {relationship : PatternRelationship} {source target : String}
    (ends : (source, target) = (relationship.left, relationship.right) ∨ (source, target) = (relationship.right, relationship.left)) :
    ∃ side, relationship.hop source target =
      hopBetween relationship.left relationship.right relationship.direction relationship.types side := by
  rcases ends with same | same <;> cases same
  · exact ⟨.forward, by simp [hop, hopBetween, directionFrom]⟩
  · by_cases loop : relationship.right = relationship.left
    · exact ⟨.forward, by simp [hop, hopBetween, directionFrom, loop]⟩
    · exact ⟨.reversed, by simp [hop, hopBetween, directionFrom, loop]⟩

theorem PatternRelationship.orientation_ends (relationship : PatternRelationship) (bound : NameSet) :
    relationship.orientation bound = (relationship.left, relationship.right) ∨
      relationship.orientation bound = (relationship.right, relationship.left) :=
  (relationship.mem_orientation bound).imp And.left And.left

theorem PatternRelationship.realises_expandAbove (relationship : PatternRelationship) (id : PlanId) (input : Plan) :
    Realises (relationship.expandAbove id input) (.relationship relationship) (relationship.expandAbove id input) := by
  have ends := relationship.orientation_ends input.available
  unfold expandAbove
  generalize relationship.orientation input.available = oriented at ends
  obtain ⟨source, target⟩ := oriented
  obtain ⟨side, same⟩ := hop_between ends
  simp only [same]
  unfold step
  split
  next simple => exact .expand simple
  next range long => exact .path long

theorem QuantifiedRequest.hop_between (request : QuantifiedRequest) (relationship : PatternRelationship)
    (direction : TraversalDirection) : request.hop relationship direction =
      hopBetween request.pattern.left.outer request.pattern.right.outer relationship.direction relationship.types direction := by
  cases direction <;> rfl

/-! Inside a loop. -/

theorem InnerSteps.expansions {siblings : List RelationshipProducer} {earlier steps : List TrailStep}
    {progress last : InnerProgress} (stepped : InnerSteps siblings earlier progress steps last) :
    ∃ operators, last.plan.expansions.reverse = progress.plan.expansions.reverse ++ operators ∧
      List.Forall₂ (fun step operator => ∃ id mode input, operator = .step id (.expand step.hop step.relationship mode) input)
        steps operators := by
  induction stepped with
  | done => exact ⟨[], (List.append_nil _).symm, .nil⟩
  | @step earlier rest step progress placed last id expanded _ further =>
    obtain ⟨operators, same, taken⟩ := further
    refine ⟨(progress.expand id step).plan :: operators, ?_, .cons ⟨id, _, progress.plan, rfl⟩ taken⟩
    have above : (progress.expand id step).plan.expansions = (progress.expand id step).plan :: progress.plan.expansions :=
      Plan.expansions_step _ _ rfl
    rw [same, expanded.filtered.expansions, above, List.reverse_cons, List.append_assoc]
    rfl

theorem InnerBuilt.expansions {pending : List Expression} {arguments : NameSet} {steps : List TrailStep}
    {siblings : List RelationshipProducer} {plan : Plan} (built : InnerBuilt pending arguments steps siblings plan) :
    List.Forall₂ (fun step operator => ∃ id mode input, operator = .step id (.expand step.hop step.relationship mode) input)
      steps plan.expansions.reverse := by
  cases built with
  | built begun stepped complete =>
    obtain ⟨operators, same, taken⟩ := stepped.expansions
    rw [same, begun.filtered.expansions]
    exact taken

/-- The steps of a loop are the relationships on its path, each seen from the side the loop comes from. -/
theorem QuantifiedPattern.steps_path (pattern : QuantifiedPattern) (direction : TraversalDirection) :
    pattern.steps direction = (pattern.path direction).map fun relationship => ⟨relationship.name,
      hopBetween relationship.left relationship.right relationship.direction relationship.types direction⟩ := by
  cases direction with
  | forward => rfl
  | reversed =>
    simp only [steps, forwardSteps, path, List.map_reverse, List.map_map]
    rfl

/-! Whole plans. -/

section

variable {ν : Type} {environment : Environment ν} {arena : Arena ν} {graph : MatchGraph}

theorem PatternPlanned.realises {source : Plan} {request : QuantifiedRequest} {operator plan : Plan} {discharged : Bool}
    (planned : PatternPlanned environment arena source request operator plan discharged) :
    plan.expansions = operator :: source.expansions ∧ Realises plan (.quantified request.pattern) operator := by
  cases planned with
  | @collapsed direction relationship others group id collapses possible relationships grouped recorded =>
    have single : request.pattern.relationships = [relationship] := by
      simp only [QuantifiedRequest.collapses, QuantifiedPattern.isSingle, relationships, Bool.and_eq_true, beq_iff_eq,
        List.length_cons] at collapses
      rw [relationships, List.length_eq_zero_iff.mp (Nat.succ.inj collapses.1.1.1.2)]
    unfold QuantifiedRequest.collapseAbove
    simp only
    rcases request.expansion_cases environment.config (request.hop relationship direction) group
      ((request.sorted source).extracted.map ExtractedPredicate.element)
      (request.prunes environment.config (request.needs source) group
        (decide ((request.hop relationship direction).target ∈ source.available)))
      (decide ((request.hop relationship direction).target ∈ source.available))
      with full | ⟨-, ⟨most, limited, pruned⟩ | ⟨least, pruned⟩⟩
    · rw [full, request.hop_between]
      exact ⟨Plan.expansions_step _ _ rfl, .collapsed single grouped⟩
    · rw [pruned, request.hop_between]
      exact ⟨Plan.expansions_step _ _ rfl, .pruned single (by rw [← limited])⟩
    · rw [pruned, request.hop_between]
      exact ⟨Plan.expansions_step _ _ rfl, .breadthFirst single least beq_iff_eq⟩
  | @looped direction finish id inner _ kept possible built recorded ended =>
    refine ⟨ended.expansions, .looped ⟨rfl, rfl, rfl, rfl, rfl, ?_⟩ ?_⟩
    · have traverses := built.expansions
      rw [QuantifiedPattern.steps_path, List.forall₂_map_left_iff] at traverses
      exact traverses
    · cases ended with
      | reached free => exact .inl rfl
      | @closed filterId _ taken reserved => exact .inr ⟨reserved, filterId, List.mem_cons_self⟩

/-- The operators of the planned connections are the expansions of the plan, each realising its connection. -/
structure Assignment.Faithful (graph : MatchGraph) (plan : Plan) (assigned : Assignment) : Prop where
  operators : (assigned.map Prod.snd).Perm plan.expansions
  realises : ∀ entry ∈ assigned, ∃ connection, graph.connections[entry.1]? = some connection ∧ Realises plan connection entry.2

namespace Assignment.Faithful

variable {plan larger operator : Plan} {assigned : Assignment} {index : Nat} {connection : Connection}

theorem add (faithful : Faithful graph plan assigned) (grows : plan.outer ⊆ larger.outer)
    (expansions : larger.expansions.Perm (operator :: plan.expansions)) (declared : graph.connections[index]? = some connection)
    (realises : Realises larger connection operator) : Faithful graph larger (assigned ++ [(index, operator)]) := by
  refine ⟨?_, fun entry member => ?_⟩
  · rw [List.map_append]
    exact (List.perm_append_singleton _ _).trans ((faithful.operators.cons operator).trans expansions.symm)
  · rcases List.mem_append.mp member with before | here
    · obtain ⟨other, known, former⟩ := faithful.realises entry before
      exact ⟨other, known, former.grow grows⟩
    · rw [List.mem_singleton.mp here]
      exact ⟨connection, declared, realises⟩

end Assignment.Faithful

theorem Scan.expansions {node : String} {plan : Plan} {account : Account} (scan : Scan arena graph node plan account) :
    plan.expansions = [] := by
  cases scan with
  | scan known sound recorded ready filtered => rw [filtered.expansions, Plan.expansions_leaf]

theorem PatternRelationship.expansions_expandAbove (relationship : PatternRelationship) (id : PlanId) (input : Plan) :
    (relationship.expandAbove id input).expansions = relationship.expandAbove id input :: input.expansions := by
  apply Plan.expansions_step _ _
  unfold PatternRelationship.step
  split <;> rfl

theorem Assembled.faithful {plan : Plan} {assigned : Assignment} {account : Account}
    (assembled : Assembled environment arena graph plan assigned account) : assigned.Faithful graph plan := by
  induction assembled with
  | argument =>
    refine ⟨?_, fun _ impossible => absurd impossible List.not_mem_nil⟩
    rw [Plan.expansions_leaf]
    exact .refl _
  | scan declared scan =>
    refine ⟨?_, fun _ impossible => absurd impossible List.not_mem_nil⟩
    rw [scan.expansions]
    exact .refl _
  | placed below ready filtered faithful =>
    refine ⟨filtered.expansions ▸ faithful.operators, fun entry member => ?_⟩
    obtain ⟨connection, declared, realises⟩ := faithful.realises entry member
    exact ⟨connection, declared, realises.grow filtered.outer_subset⟩
  | @relationship index relationship id input assigned account below declared touches recorded faithful =>
    refine faithful.add (List.subset_cons_self ..) ?_ declared (relationship.realises_expandAbove id input)
    rw [relationship.expansions_expandAbove]
  | quantified below declared fresh opened chosen faithful =>
    obtain ⟨expansions, realises⟩ := chosen.realises
    exact faithful.add chosen.outer_subset (expansions ▸ .refl _) declared realises
  | @joined index relationship near far id joinId input leaf assigned account scanned below declared simple oriented nearBound
      farFree scan faithful =>
    have length : relationship.length = .simple := by
      unfold PatternRelationship.isPath at simple
      split at simple
      next plain => exact plain
      next => cases simple
    obtain ⟨side, same⟩ : ∃ side, relationship.hop far near =
        hopBetween relationship.left relationship.right relationship.direction relationship.types side := by
      apply PatternRelationship.hop_between
      rcases PatternRelationship.ends_of_orientation oriented with ⟨rfl, rfl⟩ | ⟨rfl, rfl⟩
      exacts [.inr rfl, .inl rfl]
    refine faithful.add (fun node member => List.mem_cons_of_mem _ (List.mem_append_left _ member)) ?_ declared (same ▸ .expand length)
    rw [Plan.expansions_join, Plan.expansions_step _ _ rfl, scan.expansions]
    exact List.perm_append_singleton _ _
  | product below beside former latter =>
    refine ⟨?_, fun entry member => ?_⟩
    · rw [List.map_append, Plan.expansions_join]
      exact former.operators.append latter.operators
    · rcases List.mem_append.mp member with first | second
      · obtain ⟨connection, declared, realises⟩ := former.realises entry first
        exact ⟨connection, declared, realises.grow fun node inside => List.mem_cons_of_mem _ (List.mem_append_left _ inside)⟩
      · obtain ⟨connection, declared, realises⟩ := latter.realises entry second
        exact ⟨connection, declared, realises.grow fun node inside => List.mem_cons_of_mem _ (List.mem_append_right _ inside)⟩

/-- The operators in the order of the connections they plan. -/
def Assignment.Arranges (assigned : Assignment) (operators : List Plan) : Prop :=
  ∀ index operator, operators[index]? = some operator ↔ (index, operator) ∈ assigned

/-- When every connection is covered once, the operators can be put in the order of the connections. -/
theorem Assignment.arranged {assigned : Assignment} {count : Nat} (covers : (assigned.map Prod.fst).Perm (List.range count)) :
    ∃ operators : List Plan, operators.Perm (assigned.map Prod.snd) ∧ operators.length = count ∧ assigned.Arranges operators := by
  obtain ⟨sorted, indices, permuted⟩ := (congrFun (congrFun (List.eq_map_comp_perm Prod.fst) _) _).mpr covers.symm
  have position : ∀ (place index : Nat) (operator : Plan), sorted[place]? = some (index, operator) → index = place := by
    intro place index operator here
    have first : (sorted.map Prod.fst)[place]? = some index := by rw [List.getElem?_map, here, Option.map_some]
    rw [← indices] at first
    obtain ⟨inside, same⟩ := List.getElem?_eq_some_iff.mp first
    rw [List.getElem_range] at same
    exact same.symm
  refine ⟨sorted.map Prod.snd, permuted.map Prod.snd, ?_, fun index operator => ?_⟩
  · have lengths := congrArg List.length indices
    simpa using lengths.symm
  rw [List.getElem?_map, Option.map_eq_some_iff]
  constructor
  · rintro ⟨⟨found, operator⟩, here, rfl⟩
    rw [← position _ _ _ here]
    exact permuted.subset (List.mem_of_getElem? here)
  · intro member
    obtain ⟨place, here⟩ := List.mem_iff_getElem?.mp (permuted.symm.subset member)
    exact ⟨(index, operator), position _ _ _ here ▸ here, rfl⟩

variable [Quantity ν]

/-- A returned plan was put together from below, every connection once, and its expansions can be listed as the connections they
realise. -/
theorem Environment.arranged_of_plan (standard : environment.StandardLeaves) {before after : Session ν} {query : PlannedQuery ν}
    (ran : environment.plan graph before = .ok query after) : graph.Valid ∧ ∃ assigned account operators,
      Assembled environment query.arena graph query.root assigned account ∧ (assigned.map Prod.fst).Nodup ∧
      (Ledger.ofGraph graph : Multiset LedgerEntry) = account.entries ∧ assigned.Arranges operators ∧
      operators.Perm query.root.expansions ∧ List.Forall₂ (Realises query.root) graph.connections operators := by
  obtain ⟨valid, assigned, account, assembled, covers, balanced⟩ := environment.assembled_of_plan standard ran
  obtain ⟨operators, permuted, length, arranges⟩ := Assignment.arranged covers
  have faithful := assembled.faithful
  have once := covers.nodup_iff.mpr List.nodup_range
  refine ⟨valid, assigned, account, operators, assembled, once, balanced, arranges, permuted.trans faithful.operators, ?_⟩
  refine List.forall₂_iff_get.mpr ⟨length.symm, fun index first second => ?_⟩
  obtain ⟨connection, declared, realises⟩ := faithful.realises _ ((arranges index _).mp (List.getElem?_eq_getElem second))
  have same := (List.getElem?_eq_getElem first).symm.trans declared
  cases same
  exact realises

theorem Environment.operators_of_plan (standard : environment.StandardLeaves) {before after : Session ν} {query : PlannedQuery ν}
    (ran : environment.plan graph before = .ok query after) : graph.Valid ∧ ∃ assigned account operators,
      Assembled environment query.arena graph query.root assigned account ∧
      (Ledger.ofGraph graph : Multiset LedgerEntry) = account.entries ∧ assigned.Arranges operators ∧
      operators.Perm query.root.expansions ∧ List.Forall₂ (Realises query.root) graph.connections operators := by
  obtain ⟨valid, assigned, account, operators, assembled, -, arranged⟩ := environment.arranged_of_plan standard ran
  exact ⟨valid, assigned, account, operators, assembled, arranged⟩

/-- Every connection of a planned graph is realised by one expansion of the plan, and every expansion realises one connection. -/
theorem Environment.plan_realises (standard : environment.StandardLeaves) {before after : Session ν} {query : PlannedQuery ν}
    (ran : environment.plan graph before = .ok query after) :
    ∃ operators : List Plan, operators.Perm query.root.expansions ∧
      List.Forall₂ (Realises query.root) graph.connections operators := by
  obtain ⟨-, assigned, account, operators, -, -, -, permuted, realised⟩ := environment.operators_of_plan standard ran
  exact ⟨operators, permuted, realised⟩

/-- The relationship and both loops of the clause of parallel loops have their operators. -/
theorem MatchGraph.parallel_realised : ∃ query after,
    Environment.counting.plan (parallel "g") (.initial false) = .ok query after ∧ ∃ operators : List Plan,
      operators.Perm query.root.expansions ∧ List.Forall₂ (Realises query.root) (parallel "g").connections operators := by
  have returns : parallelReturns "g" (fun _ => true) = true := by decide +kernel
  obtain ⟨query, after, ran, -⟩ := parallel_returns returns
  exact ⟨query, after, ran, Environment.plan_realises Environment.counting_standard ran⟩

end

end MatchPlanner
