import MatchPlanner.Proofs.Operators
import MatchPlanner.Proofs.Producers

/-! What planning a single connection binds, and what it takes from the predicates of the clause. -/

namespace MatchPlanner

theorem PatternRelationship.mem_orientation (relationship : PatternRelationship) (bound : NameSet) :
    relationship.orientation bound = (relationship.left, relationship.right) ∧ relationship.left ∈ bound ∨
      relationship.orientation bound = (relationship.right, relationship.left) ∧ relationship.left ∉ bound := by
  unfold orientation
  split
  next bound => exact .inl ⟨rfl, bound⟩
  next free => exact .inr ⟨rfl, free⟩

/-- One end of a relationship is near and the other far. -/
theorem PatternRelationship.ends_of_orientation {relationship : PatternRelationship} {bound : NameSet} {near far : String}
    (oriented : relationship.orientation bound = (near, far)) :
    near = relationship.left ∧ far = relationship.right ∨ near = relationship.right ∧ far = relationship.left := by
  rcases relationship.mem_orientation bound with ⟨same, -⟩ | ⟨same, -⟩ <;> rw [oriented] at same <;> cases same
  exacts [.inl ⟨rfl, rfl⟩, .inr ⟨rfl, rfl⟩]

theorem PatternRelationship.far_end {relationship : PatternRelationship} {bound : NameSet} {near far : String}
    (oriented : relationship.orientation bound = (near, far)) : far = relationship.left ∨ far = relationship.right :=
  (ends_of_orientation oriented).symm.imp And.right And.right

theorem PatternRelationship.mem_binds_step {relationship : PatternRelationship} {hop : Hop} {mode : ExpansionMode} {name : String} :
    name ∈ (relationship.step hop mode).binds ↔ name = hop.source ∨ name = relationship.name ∨ name = hop.target := by
  unfold step
  split <;> simp [Step.binds]

theorem PatternRelationship.mem_available_expandAbove {relationship : PatternRelationship} {id : PlanId} {input : Plan}
    {name : String} : name ∈ (relationship.expandAbove id input).available ↔
      name ∈ input.available ∨ name = relationship.left ∨ name = relationship.right ∨ name = relationship.name := by
  simp only [expandAbove, Plan.mem_available_step, mem_binds_step, hop]
  rcases relationship.mem_orientation input.available with ⟨same, -⟩ | ⟨same, -⟩ <;> rw [same] <;> grind

namespace QuantifiedRequest

/-- A collapsed pattern becomes an expansion that binds its group, or one of two that bind the end nodes alone. -/
theorem expansion_cases (request : QuantifiedRequest) (config : PlannerConfig) (hop : Hop) (group : String)
    (predicates : List VariablePredicate) (prunes farBound : Bool) :
    request.expansion config hop group predicates prunes farBound =
        .varLengthExpand hop group request.pattern.repetition [] predicates (if farBound then .into else .all) ∨
      prunes = true ∧ ((∃ most, request.pattern.repetition.most = .limited most ∧
        request.expansion config hop group predicates prunes farBound =
          .pruningVarExpand hop request.pattern.repetition.least most [] predicates) ∨
      (request.pattern.repetition.least ≤ 1 ∧ request.expansion config hop group predicates prunes farBound =
        .bfsPruningVarExpand hop (request.pattern.repetition.least == 0) request.pattern.repetition.most [] predicates)) := by
  unfold expansion
  simp only
  split
  next pruned =>
    split
    next breadthFirst =>
      simp only [Bool.and_eq_true, decide_eq_true_eq] at breadthFirst
      exact .inr ⟨pruned, .inr ⟨breadthFirst.2, rfl⟩⟩
    next =>
      split
      next most limited => exact .inr ⟨pruned, .inl ⟨most, limited, rfl⟩⟩
      next => exact .inl rfl
  next => exact .inl rfl

theorem expansion_isVarExpand (request : QuantifiedRequest) (config : PlannerConfig) (hop : Hop) (group : String)
    (predicates : List VariablePredicate) (prunes farBound : Bool) :
    (request.expansion config hop group predicates prunes farBound).kind.isVarExpand = true := by
  rcases request.expansion_cases config hop group predicates prunes farBound with full | ⟨-, ⟨most, -, pruned⟩ | ⟨-, pruned⟩⟩
  · rw [full]
    rfl
  · rw [pruned]
    rfl
  · rw [pruned]
    rfl

end QuantifiedRequest

theorem NameSet.mem_unionOf {name : String} {sets : List NameSet} : name ∈ NameSet.unionOf sets ↔ ∃ set ∈ sets, name ∈ set := by
  have gathered : ∀ start : NameSet, name ∈ sets.foldl (· ∪ ·) start ↔ name ∈ start ∨ ∃ set ∈ sets, name ∈ set := by
    induction sets with
    | nil => simp
    | cons first rest further =>
      intro start
      simp only [List.foldl_cons, further, mem_union, List.exists_mem_cons_iff, or_assoc]
  simpa [unionOf] using gathered ∅

namespace Expression

theorem mem_dependenciesOf {name : String} {expressions : List Expression} :
    name ∈ dependenciesOf expressions ↔ ∃ expression ∈ expressions, name ∈ expression.dependencies := by
  simp only [dependenciesOf, NameSet.mem_unionOf, List.mem_map, exists_exists_and_eq_and]

/-- The atoms of a conjunction read together what the conjunction reads. -/
theorem mem_dependencies_conjuncts {name : String} (expression : Expression) :
    (∃ atom ∈ expression.conjuncts, name ∈ atom.dependencies) ↔ name ∈ expression.dependencies := by
  fun_induction conjuncts with
  | case1 left right first second =>
    simp only [List.mem_append, or_and_right, exists_or, first, second, dependencies, NameSet.mem_union]
  | case2 atom other => simp

theorem conjuncts_ne_nil (expression : Expression) : expression.conjuncts ≠ [] := by
  fun_induction conjuncts with
  | case1 left right former latter => exact fun empty => former (List.append_eq_nil_iff.mp empty).1
  | case2 atom other => exact List.cons_ne_nil _ _

end Expression

namespace QuantifiedPattern

theorem mem_dependenciesOf_atoms {pattern : QuantifiedPattern} {name : String} :
    name ∈ Expression.dependenciesOf pattern.selectionAtoms ↔ name ∈ Expression.dependenciesOf pattern.selections := by
  simp only [Expression.mem_dependenciesOf, selectionAtoms, List.mem_flatMap]
  constructor
  · rintro ⟨atom, ⟨selection, member, among⟩, reads⟩
    exact ⟨selection, member, (Expression.mem_dependencies_conjuncts selection).mp ⟨atom, among, reads⟩⟩
  · rintro ⟨selection, member, reads⟩
    obtain ⟨atom, among, reads⟩ := (Expression.mem_dependencies_conjuncts selection).mpr reads
    exact ⟨atom, ⟨selection, member, among⟩, reads⟩

theorem selectionAtoms_eq_nil {pattern : QuantifiedPattern} : pattern.selectionAtoms = [] ↔ pattern.selections = [] := by
  rw [selectionAtoms, List.flatMap_eq_nil_iff]
  constructor
  · intro empty
    refine List.eq_nil_iff_forall_not_mem.mpr fun selection member => ?_
    exact selection.conjuncts_ne_nil (empty selection member)
  · intro none selection member
    rw [none] at member
    exact absurd member List.not_mem_nil

theorem mem_groups_of_relationshipGroup? {pattern : QuantifiedPattern} {name group : String}
    (grouped : pattern.relationshipGroup? name = some group) : group ∈ pattern.groups := by
  obtain ⟨grouping, searched, rfl⟩ := Option.map_eq_some_iff.mp grouped
  exact List.mem_append_right _ (List.mem_map_of_mem (List.mem_of_find?_eq_some searched))

theorem near_outer (pattern : QuantifiedPattern) (direction : TraversalDirection) :
    (pattern.near direction).outer = pattern.left.outer ∨ (pattern.near direction).outer = pattern.right.outer := by
  cases direction with
  | forward => exact .inl rfl
  | reversed => exact .inr rfl

theorem far_outer (pattern : QuantifiedPattern) (direction : TraversalDirection) :
    (pattern.far direction).outer = pattern.left.outer ∨ (pattern.far direction).outer = pattern.right.outer := by
  cases direction with
  | forward => exact .inr rfl
  | reversed => exact .inl rfl

end QuantifiedPattern

theorem TrailRequest.groups_sublist (request : TrailRequest) (finish : String) :
    (request.parameters finish).groups.Sublist request.pattern.groups := by
  have kept : ∀ groupings : List Grouping, (groupsOf (request.keep groupings)).Sublist (groupsOf groupings) :=
    fun _ => List.filter_sublist.map _
  exact (kept _).append (kept _)

theorem TrailRequest.groups_subset (request : TrailRequest) (finish : String) :
    (request.parameters finish).groups ⊆ request.pattern.groups := (request.groups_sublist finish).subset

theorem PatternPlanned.bound {ν : Type} {environment : Environment ν} {arena : Arena ν} {source : Plan}
    {request : QuantifiedRequest} {operator plan : Plan} {discharged : Bool} {name : String}
    (planned : PatternPlanned environment arena source request operator plan discharged) (member : name ∈ plan.available) :
    name ∈ source.available ∨ name = request.pattern.left.outer ∨ name = request.pattern.right.outer ∨
      isReserved name = true ∨ name ∈ request.pattern.groups := by
  have boundary : ∀ {node}, node = request.pattern.left.outer ∨ node = request.pattern.right.outer → name = node →
      name = request.pattern.left.outer ∨ name = request.pattern.right.outer := by
    rintro node ends rfl
    exact ends
  cases planned with
  | @collapsed direction relationship others group id collapses possible relationships grouped recorded =>
    have ends : name = (request.hop relationship direction).source ∨ name = (request.hop relationship direction).target →
        name = request.pattern.left.outer ∨ name = request.pattern.right.outer := by
      rintro (near | far)
      · exact boundary (request.pattern.near_outer direction) near
      · exact boundary (request.pattern.far_outer direction) far
    have binds : ∀ {operator : Step}, name ∈ operator.binds →
        (operator.binds = [(request.hop relationship direction).source, group, (request.hop relationship direction).target] ∨
          operator.binds = [(request.hop relationship direction).source, (request.hop relationship direction).target]) →
        name = request.pattern.left.outer ∨ name = request.pattern.right.outer ∨ name ∈ request.pattern.groups := by
      rintro operator bound (same | same)
      · rw [same] at bound
        simp only [List.mem_cons, List.not_mem_nil, or_false] at bound
        rcases bound with near | rfl | far
        · exact (ends (.inl near)).imp_right .inl
        · exact .inr (.inr (QuantifiedPattern.mem_groups_of_relationshipGroup? grouped))
        · exact (ends (.inr far)).imp_right .inl
      · rw [same] at bound
        simp only [List.mem_cons, List.not_mem_nil, or_false] at bound
        exact (ends bound).imp_right .inl
    rcases Plan.mem_available_step.mp member with below | bound
    · exact .inl below
    · refine .inr ((binds bound ?_).imp_right (Or.imp_right .inr))
      rcases request.expansion_cases environment.config (request.hop relationship direction) group
        ((request.sorted source).extracted.map ExtractedPredicate.element)
        (request.prunes environment.config (request.needs source) group
          (decide ((request.hop relationship direction).target ∈ source.available)))
        (decide ((request.hop relationship direction).target ∈ source.available)) with full | ⟨-, ⟨most, -, pruned⟩ | ⟨-, pruned⟩⟩
      · exact .inl (by rw [full]; rfl)
      · exact .inr (by rw [pruned]; rfl)
      · exact .inr (by rw [pruned]; rfl)
  | @looped direction finish id inner _ kept possible built recorded ended =>
    rw [ended.available] at member
    rcases Plan.mem_available_trail.mp member with below | same | group
    · exact .inl below
    · right
      cases ended with
      | reached free => exact (boundary (request.pattern.far_outer direction) same).imp_right .inl
      | closed taken reserved =>
        subst same
        exact .inr (.inr (.inl reserved))
    · exact .inr (.inr (.inr (.inr (TrailRequest.groups_subset _ _ group))))

/-! Predicates of the clause that a pattern takes over. -/

namespace QuantifiedPattern

variable {pattern : QuantifiedPattern} {bound : NameSet} {outer : List Expression} {atom : Expression}

/-- Only a predicate on every member of a group is taken over, as it stands. -/
theorem extract?_some {atom : Expression} {extracted : ExtractedPredicate} (found : pattern.extract? bound atom = some extracted) :
    extracted.atom = atom ∧ atom.isCheck = false ∧ (∃ group grouping, pattern.groupingOf? group = some (extracted.kind, grouping) ∧
      extracted.singleton = grouping.singleton) ∧
      ∀ name ∈ extracted.element.predicate.dependencies, name = extracted.element.element ∨ name ∈ bound := by
  unfold extract? at found
  split at found
  next element group predicate =>
    split at found
    next kind grouping grouped =>
      split at found
      next reads =>
        cases found
        simp only [Bool.and_eq_true, NameSet.within_iff, NameSet.mem_erase] at reads
        refine ⟨rfl, rfl, ⟨group, grouping, grouped, rfl⟩, fun name read => ?_⟩
        exact Classical.or_iff_not_imp_left.mpr fun different => reads.2 name ⟨read, different⟩
      next => cases found
    next => cases found
  next => cases found

/-- A predicate that a pattern can take over ranges over a group of the pattern and reads bound variables besides. -/
theorem extract?_isSome : (pattern.extract? bound atom).isSome = true ↔ ∃ element group predicate,
    atom = .every element (.reference group) predicate ∧ (pattern.groupingOf? group).isSome = true ∧
      predicate.runsSubquery = false ∧ ∀ name ∈ predicate.dependencies, name = element ∨ name ∈ bound := by
  have reads : ∀ {element : String} {predicate : Expression}, (predicate.dependencies.erase element).within bound = true ↔
      ∀ name ∈ predicate.dependencies, name = element ∨ name ∈ bound := by
    intro element predicate
    simp only [NameSet.within_iff, NameSet.mem_erase, and_imp]
    exact forall₂_congr fun name _ => Classical.or_iff_not_imp_left.symm
  constructor
  · intro found
    unfold extract? at found
    split at found
    next element group predicate =>
      split at found
      next kind grouping grouped =>
        split at found
        next fits =>
          simp only [Bool.and_eq_true, Bool.not_eq_true'] at fits
          exact ⟨element, group, predicate, rfl, by rw [grouped]; rfl, fits.1, reads.mp fits.2⟩
        next => cases found
      next => cases found
    next => cases found
  · rintro ⟨element, group, predicate, rfl, grouped, plain, outside⟩
    obtain ⟨⟨kind, grouping⟩, same⟩ := Option.isSome_iff_exists.mp grouped
    have fits : (!predicate.runsSubquery && (predicate.dependencies.erase element).within bound) = true := by
      rw [plain, reads.mpr outside]
      rfl
    simp only [extract?, same, fits, ↓reduceIte, Option.isSome_some]

theorem mem_groups_of_groupingOf? {group : String} (grouped : (pattern.groupingOf? group).isSome = true) : group ∈ pattern.groups := by
  have member : ∀ groupings : List Grouping, (groupings.find? fun grouping => grouping.group == group).isSome = true →
      group ∈ groupsOf groupings := by
    intro groupings found
    obtain ⟨grouping, among, same⟩ := List.find?_isSome.mp found
    exact beq_iff_eq.mp same ▸ List.mem_map_of_mem among
  unfold groupingOf? at grouped
  split at grouped
  next grouping found => exact List.mem_append_left _ (member _ (by rw [found]; rfl))
  next => exact List.mem_append_right _ (member _ (by simpa using grouped))

/-- A predicate that a pattern takes over reads a group of the pattern and bound variables. -/
theorem dependencies_of_extract? (found : (pattern.extract? bound atom).isSome = true) :
    ∀ name ∈ atom.dependencies, name ∈ pattern.groups ∨ name ∈ bound := by
  obtain ⟨element, group, predicate, rfl, grouped, -, reads⟩ := extract?_isSome.mp found
  intro name read
  simp only [Expression.dependencies, NameSet.mem_union, NameSet.mem_ofList, List.mem_singleton, NameSet.mem_erase] at read
  rcases read with rfl | ⟨inside, other⟩
  · exact .inl (mem_groups_of_groupingOf? grouped)
  · exact .inr ((reads name inside).resolve_left other)

theorem mem_extracted {extracted : ExtractedPredicate} (member : extracted ∈ (pattern.classify outer bound).extracted) :
    extracted.atom ∈ outer ∧ pattern.extract? bound extracted.atom = some extracted := by
  obtain ⟨atom, among, found⟩ := List.mem_filterMap.mp member
  rw [(extract?_some found).1]
  exact ⟨among, found⟩

theorem solved_eq (pattern : QuantifiedPattern) (outer : List Expression) (bound : NameSet) :
    (pattern.classify outer bound).solved = outer.filter fun atom => (pattern.extract? bound atom).isSome := by
  unfold Classification.solved classify
  simp only
  induction outer with
  | nil => rfl
  | cons atom rest further =>
    cases found : pattern.extract? bound atom with
    | none => simp only [List.filterMap_cons, found, List.filter_cons, Option.isSome_none, further, Bool.false_eq_true, ↓reduceIte]
    | some extracted =>
      simp only [List.filterMap_cons, found, List.filter_cons, Option.isSome_some, List.map_cons, further, (extract?_some found).1,
        ↓reduceIte]

theorem solved_sublist : (pattern.classify outer bound).solved.Sublist outer := by
  rw [solved_eq]
  exact List.filter_sublist

theorem solved_plain : ∀ predicate ∈ (pattern.classify outer bound).solved, predicate.isCheck = false := by
  intro predicate member
  obtain ⟨extracted, among, rfl⟩ := List.mem_map.mp member
  exact (extract?_some (mem_extracted among).2).2.1

end QuantifiedPattern

/-! Checks that a pattern could make. -/

theorem UniquenessObligation.own_cases {obligation : UniquenessObligation} {index : Nat} {own counterpart : RelationshipProducer}
    (mine : obligation.own? index = some own) (theirs : obligation.counterpart? index = some counterpart) :
    own.connection = index ∧ (own = obligation.first ∧ counterpart = obligation.second ∨
      own = obligation.second ∧ counterpart = obligation.first) := by
  unfold own? at mine
  unfold counterpart? at theirs
  split at mine
  next first =>
    rw [if_pos first] at theirs
    cases mine
    cases theirs
    exact ⟨first, .inl ⟨rfl, rfl⟩⟩
  next notFirst =>
    rw [if_neg notFirst] at theirs
    split at mine
    next second =>
      rw [if_pos second] at theirs
      cases mine
      cases theirs
      exact ⟨second, .inr ⟨rfl, rfl⟩⟩
    next => cases mine

theorem own_mem_producers {graph : MatchGraph} {obligation : UniquenessObligation} {index : Nat}
    {own other : RelationshipProducer} (member : obligation ∈ graph.obligations)
    (mine : obligation.own? index = some own) (theirs : obligation.counterpart? index = some other) :
    own.connection = index ∧ own ∈ graph.producers := by
  obtain ⟨-, first, second, -⟩ := UniquenessObligation.mem_ofProducers member
  obtain ⟨same, ⟨rfl, -⟩ | ⟨rfl, -⟩⟩ := UniquenessObligation.own_cases mine theirs
  exacts [⟨same, first⟩, ⟨same, second⟩]

theorem Ledger.mem_obligationsOf {ledger : Ledger} {index : Nat} {entry : LedgerEntry} {own counterpart : RelationshipProducer} :
    (entry, own, counterpart) ∈ ledger.obligationsOf index ↔ entry ∈ ledger ∧ ∃ obligation,
      entry.obligation = some obligation ∧ obligation.own? index = some own ∧ obligation.counterpart? index = some counterpart := by
  simp only [Ledger.obligationsOf, List.mem_filterMap, Option.bind_eq_bind, Option.bind_eq_some_iff, Option.pure_def, Option.some.injEq,
    Prod.mk.injEq]
  constructor
  · rintro ⟨other, member, obligation, checks, mine, owned, theirs, countered, rfl, rfl, rfl⟩
    exact ⟨member, obligation, checks, owned, countered⟩
  · rintro ⟨member, obligation, checks, owned, countered⟩
    exact ⟨entry, member, obligation, checks, own, owned, counterpart, countered, rfl, rfl, rfl⟩

namespace QuantifiedPattern

variable {pattern : QuantifiedPattern} {graph : MatchGraph} {index : Nat} {bound : NameSet} {ledger : Ledger}

theorem mem_dischargeable {entry : LedgerEntry} : entry ∈ (pattern.site graph index bound ledger).dischargeable ↔
    ∃ own counterpart, (entry, own, counterpart) ∈ ledger.obligationsOf index ∧ counterpart.name ∈ bound := by
  simp only [site, List.partition_eq_filter_filter, List.mem_map, List.mem_filter, decide_eq_true_eq]
  constructor
  · rintro ⟨⟨other, own, counterpart⟩, settled, rfl⟩
    exact ⟨own, counterpart, settled⟩
  · rintro ⟨own, counterpart, settled⟩
    exact ⟨_, settled, rfl⟩

theorem mem_siblings {sibling : RelationshipProducer} : sibling ∈ (pattern.site graph index bound ledger).request.siblings ↔
    ∃ entry own, (entry, own, sibling) ∈ ledger.obligationsOf index ∧ sibling.name ∈ bound := by
  simp only [site, List.partition_eq_filter_filter, List.mem_map, List.mem_filter, decide_eq_true_eq]
  constructor
  · rintro ⟨⟨entry, own, counterpart⟩, settled, rfl⟩
    exact ⟨entry, own, settled⟩
  · rintro ⟨entry, own, settled⟩
    exact ⟨_, settled, rfl⟩

theorem site_outer (pattern : QuantifiedPattern) (graph : MatchGraph) (index : Nat) (bound : NameSet) (ledger : Ledger) :
    (pattern.site graph index bound ledger).request.outer.Sublist ledger.predicates := by
  simp only [site, List.partition_eq_filter_filter]
  exact (List.filter_sublist.trans List.filter_sublist).map _

@[simp] theorem site_pattern (pattern : QuantifiedPattern) (graph : MatchGraph) (index : Nat) (bound : NameSet) (ledger : Ledger) :
    (pattern.site graph index bound ledger).request.pattern = pattern := rfl

end QuantifiedPattern

/-! The siblings of a loop. -/

namespace TrailRequest

/-- A loop lists the siblings that are bound and could share a relationship with its pattern. -/
theorem mem_boundNames {request : TrailRequest} {form : RelationshipForm} {name : String} : name ∈ request.boundNames form ↔
    ∃ sibling ∈ request.siblings, sibling.name = name ∧ sibling.form = form ∧ name ∈ request.bound ∧
      request.pattern.typeSet.overlap sibling.types = true := by
  simp only [boundNames, clashing, List.mem_eraseDups, List.mem_map, List.mem_filter, Bool.and_eq_true, decide_eq_true_eq, beq_iff_eq]
  constructor
  · rintro ⟨sibling, ⟨⟨among, bound, overlap⟩, same⟩, rfl⟩
    exact ⟨sibling, among, rfl, same, bound, overlap⟩
  · rintro ⟨sibling, among, rfl, same, bound, overlap⟩
    exact ⟨sibling, ⟨⟨among, bound, overlap⟩, same⟩, rfl⟩

end TrailRequest

/-- The names a loop lists for producers of a form. -/
def TrailParameters.listed (parameters : TrailParameters) : RelationshipForm → List String
  | .single => parameters.boundRelationships
  | .list => parameters.boundRelationshipGroups

@[simp] theorem TrailRequest.listed_parameters (request : TrailRequest) (finish : String) (form : RelationshipForm) :
    (request.parameters finish).listed form = request.boundNames form := by
  cases form <;> rfl

theorem Environment.mem_checkedSiblings {parameters : TrailParameters} {siblings : List RelationshipProducer}
    {sibling : RelationshipProducer} : sibling ∈ checkedSiblings parameters siblings ↔
      sibling ∈ siblings ∧ sibling.name ∈ parameters.listed sibling.form := by
  rw [checkedSiblings, List.mem_filter]
  cases same : sibling.form <;> simp [TrailParameters.listed]

theorem QuantifiedRequest.mem_checked {request : QuantifiedRequest} {source : Plan} {direction : TraversalDirection}
    {finish : String} {sibling : RelationshipProducer} : sibling ∈ request.checked source direction finish ↔
      sibling ∈ request.siblings ∧ sibling.name ∈ (request.trail source direction).boundNames sibling.form := by
  rw [checked, Environment.mem_checkedSiblings, TrailRequest.listed_parameters]

theorem Environment.mem_innerArguments {pattern : QuantifiedPattern} {pending : List Expression} {bound : NameSet}
    {innerStart name : String} {siblings : List RelationshipProducer} :
    name ∈ innerArguments pattern pending bound innerStart siblings ↔ name = innerStart ∨
      (name ∈ Expression.dependenciesOf pending ∧ name ∉ pattern.innerVariables ∧ name ∈ bound) ∨
      ∃ sibling ∈ siblings, name = sibling.name := by
  simp only [innerArguments, NameSet.mem_insertAll, NameSet.mem_insert, NameSet.mem_filter, Bool.and_eq_true, decide_eq_true_eq,
    List.mem_map, or_assoc, @eq_comm _ name]

end MatchPlanner
