import MatchPlanner.Proofs.Retention

/-! When a quantified pattern becomes a single expansion. It does so exactly when nobody observes the interior of a repetition, and
the expansion visits end nodes only when nobody observes its relationships either. Both are decided by the clause, whatever the
order in which it is planned. -/

namespace MatchPlanner

namespace QuantifiedPattern

variable {pattern : QuantifiedPattern}

theorem kind_of_groupingOf? {group : String} {kind : GroupKind} {grouping : Grouping}
    (found : pattern.groupingOf? group = some (kind, grouping)) : kind = .node ↔ group ∈ pattern.nodeGroups := by
  unfold groupingOf? at found
  split at found
  next first searched =>
    cases found
    have same : grouping.group = group := by simpa using List.find?_some searched
    exact iff_of_true rfl (same ▸ List.mem_map_of_mem (List.mem_of_find?_eq_some searched))
  next none =>
    obtain ⟨first, -, same⟩ := Option.map_eq_some_iff.mp found
    cases same
    refine iff_of_false (fun impossible => by cases impossible) fun member => ?_
    obtain ⟨other, among, same⟩ := List.mem_map.mp member
    exact absurd (List.find?_eq_none.mp none other among) (by simp [same])

/-- The variable of a producer is a relationship group, never a node group. -/
theorem mem_relationshipGroups_of_producer {index : Nat} {own : RelationshipProducer}
    (member : own ∈ (Connection.quantified pattern).producers index) : own.name ∈ pattern.relationshipGroups := by
  obtain ⟨relationship, -, grouped, -⟩ := relationship_of_producer member
  obtain ⟨grouping, searched, same⟩ := Option.map_eq_some_iff.mp grouped
  exact same ▸ List.mem_map_of_mem (List.mem_of_find?_eq_some searched)

/-- A predicate taken over ranges over a group, whose kind is noted, and reads bound variables besides. -/
theorem kind_of_extract? {bound : NameSet} {atom : Expression} {extracted : ExtractedPredicate}
    (found : pattern.extract? bound atom = some extracted) : ∃ group ∈ atom.dependencies,
      (extracted.kind = .node ↔ group ∈ pattern.nodeGroups) ∧ ∀ name ∈ atom.dependencies, name = group ∨ name ∈ bound := by
  unfold extract? at found
  split at found
  next element group predicate =>
    split at found
    next kind grouping grouped =>
      split at found
      next fits =>
        cases found
        simp only [Bool.and_eq_true, NameSet.within_iff] at fits
        refine ⟨group, ?_, kind_of_groupingOf? grouped, fun name read => ?_⟩ <;>
          simp only [Expression.dependencies, NameSet.mem_union, NameSet.mem_ofList, List.mem_singleton] at *
        · exact .inl trivial
        · exact read.imp_right (fits.2 name)
      next => cases found
    next => cases found
  next => cases found

end QuantifiedPattern

/-- The interior of a repetition matters: it is too long or has conditions of its own, something reads its nodes, or the planner is
told to keep loops. -/
def MatchGraph.ObservesInterior (graph : MatchGraph) (config : PlannerConfig) (pattern : QuantifiedPattern) : Prop :=
  config.collapsesToVarExpand = false ∨ 1 < pattern.relationships.length ∨ pattern.selections ≠ [] ∨
    ∃ group ∈ pattern.nodeGroups, group ∈ graph.required ∨ ∃ atom ∈ graph.whereAtoms, group ∈ atom.dependencies

section

variable {graph : MatchGraph} {index : Nat} {pattern : QuantifiedPattern} {ledger : Ledger} {source : Plan}

namespace QuantifiedPattern.Faces

/-- A predicate on the nodes either asks for their group or is taken over, and no predicate on nodes fits a single expansion. -/
theorem observes_nodes (faces : pattern.Faces graph source.available ledger) (valid : graph.Valid) (formed : pattern.WellFormed)
    (ordered : graph.producers.Pairwise RelationshipProducer.Precedes)
    (found : graph.connections[index]? = some (.quantified pattern)) :
    ((∃ group ∈ pattern.nodeGroups, group ∈ (pattern.site graph index source.available ledger).request.needs source) ∨
      ∃ extracted ∈ ((pattern.site graph index source.available ledger).request.sorted source).extracted, extracted.kind = .node) ↔
      ∃ group ∈ pattern.nodeGroups, group ∈ graph.required ∨ ∃ atom ∈ graph.whereAtoms, group ∈ atom.dependencies := by
  have own : ∀ {group}, group ∈ pattern.nodeGroups → group ∈ pattern.groups := fun member => List.mem_append_left _ member
  have taken : ∀ {atom extracted}, atom ∈ (pattern.site graph index source.available ledger).request.outer →
      pattern.extract? source.available atom = some extracted →
      extracted ∈ ((pattern.site graph index source.available ledger).request.sorted source).extracted :=
    fun shown extracts => List.mem_filterMap.mpr ⟨_, shown, extracts⟩
  constructor
  · rintro (⟨group, node, needed⟩ | ⟨extracted, among, kind⟩)
    · rcases (faces.mem_needs valid ordered found (own node)).mp needed with required | ⟨atom, asked, reads, -⟩ | ⟨producer, mine, rfl, -⟩
      · exact ⟨group, node, .inl required⟩
      · exact ⟨group, node, .inr ⟨atom, asked, reads⟩⟩
      · -- Checks read relationship groups only.
        have apart := (List.nodup_append.mp formed.distinctGroups).2.2
        exact absurd rfl (apart _ node _ (mem_relationshipGroups_of_producer mine))
    · obtain ⟨shown, extracts⟩ := mem_extracted among
      obtain ⟨group, reads, noted, -⟩ := kind_of_extract? extracts
      exact ⟨group, noted.mp kind, .inr ⟨_, ((faces.mem_outer valid found).mp shown).1, reads⟩⟩
  · rintro ⟨group, node, required | ⟨atom, asked, reads⟩⟩
    · exact .inl ⟨group, node, (faces.mem_needs valid ordered found (own node)).mpr (.inl required)⟩
    · by_cases solved : atom ∈ ((pattern.site graph index source.available ledger).request.sorted source).solved
      · obtain ⟨shown, extracts⟩ := QuantifiedRequest.mem_solved.mp solved
        obtain ⟨extracted, extracts⟩ := Option.isSome_iff_exists.mp extracts
        obtain ⟨ranged, -, noted, others⟩ := kind_of_extract? extracts
        have same : group = ranged := (others group reads).resolve_right (faces.free group (own node))
        exact .inr ⟨extracted, taken shown extracts, noted.mpr (same ▸ node)⟩
      · exact .inl ⟨group, node, (faces.mem_needs valid ordered found (own node)).mpr (.inr (.inl ⟨atom, asked, reads, solved⟩))⟩

/-- A pattern collapses exactly when nothing observes the interior of a repetition. -/
theorem collapses_iff (faces : pattern.Faces graph source.available ledger) (valid : graph.Valid) (formed : pattern.WellFormed)
    (ordered : graph.producers.Pairwise RelationshipProducer.Precedes)
    (found : graph.connections[index]? = some (.quantified pattern)) (config : PlannerConfig) :
    (pattern.site graph index source.available ledger).request.collapses config
        ((pattern.site graph index source.available ledger).request.sorted source)
        ((pattern.site graph index source.available ledger).request.needs source) = true ↔
      ¬ graph.ObservesInterior config pattern := by
  have short : pattern.isSingle = true ↔ ¬ 1 < pattern.relationships.length := by
    have some := List.length_pos_of_ne_nil formed.nonempty
    rw [isSingle, beq_iff_eq]
    omega
  have bare : ((pattern.site graph index source.available ledger).request.sorted source).hasSelections = false ↔
      pattern.selections = [] := by
    rw [← selectionAtoms_eq_nil, ← List.map_eq_nil_iff (f := fun atom => ClassifiedPredicate.mk atom (pattern.classifyAtom atom)),
      ← List.isEmpty_iff, ← Bool.not_eq_false']
    rfl
  have fits : ((pattern.site graph index source.available ledger).request.sorted source).fitsRelationships = true ↔
      ¬ ∃ extracted ∈ ((pattern.site graph index source.available ledger).request.sorted source).extracted, extracted.kind = .node := by
    simp only [Classification.fitsRelationships, List.all_eq_true, beq_iff_eq, not_exists, not_and]
    refine forall₂_congr fun extracted _ => ?_
    cases extracted.kind <;> simp
  simp only [QuantifiedRequest.collapses, site_pattern, Bool.and_eq_true, Bool.not_eq_true', List.any_eq_false, decide_eq_true_eq,
    MatchGraph.ObservesInterior, not_or, short, bare, fits, Bool.not_eq_false, not_not, ← faces.observes_nodes valid formed ordered found,
    not_exists, not_and, and_assoc]

end QuantifiedPattern.Faces

/-! What the operator of a pattern gives away. -/

/-- The hop of an expansion that visits end nodes only. -/
def Step.prunedHop? : Step → Option Hop
  | .pruningVarExpand hop _ _ _ _ => some hop
  | .bfsPruningVarExpand hop _ _ _ _ => some hop
  | _ => none

/-- Distinct end nodes are asked for, the far one is free, and nobody observes the relationships on the way: what reads them is solved
by the operator itself, and no other connection could share one. -/
structure MatchGraph.Prunable (graph : MatchGraph) (config : PlannerConfig) (index : Nat) (pattern : QuantifiedPattern) (bound : NameSet)
    (solved : List Expression) (target : String) : Prop where
  distinct : graph.distinctEndpoints = true
  enabled : config.pruningVarExpand = true
  free : target ∉ bound
  unrequired : ∀ group ∈ pattern.relationshipGroups, group ∉ graph.required
  unread : ∀ group ∈ pattern.relationshipGroups, ∀ atom ∈ graph.whereAtoms, group ∈ atom.dependencies → atom ∈ solved
  apart : ∀ own ∈ (Connection.quantified pattern).producers index, ∀ other ∈ graph.producers, own.clashes other = false

/-- The operator of a pattern is as simple as what is observed of the pattern allows. -/
structure MatchGraph.Suits (graph : MatchGraph) (config : PlannerConfig) (solved : PlanId → List Expression) (index : Nat)
    (pattern : QuantifiedPattern) (operator : Plan) : Prop where
  looped : operator.kind = .trail ↔ graph.ObservesInterior config pattern
  collapsed : ¬ graph.ObservesInterior config pattern → operator.kind.isVarExpand = true
  pruned : ∀ (id : PlanId) (step : Step) (input : Plan) (hop : Hop), operator = .step id step input → step.prunedHop? = some hop →
    graph.Prunable config index pattern input.available (solved id) hop.target
  breadthFirst : operator.kind = .bfsPruningVarExpand → config.bfsPruningSupported = true ∧ pattern.repetition.least ≤ 1
  bounded : operator.kind = .pruningVarExpand → ∃ most, pattern.repetition.most = .limited most

namespace QuantifiedRequest

variable {request : QuantifiedRequest} {config : PlannerConfig} {hop : Hop} {group : String} {predicates : List VariablePredicate}
  {prunes farBound : Bool}

theorem expansion_pruned {found : Hop} (pruned : (request.expansion config hop group predicates prunes farBound).prunedHop? = some found) :
    prunes = true ∧ found = hop := by
  rcases request.expansion_cases config hop group predicates prunes farBound with full | ⟨asked, ⟨most, -, same⟩ | ⟨-, same⟩⟩
  · rw [full] at pruned
    cases pruned
  · rw [same] at pruned
    exact ⟨asked, (Option.some.inj pruned).symm⟩
  · rw [same] at pruned
    exact ⟨asked, (Option.some.inj pruned).symm⟩

theorem expansion_breadthFirst (kind : (request.expansion config hop group predicates prunes farBound).kind = .bfsPruningVarExpand) :
    config.bfsPruningSupported = true ∧ request.pattern.repetition.least ≤ 1 := by
  unfold expansion at kind
  simp only at kind
  split at kind
  next =>
    split at kind
    next supported => simpa only [Bool.and_eq_true, decide_eq_true_eq] using supported
    next => split at kind <;> cases kind
  next => cases kind

theorem expansion_bounded (kind : (request.expansion config hop group predicates prunes farBound).kind = .pruningVarExpand) :
    ∃ most, request.pattern.repetition.most = .limited most := by
  rcases request.expansion_cases config hop group predicates prunes farBound with full | ⟨-, ⟨most, limited, -⟩ | ⟨-, same⟩⟩
  · rw [full] at kind
    cases kind
  · exact ⟨most, limited⟩
  · rw [same] at kind
    cases kind

end QuantifiedRequest

namespace QuantifiedPattern.Faces

/-- An expansion that visits end nodes only is chosen when nothing above it reads the one group it could bind. -/
theorem prunable (faces : pattern.Faces graph source.available ledger) (valid : graph.Valid)
    (ordered : graph.producers.Pairwise RelationshipProducer.Precedes)
    (found : graph.connections[index]? = some (.quantified pattern)) {config : PlannerConfig} {group target : String}
    (only : ∀ name ∈ pattern.relationshipGroups, name = group)
    (prunes : (pattern.site graph index source.available ledger).request.prunes config
      ((pattern.site graph index source.available ledger).request.needs source) group (decide (target ∈ source.available)) = true) :
    graph.Prunable config index pattern source.available
      ((pattern.site graph index source.available ledger).request.sorted source).solved target := by
  simp only [QuantifiedRequest.prunes, Bool.and_eq_true, Bool.not_eq_true', Bool.or_eq_false_iff, decide_eq_false_iff_not,
    Bool.not_eq_false', List.isEmpty_iff] at prunes
  obtain ⟨⟨⟨enabled, distinct⟩, unneeded, alone⟩, free⟩ := prunes
  have unread : ∀ name ∈ pattern.relationshipGroups, ¬ graph.ReadsAbove index pattern source.available
      ((pattern.site graph index source.available ledger).request.sorted source).solved name := by
    intro name member
    rwa [← faces.mem_needs valid ordered found (List.mem_append_right _ member), only name member]
  refine ⟨distinct, enabled, free, fun name member required => unread name member (.inl required), ?_, ?_⟩
  · intro name member atom asked reads
    by_contra unsolved
    exact unread name member (.inr (.inl ⟨atom, asked, reads, unsolved⟩))
  · intro own mine other theirs
    refine Bool.eq_false_iff.mpr fun clashes => ?_
    by_cases taken : other.name ∈ source.available
    · have sibling := (faces.mem_siblings ordered found).mpr ⟨taken, own, mine, theirs, clashes⟩
      rw [alone] at sibling
      exact absurd sibling List.not_mem_nil
    · exact unread own.name (mem_relationshipGroups_of_producer mine) (.inr (.inr ⟨own, mine, rfl, other, theirs, clashes, taken⟩))

end QuantifiedPattern.Faces

theorem PatternPlanned.suits {ν : Type} {environment : Environment ν} {arena : Arena ν} {operator planned : Plan} {discharged : Bool}
    (valid : graph.Valid) (formed : pattern.WellFormed) (once : pattern.GroupsOnce)
    (ordered : graph.producers.Pairwise RelationshipProducer.Precedes)
    (found : graph.connections[index]? = some (.quantified pattern)) (faces : pattern.Faces graph source.available ledger)
    (chosen : PatternPlanned environment arena source (pattern.site graph index source.available ledger).request operator planned
      discharged) : graph.Suits environment.config arena.solved index pattern operator := by
  have decided := faces.collapses_iff valid formed ordered found environment.config
  cases chosen with
  | @collapsed direction relationship others group id collapses possible relationships grouped recorded =>
    have hidden := decided.mp collapses
    have family : (QuantifiedRequest.collapseAbove _ environment.config relationship group direction id source).kind.isVarExpand = true :=
      QuantifiedRequest.expansion_isVarExpand (pattern.site graph index source.available ledger).request ..
    have single : others = [] := by
      simp only [QuantifiedRequest.collapses, Bool.and_eq_true, QuantifiedPattern.isSingle, relationships] at collapses
      simpa using collapses.1.1.1.2
    have only := once.only formed (single ▸ relationships) grouped
    refine
      { looped := iff_of_false (fun loop => ?_) hidden
        collapsed := fun _ => family
        pruned := fun number step input hop same pruned => ?_
        breadthFirst := QuantifiedRequest.expansion_breadthFirst
        bounded := QuantifiedRequest.expansion_bounded }
    · rw [loop] at family
      cases family
    · cases same
      obtain ⟨prunes, rfl⟩ := QuantifiedRequest.expansion_pruned pruned
      rw [recorded]
      exact faces.prunable valid ordered found only prunes
  | @looped direction finish id inner _ kept possible built recorded ended =>
    have observes : graph.ObservesInterior environment.config pattern := by
      by_contra hidden
      exact Bool.false_ne_true (kept.symm.trans (decided.mpr hidden))
    exact
      { looped := iff_of_true rfl observes
        collapsed := fun hidden => absurd observes hidden
        pruned := fun _ _ _ _ impossible => by cases impossible
        breadthFirst := fun impossible => by cases impossible
        bounded := fun impossible => by cases impossible }

end

/-- Every quantified pattern is planned by an operator that suits what is observed of it. -/
structure PlannedQuery.Suits {ν : Type} (query : PlannedQuery ν) (graph : MatchGraph) (config : PlannerConfig) (operators : List Plan) :
    Prop where
  expansions : operators.Perm query.root.expansions
  realises : List.Forall₂ (Realises query.root) graph.connections operators
  patterns : ∀ (index : Nat) (pattern : QuantifiedPattern) (operator : Plan), graph.connections[index]? = some (.quantified pattern) →
    operators[index]? = some operator → graph.Suits config query.arena.solved index pattern operator

/-- Whatever the order in which a clause is planned, a pattern becomes a single expansion exactly when nothing observes its interior,
and the expansion leaves out what is not observed of the path. -/
theorem Environment.plan_collapses {ν : Type} [Quantity ν] {environment : Environment ν} {graph : MatchGraph}
    (standard : environment.StandardLeaves)
    (built : ∀ pattern, .quantified pattern ∈ graph.connections → ∃ draft : QuantifiedDraft, draft.build = .ok pattern)
    (once : ∀ pattern, .quantified pattern ∈ graph.connections → pattern.GroupsOnce)
    (given : ∀ connection ∈ graph.connections, ∀ name ∈ connection.exposed, name ∉ graph.arguments)
    (exposed : ∀ connection ∈ graph.connections, ∀ name ∈ connection.exposed, isReserved name = false)
    {before after : Session ν} {query : PlannedQuery ν} (ran : environment.plan graph before = .ok query after) :
    ∃ operators, query.Suits graph environment.config operators := by
  have formed := MatchGraph.wellFormed_of_built built
  obtain ⟨valid, ordered, operators, permuted, realised, faced⟩ := Environment.faced_of_plan standard formed given exposed ran
  refine ⟨operators, permuted, realised, fun index pattern operator found placed => ?_⟩
  have member := List.mem_of_getElem? found
  obtain ⟨source, ledger, planned, discharged, faces, chosen⟩ := faced index pattern operator found placed
  exact chosen.suits valid (formed pattern member) (once pattern member) ordered found faces

namespace MatchGraph

theorem twin_once {group : String} {selections : List Expression} :
    ∀ pattern, .quantified pattern ∈ (twin group selections).connections → pattern.GroupsOnce := by
  intro pattern member
  simp only [twin, List.mem_cons, Connection.quantified.injEq, List.not_mem_nil, or_false] at member
  rcases member with rfl | rfl
  exacts [List.nodup_singleton _, List.nodup_singleton _]

/-- Two loops without further conditions, of which distinct ends are read. -/
def loose : MatchGraph :=
  { twin "g" [] with selections := [.equals (.property "f" "p") (.literal (.integer 1))], arguments := ∅, distinctEndpoints := true }

/-- The condition keeps the first loop, the second collapses. -/
theorem loose_suited : ∃ query after, Environment.counting.plan loose (.initial false) = .ok query after ∧
    ∃ operators, query.Suits loose .standard operators := by
  have returns : Environment.counting.returns loose (fun _ => true) = true := by decide +kernel
  have free : ∀ name ∈ ["f", "s", "g", "r"], isReserved name = false := by decide +kernel
  have connections : loose.connections = (twin "g" []).connections := rfl
  obtain ⟨query, after, ran, -⟩ := Environment.returns_ok returns
  refine ⟨query, after, ran, Environment.plan_collapses Environment.counting_standard ?_ ?_ ?_ ?_ ran⟩ <;> rw [connections]
  · exact twin_built rfl
  · exact twin_once
  · exact fun _ _ name _ => NameSet.not_mem_empty name
  · exact fun connection member name exposes => free name (twin_exposed connection member name exposes)

/-- The only loop of a plan is the first. -/
private def loopsFirst : Plan → Bool
  | .trail _ parameters _ _ => decide (parameters.innerStart = "n") || decide (parameters.innerStart = "m")
  | _ => true

/-- A group that is named like the end of a loop counts as bound above that loop. The condition on it is placed there, and the second
loop collapses although the condition reads its nodes. -/
theorem twin_overlooked : Environment.counting.StandardLeaves ∧
    (∀ pattern, .quantified pattern ∈ (twin "  trail_end_0" []).connections →
      (∃ draft : QuantifiedDraft, draft.build = .ok pattern) ∧ pattern.GroupsOnce) ∧
    (∀ connection ∈ (twin "  trail_end_0" []).connections, ∀ name ∈ connection.exposed,
      name ∉ (twin "  trail_end_0" []).arguments) ∧
    ∃ query after, Environment.counting.plan (twin "  trail_end_0" []) (.initial false) = .ok query after ∧
      ∀ operators, ¬ query.Suits (twin "  trail_end_0" []) .standard operators := by
  have returns : Environment.counting.returns (twin "  trail_end_0" []) (fun query => query.root.expansions.all loopsFirst) = true := by
    decide +kernel
  have free : ∀ name ∈ ["f", "s", "  trail_end_0", "r"], name ∉ (twin "  trail_end_0" []).arguments := by decide +kernel
  obtain ⟨query, after, ran, accepted⟩ := Environment.returns_ok returns
  refine ⟨Environment.counting_standard, fun pattern member => ⟨twin_built rfl pattern member, twin_once pattern member⟩,
    fun connection member name exposes => free name (twin_exposed connection member name exposes), query, after, ran, ?_⟩
  intro operators suits
  obtain ⟨operator, placed, realises⟩ := operator_at suits.realises 1 rfl
  have observed : (twin "  trail_end_0" []).ObservesInterior .standard (QuantifiedDraft.latter "  trail_end_0" []).pattern := by
    have asked : Expression.equals (.property "  trail_end_0" "p") (.literal (.integer 1)) ∈ (twin "  trail_end_0" []).whereAtoms :=
      List.mem_cons_of_mem _ List.mem_cons_self
    exact .inr (.inr (.inr ⟨"  trail_end_0", List.mem_cons_self, .inr ⟨_, asked, by decide +kernel⟩⟩))
  have loop := (suits.patterns 1 _ operator rfl placed).looped.mpr observed
  have first := List.all_eq_true.mp accepted operator (suits.expansions.subset (List.mem_of_getElem? placed))
  cases realises with
  | collapsed | pruned | breadthFirst => cases loop
  | @looped _ direction parameters id input inner loops ends =>
    have start := loops.innerStart
    cases direction <;> simp [loopsFirst, start, QuantifiedPattern.near, QuantifiedDraft.latter, QuantifiedDraft.pattern] at first

end MatchGraph

end MatchPlanner
