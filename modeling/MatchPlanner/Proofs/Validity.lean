import MatchPlanner.Pattern.Draft
import MatchPlanner.MatchGraph.Uniqueness

/-! What the checks of a pattern and of a graph establish. -/

namespace MatchPlanner

/-- The relationships lead from one node to another, each leaving where the one before arrives. -/
inductive Chain : String → List PatternRelationship → String → Prop where
  | done {node : String} : Chain node [] node
  | step {relationship : PatternRelationship} {rest : List PatternRelationship} {finish : String}
    (further : Chain relationship.right rest finish) : Chain relationship.left (relationship :: rest) finish

theorem chain_nil {start finish : String} : Chain start [] finish ↔ start = finish := by
  constructor
  · rintro ⟨⟩
    rfl
  · rintro rfl
    exact .done

theorem chain_cons {start finish : String} {relationship : PatternRelationship} {rest : List PatternRelationship} :
    Chain start (relationship :: rest) finish ↔ relationship.left = start ∧ Chain relationship.right rest finish := by
  constructor
  · rintro ⟨⟩
    next further => exact ⟨rfl, further⟩
  · rintro ⟨rfl, further⟩
    exact .step further

private theorem bind_ok {α β : Type} {first : Except PatternFault α} {next : α → Except PatternFault β} {result : β} :
    first >>= next = .ok result ↔ ∃ value, first = .ok value ∧ next value = .ok result := by
  constructor
  · intro ran
    cases first with
    | error fault => cases ran
    | ok value => exact ⟨value, rfl, ran⟩
  · rintro ⟨value, rfl, ran⟩
    exact ran

private theorem if_error_ok {α : Type} {condition : Prop} [Decidable condition] {fault : PatternFault}
    {next : Except PatternFault α} {result : α} :
    (if condition then .error fault else next) = .ok result ↔ ¬ condition ∧ next = .ok result := by
  split <;> simp [*]

/-- A pattern that the builder accepts. -/
structure QuantifiedPattern.WellFormed (pattern : QuantifiedPattern) : Prop where
  nonempty : pattern.relationships ≠ []
  simple : ∀ relationship ∈ pattern.relationships, relationship.isPath = false
  chain : Chain pattern.left.inner pattern.relationships pattern.right.inner
  distinctNames : pattern.relationshipNames.Nodup
  distinctNodes : pattern.innerNodes.Nodup
  nodeMembers : ∀ grouping ∈ pattern.nodeGroupings, grouping.singleton ∈ pattern.innerNodes
  relationshipMembers : ∀ grouping ∈ pattern.relationshipGroupings, grouping.singleton ∈ pattern.relationshipNames
  grouped : ∀ name ∈ pattern.relationshipNames, ∃ grouping ∈ pattern.relationshipGroupings, grouping.singleton = name
  distinctGroups : pattern.groups.Nodup
  ordered : ∀ most, pattern.repetition.most = .limited most → pattern.repetition.least ≤ most

theorem Repetition.checked_ok {range repetition : Repetition} :
    range.checked = .ok repetition ↔ repetition = range ∧ ∀ most, range.most = .limited most → range.least ≤ most := by
  unfold checked
  split
  next unlimited => simp [unlimited, eq_comm]
  next count limited =>
    simp only [if_error_ok, limited, UpperBound.limited.injEq, forall_eq', Nat.not_lt, Except.ok.injEq]
    exact and_comm.trans (and_congr_left' eq_comm)

namespace QuantifiedDraft

private theorem chainEnd_ok {expected finish : String} {nodes names : List String} {relationships : List PatternRelationship} :
    chainEnd expected nodes names relationships = .ok finish ↔
      Chain expected relationships finish ∧ (∀ relationship ∈ relationships, relationship.isPath = false) ∧
        ((relationships.map PatternRelationship.name).Nodup ∧ ∀ name ∈ relationships.map PatternRelationship.name, name ∉ names) ∧
        (relationships.map PatternRelationship.right).Nodup ∧
          ∀ node ∈ relationships.map PatternRelationship.right, node ∉ nodes := by
  induction relationships generalizing expected nodes names with
  | nil => simp [chainEnd, chain_nil]
  | cons relationship rest further =>
    simp only [chainEnd, if_error_ok, further, chain_cons, List.map_cons, List.nodup_cons, List.mem_cons, not_or, ne_eq,
      Classical.not_not, Bool.not_eq_true]
    grind

private theorem checkGroupings_ok {members : List String} {unknown : String → PatternFault} {seen after : List String}
    {groupings : List Grouping} :
    checkGroupings members unknown seen groupings = .ok after ↔ (∀ grouping ∈ groupings, grouping.singleton ∈ members) ∧
      ((groupsOf groupings).Nodup ∧ ∀ group ∈ groupsOf groupings, group ∉ seen) ∧ after = (groupsOf groupings).reverse ++ seen := by
  induction groupings generalizing seen with
  | nil => simp [checkGroupings, groupsOf, eq_comm]
  | cons grouping rest further =>
    simp only [groupsOf] at further
    simp only [checkGroupings, if_error_ok, further, groupsOf, List.map_cons, List.nodup_cons, List.mem_cons, not_or,
      Classical.not_not, List.reverse_cons, List.append_assoc, List.singleton_append]
    grind

private theorem checkGrouped_ok {groupings : List Grouping} {names : List String} :
    checkGrouped groupings names = .ok () ↔ ∀ name ∈ names, ∃ grouping ∈ groupings, grouping.singleton = name := by
  induction names with
  | nil => simp [checkGrouped]
  | cons name rest further =>
    have met : (groupings.any fun grouping => grouping.singleton == name) = true ↔
        ∃ grouping ∈ groupings, grouping.singleton = name := by simp
    rw [checkGrouped, List.forall_mem_cons, ← met]
    split <;> simp [*]

/-- The groupings that are given, and after them one for every name that none of them collects. -/
def completedGroupings (names : List String) (groupings : List Grouping) : List Grouping :=
  groupings ++ (names.filter fun name => !groupings.any fun grouping => grouping.singleton == name).map fun name => ⟨name, name⟩

theorem groupedByName_eq {names : List String} (distinct : names.Nodup) (groupings : List Grouping) :
    groupedByName names groupings = completedGroupings names groupings := by
  unfold groupedByName
  induction names generalizing groupings with
  | nil => simp [completedGroupings]
  | cons name rest further =>
    obtain ⟨fresh, distinct⟩ := List.nodup_cons.mp distinct
    rw [List.foldl_cons, further distinct]
    split
    next grouped => simp [completedGroupings, grouped]
    next ungrouped =>
      -- The grouping just added collects none of the names that follow.
      have kept : ∀ other ∈ rest, (groupings ++ [Grouping.mk name name]).any (fun grouping => grouping.singleton == other) =
          groupings.any fun grouping => grouping.singleton == other := by
        intro other member
        have different : name ≠ other := fun same => fresh (same ▸ member)
        simp [different]
      rw [completedGroupings, List.filter_congr fun other member => congrArg Bool.not (kept other member)]
      simp [completedGroupings, ungrouped]

/-- What a draft comes to, with the groupings that grouping by name adds. -/
def completed (draft : QuantifiedDraft) : QuantifiedPattern where
  left := draft.left
  right := draft.right
  relationships := draft.relationships
  repetition := draft.repetition
  nodeGroupings :=
    if draft.groupByName then completedGroupings (nodesAlong draft.left.inner draft.relationships) draft.nodeGroupings
    else draft.nodeGroupings
  relationshipGroupings :=
    if draft.groupByName then completedGroupings (draft.relationships.map PatternRelationship.name) draft.relationshipGroupings
    else draft.relationshipGroupings
  selections := draft.selections

private theorem unless_ok {α : Type} {condition : Prop} [Decidable condition] {fault : PatternFault}
    {next : Unit → Except PatternFault α} {result : α} :
    (if condition then throw fault >>= next else next ()) = .ok result ↔ ¬ condition ∧ next () = .ok result := if_error_ok

private theorem checked_ok {draft : QuantifiedDraft} {pattern : QuantifiedPattern} :
    draft.checked = .ok pattern ↔ pattern.WellFormed ∧ pattern = draft.completed := by
  simp only [checked, unless_ok, bind_ok, chainEnd_ok, Repetition.checked_ok, checkGroupings_ok]
  constructor
  · rintro ⟨nonempty, reached, ⟨chain, simple, ⟨names, -⟩, nodes, others⟩, arrived, grouped⟩
    cases Classical.not_not.mp arrived
    have distinctNodes : (nodesAlong draft.left.inner draft.relationships).Nodup :=
      List.nodup_cons.mpr ⟨fun again => others _ again List.mem_cons_self, nodes⟩
    rw [groupedByName_eq distinctNodes, groupedByName_eq names] at grouped
    obtain ⟨_, ⟨rfl, ordered⟩, _, ⟨nodeMembers, ⟨nodeGroups, -⟩, rfl⟩, ⟨⟩, grouped, _,
      ⟨relationshipMembers, ⟨relationshipGroups, apart⟩, -⟩, same⟩ := grouped
    cases same
    exact ⟨{
      nonempty := fun empty => nonempty (List.isEmpty_iff.mpr empty)
      simple := simple
      chain := chain
      distinctNames := names
      distinctNodes := distinctNodes
      nodeMembers := nodeMembers
      relationshipMembers := relationshipMembers
      grouped := checkGrouped_ok.mp grouped
      distinctGroups := List.nodup_append.mpr ⟨nodeGroups, relationshipGroups, fun group early other late same =>
        apart other late (by simpa using same ▸ early)⟩
      ordered := ordered }, rfl⟩
  · rintro ⟨formed, rfl⟩
    obtain ⟨nodeGroups, relationshipGroups, apart⟩ := List.nodup_append.mp formed.distinctGroups
    obtain ⟨away, nodes⟩ := List.nodup_cons.mp formed.distinctNodes
    have distinctNodes : (nodesAlong draft.left.inner draft.relationships).Nodup := formed.distinctNodes
    have distinctNames : (draft.relationships.map PatternRelationship.name).Nodup := formed.distinctNames
    rw [groupedByName_eq distinctNodes, groupedByName_eq distinctNames]
    refine ⟨fun empty => formed.nonempty (List.isEmpty_iff.mp empty), draft.right.inner,
      ⟨formed.chain, formed.simple, ⟨formed.distinctNames, by simp⟩, nodes, fun node member first => ?_⟩, not_not_intro rfl,
      draft.repetition, ⟨rfl, formed.ordered⟩, _, ⟨formed.nodeMembers, ⟨nodeGroups, by simp⟩, rfl⟩, (),
      checkGrouped_ok.mpr formed.grouped, _, ⟨formed.relationshipMembers, ⟨relationshipGroups, fun group late early => ?_⟩, rfl⟩, rfl⟩
    · exact away (List.mem_singleton.mp first ▸ member)
    · rw [List.append_nil, List.mem_reverse] at early
      exact apart group early group late rfl

theorem build_eq_ok {draft : QuantifiedDraft} {pattern : QuantifiedPattern} :
    draft.build = .ok pattern ↔ pattern.WellFormed ∧ pattern = draft.completed := by
  rw [← checked_ok, build]
  cases draft.checked with
  | error fault => constructor <;> rintro ⟨⟩
  | ok made => constructor <;> (rintro ⟨⟩; rfl)

theorem build_ok {draft : QuantifiedDraft} {pattern : QuantifiedPattern} (built : draft.build = .ok pattern) :
    pattern.WellFormed := (build_eq_ok.mp built).1

end QuantifiedDraft

namespace MatchGraph

theorem wellFormed_of_built {graph : MatchGraph}
    (built : ∀ pattern, .quantified pattern ∈ graph.connections → ∃ draft : QuantifiedDraft, draft.build = .ok pattern) :
    ∀ pattern, .quantified pattern ∈ graph.connections → pattern.WellFormed := by
  intro pattern member
  obtain ⟨draft, accepted⟩ := built pattern member
  exact QuantifiedDraft.build_ok accepted

/-- A graph whose nodes are distinct and declared and whose variables are bound once. -/
structure Valid (graph : MatchGraph) : Prop where
  nodes : graph.nodeNames.Nodup
  ends : ∀ connection ∈ graph.connections, connection.left ∈ graph.nodeNames ∧ connection.right ∈ graph.nodeNames
  exposed : (graph.connections.flatMap Connection.exposed).Nodup
  apart : ∀ name ∈ graph.connections.flatMap Connection.exposed, name ∉ graph.nodeNames

private theorem checkNodes_ok {seen names : List String} (accepted : checkNodes seen names = .ok ()) :
    names.Nodup ∧ ∀ name ∈ names, name ∉ seen := by
  induction names generalizing seen with
  | nil => exact ⟨.nil, by simp⟩
  | cons name rest further =>
    unfold checkNodes at accepted
    split at accepted
    · cases accepted
    next fresh =>
    obtain ⟨distinct, others⟩ := further accepted
    refine ⟨List.nodup_cons.mpr ⟨fun again => others _ again List.mem_cons_self, distinct⟩, ?_⟩
    exact List.forall_mem_cons.mpr ⟨fresh, fun name member early => others name member (List.mem_cons_of_mem _ early)⟩

private theorem checkExposed_ok {nodes seen after names : List String} (accepted : checkExposed nodes seen names = .ok after) :
    names.Nodup ∧ (∀ name ∈ names, name ∉ nodes ∧ name ∉ seen) ∧ ∀ name, name ∈ after ↔ name ∈ seen ∨ name ∈ names := by
  induction names generalizing seen with
  | nil =>
    cases accepted
    exact ⟨.nil, by simp, by simp⟩
  | cons name rest further =>
    unfold checkExposed at accepted
    split at accepted
    · cases accepted
    next fresh =>
    obtain ⟨distinct, others, all⟩ := further accepted
    refine ⟨List.nodup_cons.mpr ⟨fun again => (others _ again).2 List.mem_cons_self, distinct⟩, ?_, fun other => ?_⟩
    · refine List.forall_mem_cons.mpr ⟨not_or.mp fresh, fun name member => ⟨(others name member).1, fun early => ?_⟩⟩
      exact (others name member).2 (List.mem_cons_of_mem _ early)
    · rw [all, List.mem_cons, List.mem_cons]
      grind

private theorem checkConnections_ok {nodes seen : List String} {connections : List Connection}
    (accepted : checkConnections nodes seen connections = .ok ()) :
    (∀ connection ∈ connections, connection.left ∈ nodes ∧ connection.right ∈ nodes) ∧
      (connections.flatMap Connection.exposed).Nodup ∧
      ∀ name ∈ connections.flatMap Connection.exposed, name ∉ nodes ∧ name ∉ seen := by
  induction connections generalizing seen with
  | nil => exact ⟨by simp, .nil, by simp⟩
  | cons connection rest further =>
    unfold checkConnections at accepted
    split at accepted
    · cases accepted
    next left =>
    split at accepted
    · cases accepted
    next right =>
    obtain ⟨after, exposed, accepted⟩ := bind_ok.mp accepted
    obtain ⟨ends, distinct, apart⟩ := further accepted
    obtain ⟨own, fresh, all⟩ := checkExposed_ok exposed
    refine ⟨List.forall_mem_cons.mpr ⟨⟨Classical.not_not.mp left, Classical.not_not.mp right⟩, ends⟩, ?_, fun name member => ?_⟩
    · rw [List.flatMap_cons]
      exact List.nodup_append.mpr ⟨own, distinct, fun name early other late same =>
        (apart other late).2 ((all other).mpr (.inr (same ▸ early)))⟩
    · rcases List.mem_append.mp (List.flatMap_cons ▸ member) with here | later
      · exact fresh name here
      · exact ⟨(apart name later).1, fun early => (apart name later).2 ((all name).mpr (.inl early))⟩

theorem validate_ok {graph : MatchGraph} (accepted : graph.validate = .ok ()) : graph.Valid := by
  unfold validate at accepted
  cases checked : (do checkNodes [] graph.nodeNames; checkConnections graph.nodeNames [] graph.connections :
      Except PatternFault Unit) with
  | error fault =>
    rw [checked] at accepted
    cases accepted
  | ok result =>
    obtain ⟨⟨⟩, nodes, connections⟩ := bind_ok.mp checked
    obtain ⟨ends, distinct, apart⟩ := checkConnections_ok connections
    exact ⟨(checkNodes_ok nodes).1, ends, distinct, fun name member => (apart name member).1⟩

end MatchGraph

end MatchPlanner
