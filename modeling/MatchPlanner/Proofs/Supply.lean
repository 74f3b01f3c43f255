import MatchPlanner.Proofs.Connectivity
import MatchPlanner.Proofs.Observation
import MatchPlanner.Proofs.Scoping

/-! Every variable that is read after a clause is produced by its plan. A pattern leaves its groups bound for those who read them
later, nothing that is bound gets lost on the way to the root, and the components together reach every node. -/

namespace MatchPlanner

/-- A variable of the clause: one of its nodes, one that a connection exposes, or one given from outside. -/
def MatchGraph.Visible (graph : MatchGraph) (name : String) : Prop :=
  name ∈ graph.nodeNames ∨ name ∈ graph.arguments ∨ ∃ connection ∈ graph.connections, name ∈ connection.exposed

instance (graph : MatchGraph) (name : String) : Decidable (graph.Visible name) :=
  inferInstanceAs (Decidable (name ∈ graph.nodeNames ∨ name ∈ graph.arguments ∨ ∃ connection ∈ graph.connections, name ∈ connection.exposed))

/-- A valid graph whose patterns are well formed and collect no relationship twice. -/
structure MatchGraph.Regular (graph : MatchGraph) : Prop where
  valid : graph.Valid
  formed : ∀ pattern, .quantified pattern ∈ graph.connections → pattern.WellFormed
  once : ∀ pattern, .quantified pattern ∈ graph.connections → pattern.GroupsOnce

/-- Whatever the connections planned so far expose is bound as far as it is still read. -/
def Supplied (graph : MatchGraph) (done : List Nat) (plan : Plan) (ledger : Ledger) : Prop :=
  ∀ index ∈ done, ∀ connection, graph.connections[index]? = some connection → ∀ name ∈ connection.exposed,
    graph.Observed ledger name → name ∈ plan.available

namespace Supplied

variable {graph : MatchGraph} {done : List Nat} {plan larger : Plan} {before after : Ledger}

theorem nothing (plan : Plan) (ledger : Ledger) : Supplied graph [] plan ledger :=
  fun _ impossible => absurd impossible List.not_mem_nil

theorem mono (supplied : Supplied graph done plan before) (grows : ∀ name ∈ plan.available, name ∈ larger.available)
    (shrinks : after ⊆ before) : Supplied graph done larger after :=
  fun index member connection found name exposes observed =>
    grows name (supplied index member connection found name exposes (observed.mono shrinks))

/-- One more connection is planned. -/
theorem add (supplied : Supplied graph done plan after) {index : Nat} {connection : Connection}
    (found : graph.connections[index]? = some connection)
    (exposed : ∀ name ∈ connection.exposed, graph.Observed after name → name ∈ plan.available) :
    Supplied graph (done ++ [index]) plan after := by
  intro other member also declared
  rcases List.mem_append.mp member with early | here
  · exact supplied other early also declared
  · cases List.mem_singleton.mp here
    cases found.symm.trans declared
    exact exposed

end Supplied

/-! What each step binds, and that ledgers only shrink. -/

theorem Placed.sublist {input plan : Plan} {before after : Ledger} (placed : Placed input before plan after) :
    after.Sublist before := placed.waiting ▸ List.filter_sublist

section

variable {ν : Type} {environment : Environment ν} {arena : Arena ν} {graph : MatchGraph} {before after : Ledger} {plan : Plan}

theorem Scanned.sublist {node : String} (scanned : Scanned environment arena node before plan after) : after.Sublist before := by
  cases scanned with
  | scanned offered chosen recorded placed => exact placed.sublist.trans (before.solve_sublist _)

theorem Scanned.mem_available (standard : environment.StandardLeaves) {node name : String}
    (scanned : Scanned environment arena node before plan after) : name ∈ plan.available ↔ name = node := by
  cases scanned with
  | scanned offered chosen recorded placed =>
    rw [placed.filtered.available, Plan.mem_available_leaf,
      (LeafCandidate.sound_of_standard (standard _ _ _ _ offered _ chosen)).binds, List.mem_singleton]

theorem PatternPlanned.grows {source operator : Plan} {request : QuantifiedRequest} {discharged : Bool}
    (planned : PatternPlanned environment arena source request operator plan discharged) :
    ∀ name ∈ source.available, name ∈ plan.available := by
  intro name bound
  cases planned with
  | collapsed => exact Plan.mem_available_step.mpr (.inl bound)
  | looped _ _ _ _ ended =>
    rw [ended.available]
    exact Plan.mem_available_trail.mpr (.inl bound)

theorem PatternPlanned.ends {source operator : Plan} {request : QuantifiedRequest} {discharged : Bool}
    (planned : PatternPlanned environment arena source request operator plan discharged) :
    request.pattern.left.outer ∈ plan.available ∧ request.pattern.right.outer ∈ plan.available := by
  have sides : ∀ direction, direction ∈ request.directions source.available → (request.pattern.far direction).outer ∈ plan.available →
      request.pattern.left.outer ∈ plan.available ∧ request.pattern.right.outer ∈ plan.available := by
    intro direction possible far
    have near := planned.grows _ (request.near_bound possible)
    cases direction with
    | forward => exact ⟨near, far⟩
    | reversed => exact ⟨far, near⟩
  cases planned with
  | @collapsed direction relationship others group id collapses possible relationships grouped recorded =>
    refine sides direction possible (Plan.mem_available_step.mpr (.inr ?_))
    change (request.hop relationship direction).target ∈ _
    rcases request.expansion_cases environment.config (request.hop relationship direction) group
      ((request.sorted source).extracted.map ExtractedPredicate.element)
      (request.prunes environment.config (request.needs source) group
        (decide ((request.hop relationship direction).target ∈ source.available)))
      (decide ((request.hop relationship direction).target ∈ source.available)) with full | ⟨-, ⟨most, -, pruned⟩ | ⟨-, pruned⟩⟩
    · rw [full]
      simp [Step.binds]
    · rw [pruned]
      simp [Step.binds]
    · rw [pruned]
      simp [Step.binds]
  | @looped direction finish id inner _ kept possible built recorded ended =>
    refine sides direction possible ?_
    rw [ended.available, Plan.mem_available_trail]
    cases ended with
    | reached free => exact .inr (.inl rfl)
    | closed taken reserved => exact .inl taken

namespace Extended

variable {index : Nat} {connection : Connection} {input operator : Plan}

theorem grows (extended : Extended environment arena graph index input before connection operator plan after) :
    ∀ name ∈ input.available, name ∈ plan.available := by
  intro name bound
  cases extended with
  | relationship recorded placed =>
    rw [placed.filtered.available]
    exact PatternRelationship.mem_available_expandAbove.mpr (.inl bound)
  | quantified chosen placed =>
    rw [placed.filtered.available]
    exact chosen.grows name bound

theorem sublist (extended : Extended environment arena graph index input before connection operator plan after) :
    after.Sublist before := by
  cases extended with
  | relationship recorded placed => exact placed.sublist
  | quantified chosen placed => exact placed.sublist.trans (QuantifiedSite.remaining_sublist ..)

theorem ends (extended : Extended environment arena graph index input before connection operator plan after) :
    connection.left ∈ plan.available ∧ connection.right ∈ plan.available := by
  cases extended with
  | relationship recorded placed =>
    rw [placed.filtered.available]
    exact ⟨PatternRelationship.mem_available_expandAbove.mpr (.inr (.inl rfl)),
      PatternRelationship.mem_available_expandAbove.mpr (.inr (.inr (.inl rfl)))⟩
  | quantified chosen placed =>
    rw [placed.filtered.available]
    exact chosen.ends

theorem supplied (regular : graph.Regular) {done : List Nat} (found : graph.connections[index]? = some connection)
    (known : List.Sublist before (Ledger.ofGraph graph))
    (extended : Extended environment arena graph index input before connection operator plan after)
    (supplied : Supplied graph done input before) : Supplied graph (done ++ [index]) plan after := by
  refine (supplied.mono extended.grows extended.sublist.subset).add found fun name exposes observed => ?_
  cases extended with
  | relationship recorded placed =>
    rw [placed.filtered.available, PatternRelationship.mem_available_expandAbove]
    exact .inr (.inr (.inr (List.mem_singleton.mp exposes)))
  | @quantified pattern _ _ _ discharged _ chosen placed =>
    have member := List.mem_of_getElem? found
    rw [placed.filtered.available]
    exact chosen.supplies_observed regular.valid found (regular.formed pattern member) (regular.once pattern member) known exposes
      (observed.mono placed.sublist.subset)

end Extended

theorem Seeded.sublist {connection : Connection} (seeded : Seeded environment arena connection before plan after) :
    after.Sublist before := by
  cases seeded with
  | endpoint ends scanned => exact scanned.sublist
  | crossed crosses scannedLeft scannedRight => exact scannedRight.sublist.trans scannedLeft.sublist

namespace Added

variable {index : Nat} {connection : Connection} {input operator : Plan}

theorem grows (added : Added environment arena graph index input before connection operator plan after) :
    ∀ name ∈ input.available, name ∈ plan.available := by
  cases added with
  | extended touches extended => exact extended.grows
  | joined simple oriented nearBound farFree scanned selective placed =>
    intro name bound
    rw [placed.filtered.available]
    exact Plan.mem_available_join.mpr (.inl bound)

theorem sublist (added : Added environment arena graph index input before connection operator plan after) :
    after.Sublist before := by
  cases added with
  | extended touches extended => exact extended.sublist
  | joined simple oriented nearBound farFree scanned selective placed => exact placed.sublist.trans scanned.sublist

/-- Both ends of the connection and the variable of a relationship that is joined are bound. -/
private theorem binds_joined {relationship : PatternRelationship} {near far : String} {leaf : Plan} {middle : Ledger}
    {id joinId : PlanId} (oriented : relationship.orientation input.available = (near, far))
    (placed : Placed (.join joinId (.nodeHashJoin [near]) input
      (.step id (.expand (relationship.hop far near) relationship.name .all) leaf)) middle plan after) :
    (relationship.left ∈ plan.available ∧ relationship.right ∈ plan.available) ∧ relationship.name ∈ plan.available := by
  have binds : ∀ name, name = near ∨ name = far ∨ name = relationship.name → name ∈ plan.available := by
    intro name which
    rw [placed.filtered.available, Plan.mem_available_join, Plan.mem_available_step]
    simp only [Step.binds, PatternRelationship.hop, List.mem_cons, List.not_mem_nil, or_false]
    grind
  refine ⟨?_, binds _ (.inr (.inr rfl))⟩
  rcases PatternRelationship.ends_of_orientation oriented with ⟨rfl, rfl⟩ | ⟨rfl, rfl⟩
  exacts [⟨binds _ (.inl rfl), binds _ (.inr (.inl rfl))⟩, ⟨binds _ (.inr (.inl rfl)), binds _ (.inl rfl)⟩]

theorem ends (added : Added environment arena graph index input before connection operator plan after) :
    connection.left ∈ plan.available ∧ connection.right ∈ plan.available := by
  cases added with
  | extended touches extended => exact extended.ends
  | joined simple oriented nearBound farFree scanned selective placed => exact (binds_joined oriented placed).1

theorem supplied (regular : graph.Regular) {done : List Nat} (found : graph.connections[index]? = some connection)
    (known : List.Sublist before (Ledger.ofGraph graph))
    (added : Added environment arena graph index input before connection operator plan after)
    (supplied : Supplied graph done input before) : Supplied graph (done ++ [index]) plan after := by
  cases added with
  | extended touches extended => exact extended.supplied regular found known supplied
  | joined simple oriented nearBound farFree scanned selective placed =>
    refine (supplied.mono (fun name bound => ?_) (placed.sublist.trans scanned.sublist).subset).add found fun name exposes _ => ?_
    · rw [placed.filtered.available]
      exact Plan.mem_available_join.mpr (.inl bound)
    · exact List.mem_singleton.mp exposes ▸ (binds_joined oriented placed).2

end Added

/-! The plan of a component. -/

namespace Grown

variable {component : Component} {assigned : Assignment}

theorem sublist (grown : Grown environment arena graph component before plan after assigned) : after.Sublist before := by
  induction grown with
  | argument touched recorded placed => exact placed.sublist
  | scan untouched member alone scanned => exact scanned.sublist
  | seeded untouched member seeded extended => exact extended.sublist.trans seeded.sublist
  | added grown member fresh added further => exact added.sublist.trans further

/-- The connections planned so far have both ends bound. -/
theorem ends (grown : Grown environment arena graph component before plan after assigned) : ∀ index ∈ assigned.map Prod.fst,
    ∀ connection, graph.connections[index]? = some connection → connection.left ∈ plan.available ∧ connection.right ∈ plan.available := by
  induction grown with
  | argument | scan => exact fun _ impossible => absurd impossible List.not_mem_nil
  | seeded untouched member seeded extended =>
    intro index here connection found
    cases List.mem_singleton.mp here
    cases (Environment.mem_connectionsAt.mp member).2.symm.trans found
    exact extended.ends
  | added grown member fresh added further =>
    intro index either connection found
    rw [List.map_append] at either
    rcases List.mem_append.mp either with early | here
    · exact (further index early connection found).imp (added.grows _) (added.grows _)
    · cases List.mem_singleton.mp here
      cases (Environment.mem_connectionsAt.mp member).2.symm.trans found
      exact added.ends

theorem supplied (regular : graph.Regular) (known : List.Sublist before (Ledger.ofGraph graph))
    (grown : Grown environment arena graph component before plan after assigned) :
    Supplied graph (assigned.map Prod.fst) plan after := by
  induction grown with
  | argument | scan => exact .nothing _ _
  | seeded untouched member seeded extended =>
    exact extended.supplied regular (Environment.mem_connectionsAt.mp member).2 (seeded.sublist.trans known) (.nothing _ _)
  | added grown member fresh added further =>
    rw [List.map_append]
    exact added.supplied regular (Environment.mem_connectionsAt.mp member).2 (grown.sublist.trans known) further

/-- The plan of a component binds one of its nodes from the beginning. -/
theorem reaches (valid : graph.Valid) (standard : environment.StandardLeaves) (member : component ∈ graph.components)
    (grown : Grown environment arena graph component before plan after assigned) :
    ∃ node ∈ component.nodes, node ∈ plan.available := by
  induction grown with
  | argument touched recorded placed =>
    obtain ⟨node, inside, given⟩ := touched
    exact ⟨node, inside, by rwa [placed.filtered.available, Plan.mem_available_leaf]⟩
  | scan untouched inside alone scanned => exact ⟨_, inside, (scanned.mem_available standard).mpr rfl⟩
  | @seeded index connection seed operator plan middle rest untouched planned seeded extended =>
    obtain ⟨inside, found⟩ := Environment.mem_connectionsAt.mp planned
    obtain ⟨owned, shared⟩ := MatchGraph.component_ends valid member found
    have left := owned.mp inside
    cases seeded with
    | @endpoint node _ _ ends scanned =>
      refine ⟨node, ?_, extended.grows _ ((scanned.mem_available standard).mpr rfl)⟩
      rcases ends with rfl | rfl
      exacts [left, shared.mp left]
    | crossed crosses scannedLeft scannedRight =>
      exact ⟨_, left, extended.grows _ (Plan.mem_available_join.mpr (.inl ((scannedLeft.mem_available standard).mpr rfl)))⟩
  | added grown planned fresh added further =>
    obtain ⟨node, inside, bound⟩ := further
    exact ⟨node, inside, added.grows node bound⟩

end Grown

/-- The finished plan of a component binds its nodes and supplies its connections. -/
structure Component.Planned (graph : MatchGraph) (component : Component) (plan : Plan) (ledger : Ledger) : Prop where
  nodes : ∀ node ∈ component.nodes, node ∈ plan.available
  supplied : Supplied graph component.connections plan ledger

theorem Grown.planned (regular : graph.Regular) (standard : environment.StandardLeaves) {component : Component}
    {assigned : Assignment} (member : component ∈ graph.components) (known : List.Sublist before (Ledger.ofGraph graph))
    (grown : Grown environment arena graph component before plan after assigned)
    (covers : (assigned.map Prod.fst).Perm ((Environment.connectionsAt graph component.connections).map Prod.fst)) :
    component.Planned graph plan after := by
  have covered : ∀ index ∈ component.connections, ∀ connection, graph.connections[index]? = some connection →
      index ∈ assigned.map Prod.fst := by
    intro index inside connection found
    exact covers.symm.subset (List.mem_map_of_mem (Environment.mem_connectionsAt.mpr ⟨inside, found⟩))
  obtain ⟨start, inside, bound⟩ := grown.reaches regular.valid standard member
  constructor
  · intro node also
    refine MatchGraph.component_connected regular.valid member (· ∈ plan.available) ?_ inside also bound
    intro index planned connection found
    obtain ⟨left, right⟩ := grown.ends index (covered index planned connection found) connection found
    exact iff_of_true left right
  · exact fun index planned connection found => grown.supplied regular known index (covered index planned connection found) connection found

/-! The plan of a graph. -/

/-- The plan of a graph binds the nodes and the arguments, and whatever is exposed as far as it is still read. -/
structure Covered (graph : MatchGraph) (plan : Plan) (ledger : Ledger) : Prop where
  nodes : ∀ node ∈ graph.nodeNames, node ∈ plan.available
  arguments : ∀ name ∈ graph.arguments, name ∈ plan.available
  exposed : ∀ connection ∈ graph.connections, ∀ name ∈ connection.exposed, graph.Observed ledger name → name ∈ plan.available

theorem Covered.visible {ledger : Ledger} {name : String} (covered : Covered graph plan ledger) (visible : graph.Visible name)
    (observed : graph.Observed ledger name) : name ∈ plan.available := by
  rcases visible with node | argument | ⟨connection, member, exposes⟩
  exacts [covered.nodes name node, covered.arguments name argument, covered.exposed connection member name exposes observed]

theorem Legs.planned (regular : graph.Regular) (standard : environment.StandardLeaves) {components : List Component}
    {legs : List Leg} (planned : Legs environment arena graph before components legs after)
    (declared : components ⊆ graph.components) (known : List.Sublist before (Ledger.ofGraph graph)) :
    after.Sublist before ∧ ∀ component ∈ components, ∃ leg ∈ legs, component.Planned graph leg.plan after := by
  induction planned with
  | done => exact ⟨.refl _, fun _ impossible => absurd impossible List.not_mem_nil⟩
  | @leg ledger middle rest component components plan assigned legs grown covers others further =>
    obtain ⟨inside, declared⟩ := List.cons_subset.mp declared
    obtain ⟨shrinks, rest⟩ := further declared (grown.sublist.trans known)
    refine ⟨shrinks.trans grown.sublist, List.forall_mem_cons.mpr ⟨⟨_, List.mem_cons_self, ?_⟩, fun other member => ?_⟩⟩
    · have finished := grown.planned regular standard inside known covers
      exact ⟨finished.nodes, finished.supplied.mono (fun _ bound => bound) shrinks.subset⟩
    · obtain ⟨leg, among, finished⟩ := rest other member
      exact ⟨leg, List.mem_cons_of_mem _ among, finished⟩

theorem Legs.of_nil {components : List Component} (planned : Legs environment arena graph before components [] after) :
    components = [] ∧ after = before := by
  cases planned
  exact ⟨rfl, rfl⟩

theorem Combined.grows {root : Plan} {legs : List Leg} (combined : Combined root before legs plan after) :
    (∀ name ∈ root.available, name ∈ plan.available) ∧ ∀ leg ∈ legs, ∀ name ∈ leg.plan.available, name ∈ plan.available := by
  induction combined with
  | done => exact ⟨fun _ bound => bound, fun _ impossible => absurd impossible List.not_mem_nil⟩
  | @product root next plan ledger middle rest leg legs id placed others further =>
    have product : ∀ name, name ∈ root.available ∨ name ∈ leg.plan.available → name ∈ plan.available := by
      intro name bound
      refine further.1 name ?_
      rwa [placed.filtered.available, Plan.mem_available_join]
    exact ⟨fun name bound => product name (.inl bound),
      List.forall_mem_cons.mpr ⟨fun name bound => product name (.inr bound), further.2⟩⟩

theorem Combined.sublist {root : Plan} {legs : List Leg} (combined : Combined root before legs plan after) :
    after.Sublist before := by
  induction combined with
  | done => exact .refl _
  | product placed others further => exact further.trans placed.sublist

theorem Rooted.grows {first root : Plan} (rooted : Rooted arena graph first before root after) :
    (∀ name ∈ first.available, name ∈ root.available) ∧ ∀ name ∈ graph.arguments, name ∈ root.available := by
  cases rooted with
  | covered covered => exact ⟨fun _ bound => bound, covered⟩
  | argument missing recorded placed =>
    simp only [placed.filtered.available, Plan.mem_available_join, Plan.mem_available_leaf, Leaf.binds, NameSet.mem_names]
    exact ⟨fun _ bound => .inr bound, fun _ given => .inl given⟩

theorem Rooted.sublist {first root : Plan} (rooted : Rooted arena graph first before root after) : after.Sublist before := by
  cases rooted with
  | covered => exact .refl _
  | argument missing recorded placed => exact placed.sublist

theorem Combined.covered (regular : graph.Regular) (standard : environment.StandardLeaves) {legs others : List Leg} {first : Leg}
    {root : Plan} {ledger middle : Ledger} (planned : Legs environment arena graph (.ofGraph graph) graph.components legs ledger)
    (sorted : (first :: others).Perm legs) {rootArena : Arena ν} (rooted : Rooted rootArena graph first.plan ledger root middle)
    (combined : Combined root middle others plan after) : Covered graph plan after := by
  obtain ⟨-, finished⟩ := planned.planned regular standard (List.Subset.refl _) (.refl _)
  have raised : ∀ leg ∈ legs, ∀ name ∈ leg.plan.available, name ∈ plan.available := by
    intro leg member name bound
    rcases List.mem_cons.mp (sorted.symm.subset member) with rfl | other
    · exact combined.grows.1 name (rooted.grows.1 name bound)
    · exact combined.grows.2 leg other name bound
  have shrinks : after ⊆ ledger := (combined.sublist.trans rooted.sublist).subset
  refine ⟨fun node declared => ?_, fun name given => ?_, fun connection member name exposes observed => ?_⟩
  · obtain ⟨component, among, inside⟩ := MatchGraph.components_span declared
    obtain ⟨leg, legged, covers⟩ := finished component among
    exact raised leg legged node (covers.nodes node inside)
  · exact combined.grows.1 name (rooted.grows.2 name given)
  · obtain ⟨index, found⟩ := List.mem_iff_getElem?.mp member
    obtain ⟨component, among, left⟩ := MatchGraph.components_span (regular.valid.left_mem found)
    obtain ⟨leg, legged, covers⟩ := finished component among
    have owned := (MatchGraph.component_ends regular.valid among found).1.mpr left
    exact raised leg legged name (covers.supplied index owned connection found name exposes (observed.mono shrinks))

/-- A clause without nodes has no connections either. -/
theorem covered_of_empty (valid : graph.Valid) (empty : graph.components = []) {ledger : Ledger}
    (arguments : ∀ name ∈ graph.arguments, name ∈ plan.available) : Covered graph plan ledger := by
  have nodeless : ∀ node, node ∉ graph.nodeNames := by
    intro node declared
    obtain ⟨component, member, -⟩ := MatchGraph.components_span declared
    rw [empty] at member
    exact absurd member List.not_mem_nil
  exact ⟨fun node declared => absurd declared (nodeless node), arguments,
    fun connection member => absurd (valid.ends connection member).1 (nodeless _)⟩

theorem Composed.covered (regular : graph.Regular) (standard : environment.StandardLeaves) {assigned : Assignment}
    (composed : Composed environment arena graph plan assigned) : Covered graph plan [] := by
  cases composed with
  | argument empty some recorded placed =>
    refine covered_of_empty regular.valid empty fun name given => ?_
    rwa [placed.filtered.available, Plan.mem_available_leaf]
  | combined planned sorted rooted combined => exact combined.covered regular standard planned sorted rooted

variable [Quantity ν]

/-- Whatever is read after a clause and can be seen in it is bound at the root of its plan. -/
theorem Environment.plan_supplies (standard : environment.StandardLeaves)
    (built : ∀ pattern, .quantified pattern ∈ graph.connections → ∃ draft : QuantifiedDraft, draft.build = .ok pattern)
    (once : ∀ pattern, .quantified pattern ∈ graph.connections → pattern.GroupsOnce) {before after : Session ν}
    {query : PlannedQuery ν} (ran : environment.plan graph before = .ok query after) :
    ∀ name ∈ graph.required, graph.Visible name → name ∈ query.root.available := by
  obtain ⟨valid, assigned, composed⟩ := environment.composed_of_plan ran
  have formed : ∀ pattern, .quantified pattern ∈ graph.connections → pattern.WellFormed := by
    intro pattern member
    obtain ⟨draft, accepted⟩ := built pattern member
    exact QuantifiedDraft.build_ok accepted
  have covered := composed.covered ⟨valid, formed, once⟩ standard
  exact fun name required visible => covered.visible visible (.inl required)

end

/-- The clause of parallel loops when something is read of it later. -/
def MatchGraph.observed : MatchGraph := { parallel "g" with required := .ofList ["b", "q", "w"] }

/-- A node, a relationship and a group are bound for those who read them. -/
theorem MatchGraph.observed_supplied : ∃ query after,
    Environment.counting.plan observed (.initial false) = .ok query after ∧ ∀ name ∈ ["b", "q", "w"], name ∈ query.root.available := by
  have returns : Environment.counting.returns observed (fun _ => true) = true := by decide +kernel
  have patterns : ∀ pattern, .quantified pattern ∈ observed.connections →
      pattern = QuantifiedDraft.short.pattern ∨ pattern = (QuantifiedDraft.long "g").pattern := by
    simp [observed, parallel]
  have visible : ∀ name ∈ ["b", "q", "w"], name ∈ observed.required ∧ observed.Visible name := by decide +kernel
  obtain ⟨query, after, ran, -⟩ := Environment.returns_ok returns
  refine ⟨query, after, ran, fun name member => ?_⟩
  refine Environment.plan_supplies Environment.counting_standard ?_ ?_ ran name (visible name member).1 (visible name member).2
  · intro pattern member
    rcases patterns pattern member with rfl | rfl
    exacts [⟨.short, rfl⟩, ⟨.long "g", rfl⟩]
  · intro pattern member
    rcases patterns pattern member with rfl | rfl <;> unfold QuantifiedPattern.GroupsOnce <;> decide

/-- A loop over one relationship that is collected under two names. -/
def QuantifiedDraft.twice : QuantifiedDraft where
  left := ⟨"a", "n"⟩
  right := ⟨"b", "m"⟩
  relationships := [⟨"r", "n", "m", .outgoing, [], .simple⟩]
  repetition := .oneOrMore
  nodeGroupings := []
  relationshipGroupings := [⟨"r", "g"⟩, ⟨"r", "h"⟩]
  selections := []
  groupByName := false

/-- A clause whose second name for a group is read later. -/
def MatchGraph.regrouped : MatchGraph where
  nodes := [⟨"a", []⟩, ⟨"b", []⟩]
  connections := [.quantified QuantifiedDraft.twice.pattern]
  selections := []
  arguments := ∅
  required := .ofList ["h"]
  distinctEndpoints := false

/-- The single expansion such a loop collapses to binds the first name only. -/
theorem MatchGraph.regrouped_unsupplied : Environment.counting.StandardLeaves ∧ regrouped.validate = .ok () ∧
    (∀ pattern, .quantified pattern ∈ regrouped.connections → ∃ draft : QuantifiedDraft, draft.build = .ok pattern) ∧
    ∃ query after, Environment.counting.plan regrouped (.initial false) = .ok query after ∧
      "h" ∈ regrouped.required ∧ regrouped.Visible "h" ∧ "h" ∉ query.root.available := by
  have returns : Environment.counting.returns regrouped (fun query => decide ("h" ∉ query.root.available)) = true := by decide +kernel
  have asked : "h" ∈ regrouped.required ∧ regrouped.Visible "h" := by decide +kernel
  obtain ⟨query, after, ran, unbound⟩ := Environment.returns_ok returns
  refine ⟨Environment.counting_standard, rfl, ?_, query, after, ran, asked.1, asked.2, of_decide_eq_true unbound⟩
  intro pattern member
  have same : pattern = QuantifiedDraft.twice.pattern := by simpa [regrouped] using member
  exact ⟨.twice, same ▸ rfl⟩

end MatchPlanner
