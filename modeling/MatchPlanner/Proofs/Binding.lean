import MatchPlanner.Proofs.Introductions

/-! Every variable of a plan is bound once, the inner plans of loops left aside. An operator binds nothing that its input binds, and
two inputs have in common what they are joined on, or arguments when they are not joined on anything. -/

namespace MatchPlanner

namespace Plan

/-- What the root of a plan binds is new, and its inputs share no more than they may. -/
def BindsApart (arguments : NameSet) : Plan → Prop
  | .leaf _ _ => True
  | .step _ operator input => operator.introduces.Nodup ∧ ∀ name ∈ operator.introduces, name ∉ input.available
  | .trail _ parameters input _ =>
    (parameters.finish :: parameters.groups).Nodup ∧ ∀ name ∈ parameters.finish :: parameters.groups, name ∉ input.available
  | .join _ .cartesianProduct left right => ∀ name ∈ left.available, name ∈ right.available → name ∈ arguments
  | .join _ (.nodeHashJoin nodes) left right => ∀ name, name ∈ nodes ↔ name ∈ left.available ∧ name ∈ right.available

/-- A part of a plan is sound as soon as its loops end in different fresh variables; no other reserved name is available. -/
structure Separate (arguments : NameSet) (plan : Plan) : Prop where
  outer : ∀ node ∈ plan.outer, node.freshEnds.Nodup → node.BindsApart arguments
  ends : ∀ name ∈ plan.available, isReserved name = true → name ∈ plan.freshEnds

/-- Two plans have no variable in common but arguments and names kept for the ends of loops. -/
def Apart (arguments : NameSet) (left right : Plan) : Prop :=
  ∀ name ∈ left.available, name ∈ right.available → name ∈ arguments ∨ isReserved name = true

variable {arguments : NameSet} {input operator left right plan : Plan}

theorem Apart.symm (apart : left.Apart arguments right) : right.Apart arguments left :=
  fun name former latter => apart name latter former

theorem Beneath.bindsApart (beneath : input.Beneath operator) (distinct : operator.introduces.Nodup)
    (new : ∀ name ∈ operator.introduces, name ∉ input.available) : operator.BindsApart arguments := by
  cases beneath <;> exact ⟨distinct, new⟩

/-- The fresh ends below a node are among those of the plan. -/
theorem freshEnds_sublist {node : Plan} (member : node ∈ plan.outer) : node.freshEnds.Sublist plan.freshEnds := by
  induction plan with
  | leaf => rw [List.mem_singleton.mp member]
  | step id operator input further =>
    rcases List.mem_cons.mp member with rfl | below
    exacts [.refl _, further below]
  | trail id parameters input inner further =>
    rcases List.mem_cons.mp member with rfl | below
    · exact .refl _
    · exact (further below).trans (List.Sublist.filter _ (List.sublist_cons_self _ _))
  | join id operator left right former latter =>
    rw [freshEnds_join]
    rcases List.mem_cons.mp member with rfl | below
    · rw [freshEnds_join]
    · rcases List.mem_append.mp below with first | second
      exacts [(former first).trans (List.sublist_append_left _ _), (latter second).trans (List.sublist_append_right _ _)]

namespace Separate

theorem leaf {operator : Leaf} (plain : ∀ name ∈ operator.binds, isReserved name = false) (id : PlanId) :
    (Plan.leaf id operator).Separate arguments where
  outer node member _ := by
    rw [List.mem_singleton.mp member]
    trivial
  ends name bound reserved := absurd ((plain name (mem_available_leaf.mp bound)).symm.trans reserved) Bool.false_ne_true

theorem filtered {predicates : List Expression} (separate : input.Separate arguments) (filtered : Filtered input predicates plan) :
    plan.Separate arguments where
  outer node member distinct := by
    cases filtered with
    | untouched => exact separate.outer node member distinct
    | filter =>
      rcases List.mem_cons.mp member with rfl | below
      · exact ⟨List.nodup_nil, fun _ impossible => absurd impossible List.not_mem_nil⟩
      · exact separate.outer node below distinct
  ends name bound reserved := by
    rw [filtered.freshEnds]
    exact separate.ends name (filtered.available ▸ bound) reserved

/-- An operator that brings a connection whose own variables are not bound yet. -/
theorem introduce {connection : Connection} (separate : input.Separate arguments) (introduces : input.Introduces connection operator)
    (plain : connection.Plain) (proper : connection.Proper) (free : ∀ name ∈ connection.exposed, name ∉ input.available) :
    operator.Separate arguments where
  outer node member distinct := by
    rw [introduces.beneath.outer] at member
    rcases List.mem_cons.mp member with rfl | below
    · refine introduces.beneath.bindsApart (introduces.distinct proper) fun name new bound => ?_
      rcases introduces.introduces name new with exposed | ⟨unbound, -⟩ | ⟨reserved, ends⟩
      · exact free name exposed bound
      · exact unbound bound
      · rw [ends] at distinct
        exact (List.nodup_cons.mp distinct).1 (separate.ends name bound reserved)
    · exact separate.outer node below distinct
  ends name bound reserved := by
    rcases introduces.available name bound with below | new
    · exact introduces.beneath.freshEnds_subset (separate.ends name below reserved)
    · rcases introduces.introduces name new with exposed | ⟨-, rfl | rfl⟩ | ⟨-, ends⟩
      · exact absurd ((proper.apart name exposed).2.2.symm.trans reserved) Bool.false_ne_true
      · exact absurd (plain.1.symm.trans reserved) Bool.false_ne_true
      · exact absurd (plain.2.symm.trans reserved) Bool.false_ne_true
      · exact ends ▸ List.mem_cons_self

theorem join {id : PlanId} {operator : Join} (former : left.Separate arguments) (latter : right.Separate arguments)
    (apart : (left.freshEnds ++ right.freshEnds).Nodup → (Plan.join id operator left right).BindsApart arguments) :
    (Plan.join id operator left right).Separate arguments where
  outer node member distinct := by
    rcases List.mem_cons.mp member with rfl | below
    · exact apart (freshEnds_join .. ▸ distinct)
    · rcases List.mem_append.mp below with first | second
      exacts [former.outer node first distinct, latter.outer node second distinct]
  ends name bound reserved := by
    rw [freshEnds_join, List.mem_append]
    exact (mem_available_join.mp bound).imp (former.ends name · reserved) (latter.ends name · reserved)

/-- Plans of different components can be multiplied: their loops end in different variables. -/
theorem product (former : left.Separate arguments) (latter : right.Separate arguments) (apart : left.Apart arguments right)
    (id : PlanId) : (Plan.join id .cartesianProduct left right).Separate arguments := by
  refine former.join latter fun distinct name first second => ?_
  refine (apart name first second).resolve_right fun reserved => ?_
  exact (List.nodup_append.mp distinct).2.2 name (former.ends name first reserved) name (latter.ends name second reserved) rfl

end Separate

end Plan

/-- A valid graph whose names are not kept for the ends of loops and whose connections expose no argument. -/
structure MatchGraph.Distinguished (graph : MatchGraph) : Prop where
  valid : graph.Valid
  plain : ∀ name, graph.Visible name → isReserved name = false
  apart : ∀ connection ∈ graph.connections, ∀ name ∈ connection.exposed, name ∉ graph.arguments

section

variable {ν : Type} {environment : Environment ν} {arena : Arena ν} {graph : MatchGraph} {before after : Ledger} {plan : Plan}

namespace MatchGraph.Distinguished

variable {index : Nat} {connection : Connection}

theorem node (distinguished : graph.Distinguished) {name : String} (declared : name ∈ graph.nodeNames) : isReserved name = false :=
  distinguished.plain name (.inl declared)

theorem ends (distinguished : graph.Distinguished) (found : graph.connections[index]? = some connection) : connection.Plain :=
  ⟨distinguished.node (distinguished.valid.left_mem found), distinguished.node (distinguished.valid.right_mem found)⟩

theorem proper (distinguished : graph.Distinguished) (found : graph.connections[index]? = some connection) : connection.Proper where
  exposed := (List.nodup_flatMap.mp distinguished.valid.exposed).1 connection (List.mem_of_getElem? found)
  apart name exposes := by
    have different := MatchGraph.exposed_not_node distinguished.valid found exposes
    have visible : graph.Visible name := .inr (.inr ⟨connection, List.mem_of_getElem? found, exposes⟩)
    refine ⟨fun same => ?_, fun same => ?_, distinguished.plain name visible⟩
    exacts [different (same ▸ distinguished.valid.left_mem found), different (same ▸ distinguished.valid.right_mem found)]

end MatchGraph.Distinguished

theorem Scanned.separate (distinguished : graph.Distinguished) {node : String} (declared : node ∈ graph.nodeNames)
    (standard : environment.StandardLeaves) (scanned : Scanned environment arena node before plan after) :
    plan.Separate graph.arguments := by
  cases scanned with
  | @scanned call leaves leaf id offered chosen recorded placed =>
    have sound := LeafCandidate.sound_of_standard (standard _ _ _ _ offered _ chosen)
    refine .filtered (.leaf (fun name binds => ?_) id) placed.filtered
    rw [sound.binds] at binds
    exact List.mem_singleton.mp binds ▸ distinguished.node declared

namespace Seeded

variable {index : Nat} {connection : Connection} {seed : Plan}

theorem separate (distinguished : graph.Distinguished) (standard : environment.StandardLeaves)
    (found : graph.connections[index]? = some connection) (seeded : Seeded environment arena connection before seed after) :
    seed.Separate graph.arguments := by
  have left := distinguished.valid.left_mem found
  have right := distinguished.valid.right_mem found
  cases seeded with
  | endpoint ends scanned => exact scanned.separate distinguished (distinguished.valid.end_mem found ends) standard
  | crossed crosses scannedLeft scannedRight =>
    refine .product (scannedLeft.separate distinguished left standard) (scannedRight.separate distinguished right standard) ?_ _
    intro name former latter
    rw [scannedLeft.mem_available standard] at former
    rw [scannedRight.mem_available standard] at latter
    simp only [Environment.crosses, Bool.and_eq_true, bne_iff_ne] at crosses
    exact absurd (former.symm.trans latter) crosses.2

theorem touches (standard : environment.StandardLeaves) (seeded : Seeded environment arena connection before seed after) :
    connection.left ∈ seed.available ∨ connection.right ∈ seed.available := by
  cases seeded with
  | endpoint ends scanned =>
    rw [scanned.mem_available standard, scanned.mem_available standard]
    exact ends.imp Eq.symm Eq.symm
  | crossed crosses scannedLeft scannedRight =>
    exact .inl (Plan.mem_available_join.mpr (.inl ((scannedLeft.mem_available standard).mpr rfl)))

end Seeded

theorem Extended.separate (distinguished : graph.Distinguished) {index : Nat} {connection : Connection} {input operator : Plan}
    (found : graph.connections[index]? = some connection)
    (touches : connection.left ∈ input.available ∨ connection.right ∈ input.available)
    (free : ∀ name ∈ connection.exposed, name ∉ input.available) (separate : input.Separate graph.arguments)
    (extended : Extended environment arena graph index input before connection operator plan after) :
    plan.Separate graph.arguments := by
  obtain ⟨introduces, middle, _, _, former, latter⟩ := extended.introduces touches
  have operator := separate.introduce introduces (distinguished.ends found) (distinguished.proper found) free
  exact (operator.filtered former).filtered latter

/-- A relationship that is joined is planned from its far endpoint, so both sides bind the near one and nothing else. -/
theorem Added.separate (distinguished : graph.Distinguished) (standard : environment.StandardLeaves) {index : Nat}
    {connection : Connection} {input operator : Plan} (found : graph.connections[index]? = some connection)
    (free : ∀ name ∈ connection.exposed, name ∉ input.available) (separate : input.Separate graph.arguments)
    (added : Added environment arena graph index input before connection operator plan after) : plan.Separate graph.arguments := by
  cases added with
  | extended touches extended => exact extended.separate distinguished found touches free separate
  | @joined relationship near far leaf _ middle _ id joinId simple oriented nearBound farFree scanned selective placed =>
    have declared := distinguished.valid.end_mem found (PatternRelationship.far_end oriented)
    have scans : ∀ name, name ∈ leaf.available ↔ name = far := fun name => scanned.mem_available standard
    have different : near ∉ leaf.available := fun bound => farFree ((scans near).mp bound ▸ nearBound)
    have reaches : (Step.expand (relationship.hop far near) relationship.name .all).Reaches (relationship.hop far near)
        relationship.name leaf.available := by
      refine .binding ((scans far).mpr rfl) rfl ?_
      change _ = _ :: Hop.introduces _ (if near ∈ leaf.available then .into else .all)
      rw [if_neg different]
      rfl
    have introduces : leaf.Introduces (.relationship relationship)
        (.step id (.expand (relationship.hop far near) relationship.name .all) leaf) := by
      refine reaches.above (List.mem_singleton_self _) ?_ id
      exact (PatternRelationship.ends_of_orientation oriented).imp And.left And.left
    have side : (Plan.step id (.expand (relationship.hop far near) relationship.name .all) leaf).Separate graph.arguments := by
      refine (scanned.separate distinguished declared standard).introduce introduces (distinguished.ends found)
        (distinguished.proper found) fun name exposes bound => ?_
      exact MatchGraph.exposed_not_node distinguished.valid found exposes ((scans name).mp bound ▸ declared)
    refine .filtered (separate.join side ?_) placed.filtered
    intro _ name
    rw [List.mem_singleton]
    constructor
    · rintro rfl
      exact ⟨nearBound, Plan.mem_available_step.mpr (.inr (by simp [Step.binds, PatternRelationship.hop]))⟩
    · rintro ⟨bound, also⟩
      rcases introduces.available name also with below | new
      · exact absurd ((scans name).mp below ▸ bound) farFree
      · rcases reaches.introduces name new with rfl | ⟨same, -⟩
        exacts [absurd bound (free _ (List.mem_singleton_self _)), same]

namespace Grown

variable {component : Component} {assigned : Assignment}

/-- A variable of a connection is free until the connection is planned. -/
theorem free (distinguished : graph.Distinguished) (standard : environment.StandardLeaves) (member : component ∈ graph.components)
    (grown : Grown environment arena graph component before plan after assigned) {index : Nat} {connection : Connection}
    (found : graph.connections[index]? = some connection) (fresh : index ∉ assigned.map Prod.fst) :
    ∀ name ∈ connection.exposed, name ∉ plan.available := by
  intro name exposes bound
  rcases grown.binds distinguished.valid standard member name bound with node | ⟨-, argument⟩ | reserved |
    ⟨other, among, _, also, again⟩
  · exact MatchGraph.exposed_not_node distinguished.valid found exposes (graph.components_nodes member node)
  · exact distinguished.apart connection (List.mem_of_getElem? found) name exposes argument
  · exact Bool.false_ne_true (((distinguished.proper found).apart name exposes).2.2.symm.trans reserved)
  · exact fresh (MatchGraph.exposed_once distinguished.valid also found again exposes ▸ among)

theorem separate (distinguished : graph.Distinguished) (standard : environment.StandardLeaves)
    (member : component ∈ graph.components)
    (grown : Grown environment arena graph component before plan after assigned) : plan.Separate graph.arguments := by
  induction grown with
  | argument touched recorded placed =>
    refine .filtered (.leaf ?_ _) placed.filtered
    exact fun name given => distinguished.plain name (.inr (.inl given))
  | scan untouched inside alone scanned =>
    exact scanned.separate distinguished (graph.components_nodes member inside) standard
  | seeded untouched planned seeded extended =>
    have found := (Environment.mem_connectionsAt.mp planned).2
    refine extended.separate distinguished found (seeded.touches standard) (fun name exposes bound => ?_)
      (seeded.separate distinguished standard found)
    obtain ⟨left, right, -⟩ := (distinguished.proper found).apart name exposes
    exact (seeded.bound standard bound).elim left right
  | added grown planned fresh added further =>
    have found := (Environment.mem_connectionsAt.mp planned).2
    exact added.separate distinguished standard found (grown.free distinguished standard member found fresh) further

end Grown

/-! The components of a graph. -/

/-- Two components have nothing in common but the arguments. -/
theorem Component.Binds.apart (valid : graph.Valid) {first second : Component} (former : first ∈ graph.components)
    (latter : second ∈ graph.components) (disjoint : ∀ name ∈ first.nodes, name ∉ second.nodes) {name : String}
    (binds : first.Binds graph first.connections name) (also : second.Binds graph second.connections name) :
    name ∈ graph.arguments ∨ isReserved name = true := by
  have outside : ∀ {component : Component}, component ∈ graph.components → ∀ (index : Nat) (connection : Connection),
      graph.connections[index]? = some connection → name ∈ connection.exposed → name ∉ component.nodes :=
    fun member index connection found exposes node =>
      MatchGraph.exposed_not_node valid found exposes (graph.components_nodes member node)
  rcases binds with node | ⟨-, argument⟩ | reserved | ⟨index, owned, connection, found, exposes⟩
  · rcases also with again | ⟨-, argument⟩ | reserved | ⟨index, -, connection, found, exposes⟩
    exacts [absurd again (disjoint name node), .inl argument, .inr reserved, absurd node (outside former _ _ found exposes)]
  · exact .inl argument
  · exact .inr reserved
  · rcases also with node | ⟨-, argument⟩ | reserved | ⟨other, possessed, _, again, twice⟩
    · exact absurd node (outside latter _ _ found exposes)
    · exact .inl argument
    · exact .inr reserved
    · cases MatchGraph.exposed_once valid found again exposes twice
      have here := (MatchGraph.component_ends valid former found).1.mp owned
      exact absurd ((MatchGraph.component_ends valid latter found).1.mp possessed) (disjoint _ here)

theorem Legs.grown {components : List Component} {legs : List Leg}
    (planned : Legs environment arena graph before components legs after) :
    ∀ leg ∈ legs, ∃ component ∈ components, ∃ start rest,
      Grown environment arena graph component start leg.plan rest leg.assigned := by
  induction planned with
  | done => exact fun _ impossible => absurd impossible List.not_mem_nil
  | leg grown covers others further =>
    refine List.forall_mem_cons.mpr ⟨⟨_, List.mem_cons_self, _, _, grown⟩, fun leg member => ?_⟩
    obtain ⟨component, among, grown⟩ := further leg member
    exact ⟨component, List.mem_cons_of_mem _ among, grown⟩

theorem Grown.within (valid : graph.Valid) (standard : environment.StandardLeaves) {component : Component} {assigned : Assignment}
    (member : component ∈ graph.components) (grown : Grown environment arena graph component before plan after assigned) :
    ∀ name ∈ plan.available, component.Binds graph component.connections name := by
  refine fun name bound => (grown.binds valid standard member name bound).mono fun index among => ?_
  obtain ⟨entry, assigned, rfl⟩ := List.mem_map.mp among
  obtain ⟨connection, planned⟩ := grown.known entry assigned
  exact (Environment.mem_connectionsAt.mp planned).1

theorem Legs.apart (valid : graph.Valid) (standard : environment.StandardLeaves) {components : List Component} {legs : List Leg}
    (planned : Legs environment arena graph before components legs after) (declared : components ⊆ graph.components)
    (disjoint : components.Pairwise fun first second => ∀ name ∈ first.nodes, name ∉ second.nodes) :
    legs.Pairwise fun first second => first.plan.Apart graph.arguments second.plan := by
  induction planned with
  | done => exact .nil
  | leg grown covers others further =>
    obtain ⟨member, declared⟩ := List.cons_subset.mp declared
    obtain ⟨alone, disjoint⟩ := List.pairwise_cons.mp disjoint
    refine .cons (fun leg among name former latter => ?_) (further declared disjoint)
    obtain ⟨component, other, _, _, also⟩ := others.grown leg among
    exact (grown.within valid standard member name former).apart valid member (declared other) (alone component other)
      (also.within valid standard (declared other) name latter)

theorem Legs.separate (distinguished : graph.Distinguished) (standard : environment.StandardLeaves) {components : List Component}
    {legs : List Leg} (planned : Legs environment arena graph before components legs after)
    (declared : components ⊆ graph.components) : ∀ leg ∈ legs, leg.plan.Separate graph.arguments := by
  intro leg member
  obtain ⟨component, among, _, _, grown⟩ := planned.grown leg member
  exact grown.separate distinguished standard (declared among)

theorem Combined.separate {root : Plan} {legs : List Leg} (combined : Combined root before legs plan after)
    (separate : root.Separate graph.arguments) (others : ∀ leg ∈ legs, leg.plan.Separate graph.arguments)
    (beside : ∀ leg ∈ legs, root.Apart graph.arguments leg.plan)
    (apart : legs.Pairwise fun first second => first.plan.Apart graph.arguments second.plan) : plan.Separate graph.arguments := by
  induction combined with
  | done => exact separate
  | product placed rest further =>
    obtain ⟨first, others⟩ := List.forall_mem_cons.mp others
    obtain ⟨next, beside⟩ := List.forall_mem_cons.mp beside
    obtain ⟨alone, apart⟩ := List.pairwise_cons.mp apart
    refine further (.filtered (separate.product first next _) placed.filtered) others (fun leg member name former latter => ?_) apart
    rw [placed.filtered.available, Plan.mem_available_join] at former
    exact former.elim (beside leg member name · latter) (alone leg member name · latter)

/-- The arguments stand in for whatever the first leg does not bind. -/
theorem Rooted.separate (distinguished : graph.Distinguished) {first root : Plan} (separate : first.Separate graph.arguments)
    (rooted : Rooted arena graph first before root after) :
    root.Separate graph.arguments ∧ ∀ other, first.Apart graph.arguments other → root.Apart graph.arguments other := by
  cases rooted with
  | covered => exact ⟨separate, fun _ apart => apart⟩
  | argument missing recorded placed =>
    refine ⟨.filtered (.product (.leaf ?_ _) separate (fun name given _ => .inl ?_) _) placed.filtered, ?_⟩
    · exact fun name given => distinguished.plain name (.inr (.inl given))
    · exact Plan.mem_available_leaf.mp given
    · intro other apart name bound also
      rw [placed.filtered.available, Plan.mem_available_join] at bound
      exact bound.elim (fun given => .inl (Plan.mem_available_leaf.mp given)) (apart name · also)

theorem Composed.separate (distinguished : graph.Distinguished) (standard : environment.StandardLeaves) {assigned : Assignment}
    (composed : Composed environment arena graph plan assigned) : plan.Separate graph.arguments := by
  cases composed with
  | argument empty some recorded placed =>
    refine .filtered (.leaf ?_ _) placed.filtered
    exact fun name given => distinguished.plain name (.inr (.inl given))
  | combined planned sorted rooted combined =>
    have each := planned.separate distinguished standard (List.Subset.refl _)
    have apart := (sorted.pairwise_iff Plan.Apart.symm).mpr (planned.apart distinguished.valid standard (List.Subset.refl _)
      (MatchGraph.components_disjoint distinguished.valid))
    obtain ⟨alone, apart⟩ := List.pairwise_cons.mp apart
    obtain ⟨separate, keeps⟩ := rooted.separate distinguished (each _ (sorted.subset List.mem_cons_self))
    exact combined.separate separate (fun leg member => each leg (sorted.subset (List.mem_cons_of_mem _ member)))
      (fun leg member => keeps _ (alone leg member)) apart

theorem Composed.carries {assigned : Assignment} (composed : Composed environment arena graph plan assigned) :
    ∀ name ∈ graph.arguments, name ∈ plan.available := by
  intro name given
  cases composed with
  | argument empty some recorded placed => rwa [placed.filtered.available, Plan.mem_available_leaf]
  | combined planned sorted rooted combined => exact combined.grows.1 name (rooted.grows.2 name given)

end

/-! The whole plan. -/

/-- Outside the inner plans of loops every variable is bound once. -/
structure PlannedQuery.BindsOnce {ν : Type} (query : PlannedQuery ν) (graph : MatchGraph) : Prop where
  outer : ∀ node ∈ query.root.outer, node.BindsApart graph.arguments
  ends : query.root.freshEnds.Nodup
  arguments : ∀ name ∈ graph.arguments, name ∈ query.root.available

/-- When no variable of a clause has a name kept for the ends of loops and no argument is bound again by a connection, every
variable of a plan is bound once and every join is on exactly what its sides share. -/
theorem Environment.plan_bindsOnce {ν : Type} [Quantity ν] {environment : Environment ν} {graph : MatchGraph}
    (standard : environment.StandardLeaves) (plain : ∀ name, graph.Visible name → isReserved name = false)
    (apart : ∀ connection ∈ graph.connections, ∀ name ∈ connection.exposed, name ∉ graph.arguments)
    {before after : Session ν} {query : PlannedQuery ν} (ran : environment.plan graph before = .ok query after) :
    query.BindsOnce graph := by
  obtain ⟨valid, assigned, composed⟩ := environment.composed_of_plan ran
  have ends : query.root.freshEnds.Nodup := by
    refine Environment.freshEnds_nodup (fun connection member => ?_) ran
    obtain ⟨left, right⟩ := valid.ends connection member
    exact ⟨plain _ (.inl left), plain _ (.inl right)⟩
  refine ⟨fun node member => ?_, ends, composed.carries⟩
  exact (composed.separate ⟨valid, plain, apart⟩ standard).outer node member ((Plan.freshEnds_sublist member).nodup ends)

namespace MatchGraph

/-- Parallel loops that start from an argument; the other argument is none of their nodes. -/
def carried : MatchGraph := { parallel "g" with arguments := .ofList ["a", "z"] }

/-- Both loops end in fresh variables, since the relationship beside them is planned first. -/
theorem carried_bound_once : ∃ query after, Environment.counting.plan carried (.initial false) = .ok query after ∧
    query.root.freshEnds.length = 2 ∧ query.BindsOnce carried := by
  have returns : Environment.counting.returns carried (fun query => query.root.freshEnds.length == 2) = true := by decide +kernel
  obtain ⟨query, after, ran, looped⟩ := Environment.returns_ok returns
  have plain : ∀ name ∈ carried.nodeNames ++ (carried.arguments.names ++ carried.connections.flatMap Connection.exposed),
      isReserved name = false := by decide +kernel
  have apart : ∀ name ∈ carried.connections.flatMap Connection.exposed, name ∉ carried.arguments := by decide +kernel
  refine ⟨query, after, ran, beq_iff_eq.mp looped, Environment.plan_bindsOnce Environment.counting_standard
    (fun name visible => plain name ?_) (fun connection member name exposes => ?_) ran⟩
  · exact List.mem_append.mpr (visible.imp_right fun others => List.mem_append.mpr (others.imp_right List.mem_flatMap.mpr))
  · exact apart name (List.mem_flatMap.mpr ⟨connection, member, exposes⟩)

end MatchGraph

end MatchPlanner
