import MatchPlanner.Proofs.Supply

/-! What stays open of a clause in the end. Only what reads a variable that nothing in the clause binds is never placed, and it is
never lost either: of the entries of the ledger exactly these remain. -/

namespace MatchPlanner

namespace MatchGraph

/-- A predicate that reads visible variables only. -/
def Sees (graph : MatchGraph) (predicate : Expression) : Prop := ∀ name ∈ predicate.dependencies, graph.Visible name

instance (graph : MatchGraph) (predicate : Expression) : Decidable (graph.Sees predicate) :=
  inferInstanceAs (Decidable (∀ name ∈ predicate.dependencies, graph.Visible name))

/-- A predicate that reads a variable which is neither visible nor kept for the ends of loops. -/
def Strays (graph : MatchGraph) (predicate : Expression) : Prop :=
  ∃ name ∈ predicate.dependencies, ¬ graph.Visible name ∧ isReserved name = false

/-- A predicate whose names are visible or at least not kept for the ends of loops. -/
def Plain (graph : MatchGraph) (predicate : Expression) : Prop :=
  ∀ name ∈ predicate.dependencies, graph.Visible name ∨ isReserved name = false

instance (graph : MatchGraph) (predicate : Expression) : Decidable (graph.Plain predicate) :=
  inferInstanceAs (Decidable (∀ name ∈ predicate.dependencies, graph.Visible name ∨ isReserved name = false))

variable {graph : MatchGraph}

theorem Sees.plain {predicate : Expression} (sees : graph.Sees predicate) : graph.Plain predicate :=
  fun name reads => .inl (sees name reads)

theorem Sees.not_strays {predicate : Expression} (sees : graph.Sees predicate) : ¬ graph.Strays predicate :=
  fun ⟨name, reads, hidden, _⟩ => hidden (sees name reads)

theorem strays_iff {predicate : Expression} (plain : graph.Plain predicate) :
    graph.Strays predicate ↔ ¬ graph.Sees predicate := by
  constructor
  · exact fun strays sees => sees.not_strays strays
  · intro blind
    obtain ⟨name, reads, hidden⟩ : ∃ name ∈ predicate.dependencies, ¬ graph.Visible name := by
      simpa only [Sees, not_forall, exists_prop] using blind
    exact ⟨name, reads, hidden, (plain name reads).resolve_left hidden⟩

theorem sees_labelAtom {atom : Expression} (member : atom ∈ graph.labelAtoms) : graph.Sees atom := by
  obtain ⟨node, declared, labelled⟩ := List.mem_flatMap.mp member
  obtain ⟨label, -, rfl⟩ := List.mem_map.mp labelled
  intro name reads
  rw [Expression.dependencies, NameSet.mem_ofList, List.mem_singleton] at reads
  exact .inl (reads ▸ List.mem_map_of_mem declared)

theorem sees_producer {producer : RelationshipProducer} (known : producer ∈ graph.producers) : graph.Visible producer.name := by
  obtain ⟨connection, found, produces⟩ := mem_producers.mp known
  exact .inr (.inr ⟨connection, List.mem_of_getElem? found, exposed_of_producer produces⟩)

theorem sees_check {obligation : UniquenessObligation} (member : obligation ∈ graph.obligations) :
    graph.Sees obligation.predicate := by
  obtain ⟨-, first, second, -⟩ := UniquenessObligation.mem_ofProducers member
  intro name reads
  rw [UniquenessObligation.predicate_of_mem member, RelationshipProducer.mem_dependencies_distinctness] at reads
  rcases reads with rfl | rfl
  exacts [sees_producer first, sees_producer second]

end MatchGraph

/-- The plan binds visible variables and ends of loops. -/
def Plan.Inside (graph : MatchGraph) (plan : Plan) : Prop := ∀ name ∈ plan.available, graph.Visible name ∨ isReserved name = true

/-- One more connection is bound above a plan that stays inside the clause. -/
theorem Plan.Inside.add {graph : MatchGraph} {input plan : Plan} {index : Nat} {connection : Connection} (inside : input.Inside graph)
    (valid : graph.Valid) (found : graph.connections[index]? = some connection)
    (bound : ∀ name ∈ plan.available, name ∈ input.available ∨ name = connection.left ∨ name = connection.right ∨
      isReserved name = true ∨ name ∈ connection.exposed) : plan.Inside graph := by
  intro name member
  rcases bound name member with early | rfl | rfl | reserved | exposes
  · exact inside name early
  · exact .inl (.inl (valid.left_mem found))
  · exact .inl (.inl (valid.right_mem found))
  · exact .inr reserved
  · exact .inl (.inr (.inr ⟨connection, List.mem_of_getElem? found, exposes⟩))

/-- What strays is not taken out. -/
def Ledger.Keeps (graph : MatchGraph) (before after : Ledger) : Prop :=
  ∀ entry ∈ before, graph.Strays entry.predicate → entry ∈ after

/-- Whatever could be placed has been placed. -/
def Ledger.Settled (ledger : Ledger) (bound : NameSet) : Prop := ∀ entry ∈ ledger, entry.isReady bound = false

theorem Ledger.Keeps.trans {graph : MatchGraph} {before middle after : Ledger} (former : Ledger.Keeps graph before middle)
    (latter : Ledger.Keeps graph middle after) : Ledger.Keeps graph before after :=
  fun entry member strays => latter entry (former entry member strays) strays

/-- Solving takes out only what reads the same as a predicate solved. -/
theorem Ledger.keeps_solve {graph : MatchGraph} {ledger : Ledger} {solved : List Expression}
    (inside : ∀ predicate ∈ solved, ∀ name ∈ predicate.dependencies, graph.Visible name ∨ isReserved name = true) :
    Ledger.Keeps graph ledger (ledger.solve solved) := by
  rintro entry member ⟨name, reads, hidden, plain⟩
  have present : entry ∈ (ledger : Multiset LedgerEntry) := member
  rw [ledger.solve_split solved, Multiset.mem_add] at present
  refine present.resolve_right fun taken => ?_
  obtain ⟨predicate, among, same⟩ := Ledger.same_of_mem_taken taken
  rw [Expression.dependencies_of_same same] at reads
  rcases inside predicate among name reads with visible | reserved
  · exact hidden visible
  · exact Bool.false_ne_true (plain.symm.trans reserved)

namespace Placed

variable {graph : MatchGraph} {input plan : Plan} {before after : Ledger}

theorem keeps (placed : Placed input before plan after) (inside : input.Inside graph) : Ledger.Keeps graph before after := by
  rintro entry member ⟨name, reads, hidden, plain⟩
  rw [placed.waiting]
  refine List.mem_filter.mpr ⟨member, ?_⟩
  rw [Bool.not_eq_true']
  refine Bool.eq_false_iff.mpr fun ready => ?_
  rcases inside name (NameSet.within_iff.mp ready name reads) with visible | reserved
  · exact hidden visible
  · exact Bool.false_ne_true (plain.symm.trans reserved)

theorem settled (placed : Placed input before plan after) : Ledger.Settled after plan.available := by
  intro entry member
  rw [placed.waiting] at member
  rw [placed.filtered.available]
  exact (Bool.not_eq_true' _).mp (List.mem_filter.mp member).2

end Placed

section

variable {ν : Type} {environment : Environment ν} {arena : Arena ν} {graph : MatchGraph} {before after : Ledger} {plan : Plan}

namespace Scanned

variable {node : String}

theorem keeps (standard : environment.StandardLeaves) (declared : node ∈ graph.nodeNames)
    (scanned : Scanned environment arena node before plan after) : Ledger.Keeps graph before after := by
  cases scanned with
  | @scanned call leaves leaf id offered chosen recorded placed =>
    have sound := LeafCandidate.sound_of_standard (standard _ _ _ _ offered leaf chosen)
    refine (Ledger.keeps_solve fun predicate solved name reads => ?_).trans (placed.keeps fun name bound => ?_)
    · exact .inl (.inl (sound.reads predicate solved name reads ▸ declared))
    · rw [Plan.mem_available_leaf, sound.binds, List.mem_singleton] at bound
      exact .inl (.inl (bound ▸ declared))

theorem settled (scanned : Scanned environment arena node before plan after) : Ledger.Settled after plan.available := by
  cases scanned with
  | scanned offered chosen recorded placed => exact placed.settled

end Scanned

theorem QuantifiedSite.keeps_remaining {index : Nat} {pattern : QuantifiedPattern} {input : Plan} {discharged : Bool}
    (found : graph.connections[index]? = some (.quantified pattern)) (known : List.Sublist before (Ledger.ofGraph graph))
    (inside : input.Inside graph) : Ledger.Keeps graph before ((pattern.site graph index input.available before).remaining before
      ((pattern.site graph index input.available before).request.sorted input).solved discharged) := by
  have solved : Ledger.Keeps graph before
      (before.solve ((pattern.site graph index input.available before).request.sorted input).solved) := by
    apply Ledger.keeps_solve
    intro predicate member name reads
    obtain ⟨extracted, among, rfl⟩ := List.mem_map.mp member
    have taken := Option.isSome_iff_exists.mpr ⟨_, (QuantifiedPattern.mem_extracted among).2⟩
    rcases QuantifiedPattern.dependencies_of_extract? taken name reads with group | bound
    · exact .inl (.inr (.inr ⟨_, List.mem_of_getElem? found, group⟩))
    · exact inside name bound
  unfold QuantifiedSite.remaining
  split
  · refine solved.trans fun entry member strays => List.mem_filter.mpr ⟨member, ?_⟩
    rw [Bool.not_eq_true', List.any_eq_false]
    intro other taken same
    have present := (before.solve_sublist _).subset member
    have equal := Ledger.eq_of_position (known.subset (pattern.dischargeable_subset _ _ _ taken)) (known.subset present)
      (beq_iff_eq.mp same)
    obtain ⟨own, counterpart, concern, -⟩ := QuantifiedPattern.mem_dischargeable.mp taken
    obtain ⟨-, obligation, checks, -⟩ := Ledger.mem_obligationsOf.mp concern
    rw [equal] at checks
    obtain ⟨among, -, -, predicate⟩ := producers_of_entry (known.subset present) checks
    rw [predicate, ← UniquenessObligation.predicate_of_mem among] at strays
    exact (MatchGraph.sees_check among).not_strays strays
  · exact solved

namespace Extended

variable {index : Nat} {connection : Connection} {input operator : Plan}

theorem bound (extended : Extended environment arena graph index input before connection operator plan after) {name : String}
    (member : name ∈ plan.available) : name ∈ input.available ∨ name = connection.left ∨ name = connection.right ∨
      isReserved name = true ∨ name ∈ connection.exposed := by
  cases extended with
  | relationship recorded placed =>
    rw [placed.filtered.available, PatternRelationship.mem_available_expandAbove] at member
    exact member.imp_right (Or.imp_right (Or.imp_right fun own => .inr (List.mem_singleton.mpr own)))
  | quantified chosen placed =>
    rw [placed.filtered.available] at member
    exact chosen.bound member

theorem keeps (valid : graph.Valid) (found : graph.connections[index]? = some connection)
    (known : List.Sublist before (Ledger.ofGraph graph)) (inside : input.Inside graph)
    (extended : Extended environment arena graph index input before connection operator plan after) :
    Ledger.Keeps graph before after := by
  have above := inside.add valid found fun _ => extended.bound
  cases extended with
  | relationship recorded placed => exact placed.keeps fun name bound => above name (placed.filtered.available ▸ bound)
  | quantified chosen placed =>
    exact (QuantifiedSite.keeps_remaining found known inside).trans
      (placed.keeps fun name bound => above name (placed.filtered.available ▸ bound))

theorem settled (extended : Extended environment arena graph index input before connection operator plan after) :
    Ledger.Settled after plan.available := by
  cases extended with
  | relationship recorded placed => exact placed.settled
  | quantified chosen placed => exact placed.settled

end Extended

namespace Seeded

variable {index : Nat} {connection : Connection} {seed : Plan}

theorem bound (standard : environment.StandardLeaves) (seeded : Seeded environment arena connection before seed after) {name : String}
    (member : name ∈ seed.available) : name = connection.left ∨ name = connection.right := by
  cases seeded with
  | endpoint ends scanned => exact (scanned.mem_available standard).mp member ▸ ends
  | crossed crosses scannedLeft scannedRight =>
    rw [Plan.mem_available_join, scannedLeft.mem_available standard, scannedRight.mem_available standard] at member
    exact member

theorem inside (valid : graph.Valid) (standard : environment.StandardLeaves)
    (found : graph.connections[index]? = some connection) (seeded : Seeded environment arena connection before seed after) :
    seed.Inside graph :=
  fun _ member => .inl (.inl (valid.end_mem found (seeded.bound standard member)))

theorem keeps (valid : graph.Valid) (standard : environment.StandardLeaves) (found : graph.connections[index]? = some connection)
    (seeded : Seeded environment arena connection before seed after) : Ledger.Keeps graph before after := by
  cases seeded with
  | endpoint ends scanned => exact scanned.keeps standard (valid.end_mem found ends)
  | crossed crosses scannedLeft scannedRight =>
    exact (scannedLeft.keeps standard (valid.left_mem found)).trans (scannedRight.keeps standard (valid.right_mem found))

end Seeded

namespace Added

variable {index : Nat} {connection : Connection} {input operator : Plan}

theorem bound (standard : environment.StandardLeaves)
    (added : Added environment arena graph index input before connection operator plan after) {name : String}
    (member : name ∈ plan.available) : name ∈ input.available ∨ name = connection.left ∨ name = connection.right ∨
      isReserved name = true ∨ name ∈ connection.exposed := by
  cases added with
  | extended touches extended => exact extended.bound member
  | @joined relationship near far leaf _ middle _ id joinId simple oriented nearBound farFree scanned selective placed =>
    have sides := PatternRelationship.far_end oriented
    rw [placed.filtered.available, Plan.mem_available_join, Plan.mem_available_step, scanned.mem_available standard] at member
    simp only [Step.binds, PatternRelationship.hop, List.mem_cons, List.not_mem_nil, or_false] at member
    simp only [Connection.left, Connection.right, Connection.exposed, List.mem_singleton]
    grind

theorem keeps (valid : graph.Valid) (standard : environment.StandardLeaves)
    (found : graph.connections[index]? = some connection) (known : List.Sublist before (Ledger.ofGraph graph))
    (inside : input.Inside graph)
    (added : Added environment arena graph index input before connection operator plan after) :
    Ledger.Keeps graph before after := by
  have above := inside.add valid found fun _ => added.bound standard
  cases added with
  | extended touches extended => exact extended.keeps valid found known inside
  | @joined relationship near far leaf _ middle _ id joinId simple oriented nearBound farFree scanned selective placed =>
    have declared := valid.end_mem found (PatternRelationship.far_end oriented)
    exact (scanned.keeps standard declared).trans (placed.keeps fun name bound => above name (placed.filtered.available ▸ bound))

theorem settled (added : Added environment arena graph index input before connection operator plan after) :
    Ledger.Settled after plan.available := by
  cases added with
  | extended touches extended => exact extended.settled
  | joined simple oriented nearBound farFree scanned selective placed => exact placed.settled

end Added

/-! The plan of a component. -/

/-- Earlier clauses bind one of the nodes. -/
def Component.Touched (graph : MatchGraph) (component : Component) : Prop := ∃ node ∈ component.nodes, node ∈ graph.arguments

instance (graph : MatchGraph) (component : Component) : Decidable (component.Touched graph) :=
  inferInstanceAs (Decidable (∃ node ∈ component.nodes, node ∈ graph.arguments))

/-- What a plan of some connections of a component may bind. -/
def Component.Binds (graph : MatchGraph) (component : Component) (added : List Nat) (name : String) : Prop :=
  name ∈ component.nodes ∨ (component.Touched graph ∧ name ∈ graph.arguments) ∨ isReserved name = true ∨
    ∃ index ∈ added, ∃ connection, graph.connections[index]? = some connection ∧ name ∈ connection.exposed

theorem Component.Binds.mono {component : Component} {added more : List Nat} {name : String}
    (binds : component.Binds graph added name) (subset : added ⊆ more) : component.Binds graph more name :=
  binds.imp_right (Or.imp_right (Or.imp_right fun ⟨index, among, exposes⟩ => ⟨index, subset among, exposes⟩))

theorem Component.Binds.visible {component : Component} {added : List Nat} {name : String} (binds : component.Binds graph added name)
    (declared : component.nodes ⊆ graph.nodeNames) : graph.Visible name ∨ isReserved name = true := by
  rcases binds with node | ⟨-, argument⟩ | reserved | ⟨index, -, connection, found, exposes⟩
  · exact .inl (.inl (declared node))
  · exact .inl (.inr (.inl argument))
  · exact .inr reserved
  · exact .inl (.inr (.inr ⟨connection, List.mem_of_getElem? found, exposes⟩))

namespace Grown

variable {component : Component} {assigned : Assignment}

/-- A plan of a component stays within the connections it has added. -/
theorem binds (valid : graph.Valid) (standard : environment.StandardLeaves) (member : component ∈ graph.components)
    (grown : Grown environment arena graph component before plan after assigned) :
    ∀ name ∈ plan.available, component.Binds graph (assigned.map Prod.fst) name := by
  have own : ∀ {added : List Nat} {index : Nat} {connection : Connection} {name : String}, index ∈ added →
      (index, connection) ∈ Environment.connectionsAt graph component.connections →
      (name = connection.left ∨ name = connection.right ∨ isReserved name = true ∨ name ∈ connection.exposed) →
      component.Binds graph added name := by
    intro added index connection name among planned which
    obtain ⟨inside, found⟩ := Environment.mem_connectionsAt.mp planned
    obtain ⟨owned, shared⟩ := MatchGraph.component_ends valid member found
    rcases which with rfl | rfl | reserved | exposes
    · exact .inl (owned.mp inside)
    · exact .inl (shared.mp (owned.mp inside))
    · exact .inr (.inr (.inl reserved))
    · exact .inr (.inr (.inr ⟨index, among, connection, found, exposes⟩))
  induction grown with
  | argument touched recorded placed =>
    intro name bound
    rw [placed.filtered.available, Plan.mem_available_leaf] at bound
    exact .inr (.inl ⟨touched, bound⟩)
  | scan untouched inside alone scanned =>
    intro name bound
    exact .inl ((scanned.mem_available standard).mp bound ▸ inside)
  | seeded untouched planned seeded extended =>
    intro name bound
    rcases extended.bound bound with early | which
    · exact own List.mem_cons_self planned ((seeded.bound standard early).imp_right .inl)
    · exact own List.mem_cons_self planned which
  | added grown planned fresh added further =>
    intro name bound
    rw [List.map_append]
    rcases added.bound standard bound with early | which
    · exact (further name early).mono (List.subset_append_left _ _)
    · exact own (List.mem_append_right _ List.mem_cons_self) planned which

theorem inside (valid : graph.Valid) (standard : environment.StandardLeaves) (member : component ∈ graph.components)
    (grown : Grown environment arena graph component before plan after assigned) : plan.Inside graph :=
  fun name bound => (grown.binds valid standard member name bound).visible (graph.components_nodes member)

theorem keeps (valid : graph.Valid) (standard : environment.StandardLeaves) (member : component ∈ graph.components)
    (known : List.Sublist before (Ledger.ofGraph graph))
    (grown : Grown environment arena graph component before plan after assigned) : Ledger.Keeps graph before after := by
  induction grown with
  | argument touched recorded placed =>
    refine placed.keeps fun name bound => ?_
    exact .inl (.inr (.inl (Plan.mem_available_leaf.mp bound)))
  | scan untouched inside alone scanned => exact scanned.keeps standard (graph.components_nodes member inside)
  | seeded untouched planned seeded extended =>
    have found := (Environment.mem_connectionsAt.mp planned).2
    exact (seeded.keeps valid standard found).trans
      (extended.keeps valid found (seeded.sublist.trans known) (seeded.inside valid standard found))
  | added grown planned fresh added further =>
    have found := (Environment.mem_connectionsAt.mp planned).2
    exact further.trans (added.keeps valid standard found (grown.sublist.trans known) (grown.inside valid standard member))

theorem settled (grown : Grown environment arena graph component before plan after assigned) :
    Ledger.Settled after plan.available := by
  cases grown with
  | argument touched recorded placed => exact placed.settled
  | scan untouched inside alone scanned => exact scanned.settled
  | seeded untouched planned seeded extended => exact extended.settled
  | added grown planned fresh added => exact added.settled

end Grown

/-! The plan of a graph. -/

theorem Ledger.Settled.mono {ledger later : Ledger} {bound : NameSet} (settled : Ledger.Settled ledger bound)
    (subset : later ⊆ ledger) : Ledger.Settled later bound := fun entry member => settled entry (subset member)

/-- The finished plans of some components, and what is still open when all are planned. -/
structure Legs.Finished (graph : MatchGraph) (legs : List Leg) (before after : Ledger) : Prop where
  keeps : Ledger.Keeps graph before after
  inside : ∀ leg ∈ legs, leg.plan.Inside graph
  settled : ∀ leg ∈ legs, Ledger.Settled after leg.plan.available

theorem Legs.finished (regular : graph.Regular) (standard : environment.StandardLeaves) {components : List Component}
    {legs : List Leg} (planned : Legs environment arena graph before components legs after)
    (declared : components ⊆ graph.components) (known : List.Sublist before (Ledger.ofGraph graph)) :
    Legs.Finished graph legs before after := by
  induction planned with
  | done =>
    exact ⟨fun _ member _ => member, fun _ impossible => absurd impossible List.not_mem_nil,
      fun _ impossible => absurd impossible List.not_mem_nil⟩
  | @leg ledger middle rest component components plan assigned legs grown covers others further =>
    obtain ⟨member, declared⟩ := List.cons_subset.mp declared
    have sublist := grown.sublist.trans known
    have finished := further declared sublist
    have shrinks := (others.planned regular standard declared sublist).1
    exact
      { keeps := (grown.keeps regular.valid standard member known).trans finished.keeps
        inside := List.forall_mem_cons.mpr ⟨grown.inside regular.valid standard member, finished.inside⟩
        settled := List.forall_mem_cons.mpr ⟨grown.settled.mono shrinks.subset, finished.settled⟩ }

theorem Combined.finished {root : Plan} {legs : List Leg} (combined : Combined root before legs plan after)
    (inside : root.Inside graph) (settled : Ledger.Settled before root.available)
    (beside : ∀ leg ∈ legs, leg.plan.Inside graph) :
    plan.Inside graph ∧ Ledger.Keeps graph before after ∧ Ledger.Settled after plan.available := by
  induction combined with
  | done => exact ⟨inside, fun _ member _ => member, settled⟩
  | @product root next plan ledger middle rest leg legs id placed others further =>
    obtain ⟨first, beside⟩ := List.forall_mem_cons.mp beside
    have product : (Plan.join id .cartesianProduct root leg.plan).Inside graph := by
      intro name bound
      exact (Plan.mem_available_join.mp bound).elim (inside name) (first name)
    have above : next.Inside graph := fun name bound => product name (placed.filtered.available ▸ bound)
    obtain ⟨within, keeps, last⟩ := further above placed.settled beside
    exact ⟨within, (placed.keeps product).trans keeps, last⟩

theorem Rooted.finished {first root : Plan} (rooted : Rooted arena graph first before root after) (inside : first.Inside graph)
    (settled : Ledger.Settled before first.available) :
    root.Inside graph ∧ Ledger.Keeps graph before after ∧ Ledger.Settled after root.available := by
  cases rooted with
  | covered => exact ⟨inside, fun _ member _ => member, settled⟩
  | @argument id productId root rest missing recorded placed =>
    have product : (Plan.join productId .cartesianProduct (.leaf id (.argument graph.arguments.names)) first).Inside graph := by
      intro name bound
      rcases Plan.mem_available_join.mp bound with given | early
      · exact .inl (.inr (.inl (Plan.mem_available_leaf.mp given)))
      · exact inside name early
    exact ⟨fun name bound => product name (placed.filtered.available ▸ bound), placed.keeps product, placed.settled⟩

/-- A plan of the whole graph: what it binds, and what is open above it. -/
structure Concluded (graph : MatchGraph) (plan : Plan) (rest : Ledger) : Prop where
  covered : Covered graph plan rest
  inside : plan.Inside graph
  known : List.Sublist rest (Ledger.ofGraph graph)
  keeps : Ledger.Keeps graph (.ofGraph graph) rest
  settled : Ledger.Settled rest plan.available

theorem concluded_of_empty (valid : graph.Valid) (empty : graph.components = []) {id : PlanId} {rest : Ledger}
    (placed : Placed (.leaf id (.argument graph.arguments.names)) (.ofGraph graph) plan rest) : Concluded graph plan rest := by
  have bound : ∀ name, name ∈ plan.available ↔ name ∈ graph.arguments := by
    intro name
    rw [placed.filtered.available, Plan.mem_available_leaf]
    exact Iff.rfl
  have inside : (Plan.leaf id (.argument graph.arguments.names)).Inside graph :=
    fun name given => .inl (.inr (.inl (Plan.mem_available_leaf.mp given)))
  exact
    { covered := covered_of_empty valid empty fun name given => (bound name).mpr given
      inside := fun name given => inside name (placed.filtered.available ▸ given)
      known := placed.sublist
      keeps := placed.keeps inside
      settled := placed.settled }

theorem Combined.concluded (regular : graph.Regular) (standard : environment.StandardLeaves) {legs others : List Leg} {first : Leg}
    {root : Plan} {ledger middle rest : Ledger} (planned : Legs environment arena graph (.ofGraph graph) graph.components legs ledger)
    (sorted : (first :: others).Perm legs) {rootArena : Arena ν} (rooted : Rooted rootArena graph first.plan ledger root middle)
    (combined : Combined root middle others plan rest) : Concluded graph plan rest := by
  have finished := planned.finished regular standard (List.Subset.refl _) (.refl _)
  have among : ∀ leg ∈ first :: others, leg ∈ legs := fun leg member => sorted.subset member
  have start := among first List.mem_cons_self
  obtain ⟨inside, kept, settled⟩ := rooted.finished (finished.inside first start) (finished.settled first start)
  obtain ⟨within, keeps, last⟩ := combined.finished inside settled fun leg member =>
    finished.inside leg (among leg (List.mem_cons_of_mem _ member))
  exact
    { covered := combined.covered regular standard planned sorted rooted
      inside := within
      known := (combined.sublist.trans rooted.sublist).trans (planned.planned regular standard (List.Subset.refl _) (.refl _)).1
      keeps := (finished.keeps.trans kept).trans keeps
      settled := last }

theorem Composed.concluded (regular : graph.Regular) (standard : environment.StandardLeaves) {assigned : Assignment}
    (composed : Composed environment arena graph plan assigned) : Concluded graph plan [] := by
  cases composed with
  | argument empty some recorded placed => exact concluded_of_empty regular.valid empty placed
  | combined planned sorted rooted combined => exact combined.concluded regular standard planned sorted rooted

namespace Concluded

variable {rest : Ledger}

/-- The entries that remain open above a plan of the whole graph are those that stray. -/
theorem mem_remaining (concluded : Concluded graph plan rest)
    (plain : ∀ atom ∈ graph.whereAtoms, graph.Plain atom) (entry : LedgerEntry) :
    entry ∈ rest ↔ entry ∈ Ledger.ofGraph graph ∧ graph.Strays entry.predicate := by
  refine ⟨fun member => ⟨concluded.known.subset member, ?_⟩, fun ⟨member, strays⟩ => concluded.keeps entry member strays⟩
  have blind : ¬ graph.Sees entry.predicate := by
    intro sees
    have ready : entry.isReady plan.available = true := by
      refine NameSet.within_iff.mpr fun name reads => ?_
      exact concluded.covered.visible (sees name reads) (.inr ⟨entry, member, reads⟩)
    exact Bool.false_ne_true ((concluded.settled entry member).symm.trans ready)
  rcases Ledger.mem_ofGraph (concluded.known.subset member) with ⟨-, atom⟩ | ⟨obligation, among, -, predicate⟩
  · rcases List.mem_append.mp atom with label | atom
    · exact absurd (MatchGraph.sees_labelAtom label) blind
    · exact (MatchGraph.strays_iff (plain _ atom)).mpr blind
  · exact absurd (predicate ▸ MatchGraph.sees_check among) blind

/-- Of the variables that an open entry reads, exactly the hidden ones are not bound. -/
theorem mem_missing (concluded : Concluded graph plan rest) {entry : LedgerEntry} (member : entry ∈ rest)
    (plain : graph.Plain entry.predicate) {name : String} (reads : name ∈ entry.dependencies) :
    name ∈ plan.available ↔ graph.Visible name := by
  constructor
  · intro bound
    by_contra hidden
    have free := (plain name reads).resolve_left hidden
    exact Bool.false_ne_true (free.symm.trans ((concluded.inside name bound).resolve_left hidden))
  · exact fun visible => concluded.covered.visible visible (.inr ⟨entry, member, reads⟩)

end Concluded

end

end MatchPlanner
