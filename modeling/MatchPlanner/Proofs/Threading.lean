import Mathlib.Algebra.BigOperators.Group.List.Basic
import MatchPlanner.Proofs.Assembly

/-! The ledger on its way through a plan. Every plan that comes about can be put together from below, and what it answers for is
exactly what is missing from the ledger it leaves. -/

namespace MatchPlanner

/-- The entries of an account have left a ledger, too early for none of the connections still to be planned. -/
structure Spent (graph : MatchGraph) (done : List Nat) (before after : Ledger) (account : Account) : Prop where
  split : (before : Multiset LedgerEntry) = after + account.entries
  opened : after.Open graph done

namespace Spent

variable {graph : MatchGraph} {done : List Nat} {before middle after : Ledger} {first second : Account}

theorem none (opened : before.Open graph done) : Spent graph done before before 0 := ⟨(add_zero _).symm, opened⟩

theorem trans {earlier : List Nat} (former : Spent graph earlier before middle first) (latter : Spent graph done middle after second) :
    Spent graph done before after (first + second) := by
  refine ⟨?_, latter.opened⟩
  rw [former.split, latter.split, Account.entries_add]
  abel

end Spent

section

variable {ν : Type} {environment : Environment ν} {arena : Arena ν} {graph : MatchGraph} {assigned : Assignment}
  {account : Account} {done later : List Nat} {before after : Ledger}

theorem ready_known {ledger : Ledger} (known : List.Sublist ledger (Ledger.ofGraph graph)) (bound : NameSet) :
    ∀ entry ∈ ledger.ready bound, entry ∈ Ledger.ofGraph graph ∧ entry.isReady bound = true := by
  intro entry member
  obtain ⟨present, ready⟩ := List.mem_filter.mp member
  exact ⟨known.subset present, ready⟩

theorem Placed.spent (valid : graph.Valid) {input plan : Plan} (placed : Placed input before plan after)
    (opened : before.Open graph done) (explains : ∀ name ∈ input.available, assigned.Explains graph name)
    (planned : assigned.map Prod.fst ⊆ done) : Spent graph done before after ⟨before.ready input.available, 0, 0⟩ := by
  obtain ⟨-, rfl⟩ := placed
  have split := before.ready_split input.available
  refine ⟨?_, opened.shrink List.filter_sublist split (List.Subset.refl _) fun entry member => ?_⟩
  · simpa only [Account.entries, add_zero] using split
  · exact settled_of_ready valid explains (ready_known opened.known _ entry member).2 planned

theorem Scanned.scan (valid : graph.Valid) (standard : environment.StandardLeaves) {node : String} {plan : Plan}
    (scanned : Scanned environment arena node before plan after) (declared : node ∈ graph.nodeNames)
    (opened : before.Open graph done) : ∃ account, Scan arena graph node plan account ∧ Spent graph done before after account := by
  cases scanned with
  | @scanned call leaves leaf id offered chosen recorded placed =>
    have sound := LeafCandidate.sound_of_standard (standard _ _ _ _ offered leaf chosen)
    have split := before.solve_split leaf.solved
    have solved : Ledger.Open graph done (before.solve leaf.solved) := by
      refine opened.shrink (before.solve_sublist _) split (List.Subset.refl _) fun entry member => settled_of_taken ?_ member
      exact fun predicate solves name reads => sound.reads predicate solves name reads ▸ not_pending_node valid declared
    have explains : ∀ name ∈ (Plan.leaf id leaf.operator).available, Assignment.Explains graph [] name := by
      intro name bound
      rw [Plan.mem_available_leaf, sound.binds, List.mem_singleton] at bound
      exact .inl (bound ▸ declared)
    have spent := placed.spent valid solved explains (List.nil_subset _)
    refine ⟨_, .scan opened.known sound recorded (ready_known solved.known _) placed.filtered, ?_, spent.opened⟩
    rw [split, spent.split]
    simp only [Account.entries, add_zero]
    abel

theorem settled_of_discharged (valid : graph.Valid) {index : Nat} {pattern : QuantifiedPattern} {bound : NameSet}
    {entry : LedgerEntry} (member : entry ∈ (pattern.site graph index bound before).dischargeable)
    (known : List.Sublist before (Ledger.ofGraph graph))
    (explains : ∀ name ∈ bound, assigned.Explains graph name) (planned : assigned.map Prod.fst ⊆ done) :
    ¬ graph.Awaits (done ++ [index]) entry := by
  rintro ⟨name, reads, pending⟩
  obtain ⟨own, counterpart, concern, taken⟩ := QuantifiedPattern.mem_dischargeable.mp member
  obtain ⟨present, obligation, checks, mine, theirs⟩ := Ledger.mem_obligationsOf.mp concern
  obtain ⟨obliged, -, -, predicate⟩ := producers_of_entry (known.subset present) checks
  obtain ⟨rfl, producer⟩ := own_mem_producers obliged mine theirs
  obtain ⟨connection, found, produces⟩ := MatchGraph.mem_producers.mp producer
  have reaches : name = own.name ∨ name = counterpart.name := by
    rw [LedgerEntry.dependencies, predicate, RelationshipProducer.mem_dependencies_distinctness] at reads
    obtain ⟨-, ⟨rfl, rfl⟩ | ⟨rfl, rfl⟩⟩ := UniquenessObligation.own_cases mine theirs
    exacts [reads, reads.symm]
  rcases reaches with rfl | rfl
  · exact not_pending_exposed valid found (MatchGraph.exposed_of_producer produces) (List.mem_append_right _ List.mem_cons_self) pending
  · exact not_pending_of_explains valid (explains _ taken) planned (pending.mono (List.subset_append_left _ _))

theorem QuantifiedSite.remaining_split (site : QuantifiedSite) (ledger : Ledger) (solved : List Expression) (discharged : Bool) :
    (ledger : Multiset LedgerEntry) = (site.remaining ledger solved discharged : Multiset LedgerEntry) +
      (ledger.taken solved ++ site.taken ledger solved discharged : List LedgerEntry) := by
  rw [ledger.solve_split solved, ← Multiset.coe_add]
  unfold remaining taken
  cases discharged with
  | false => simp
  | true =>
    rw [(ledger.solve solved).without_split site.dischargeable]
    simp only [↓reduceIte]
    abel

theorem QuantifiedSite.remaining_sublist (site : QuantifiedSite) (ledger : Ledger) (solved : List Expression) (discharged : Bool) :
    List.Sublist (site.remaining ledger solved discharged) ledger := by
  unfold remaining
  split
  · exact List.filter_sublist.trans (ledger.solve_sublist solved)
  · exact ledger.solve_sublist solved

/-- A pattern takes from the ledger what its operator solves, and the checks a loop makes by itself. -/
theorem QuantifiedPattern.site_spent (valid : graph.Valid) {pattern : QuantifiedPattern} {index : Nat} {input : Plan}
    (declared : graph.connections[index]? = some (.quantified pattern)) (discharged : Bool) (opened : before.Open graph done)
    (planned : assigned.map Prod.fst ⊆ done) (explains : ∀ name ∈ input.available, assigned.Explains graph name) :
    Spent graph (done ++ [index]) before
      ((pattern.site graph index input.available before).remaining before
        ((pattern.site graph index input.available before).request.sorted input).solved discharged)
      ⟨0, before.taken ((pattern.site graph index input.available before).request.sorted input).solved,
        (pattern.site graph index input.available before).taken before
          ((pattern.site graph index input.available before).request.sorted input).solved discharged⟩ := by
  have split := (pattern.site graph index input.available before).remaining_split before
    ((pattern.site graph index input.available before).request.sorted input).solved discharged
  refine ⟨?_, opened.shrink (QuantifiedSite.remaining_sublist ..) split (List.subset_append_left _ _) fun entry member => ?_⟩
  · rw [split, ← Multiset.coe_add]
    simp only [Account.entries, zero_add]
  rcases List.mem_append.mp member with solved | kept
  · refine settled_of_taken (fun predicate solves name reads => ?_) solved
    obtain ⟨extracted, among, rfl⟩ := List.mem_map.mp solves
    have taken := Option.isSome_iff_exists.mpr ⟨_, (QuantifiedPattern.mem_extracted among).2⟩
    rcases QuantifiedPattern.dependencies_of_extract? taken name reads with group | bound
    · exact not_pending_exposed valid declared group (List.mem_append_right _ List.mem_cons_self)
    · exact fun pending => not_pending_of_explains valid (explains name bound) planned (pending.mono (List.subset_append_left _ _))
  · obtain ⟨-, -, dischargeable⟩ := (QuantifiedSite.mem_taken opened.known (pattern.dischargeable_subset _ _ _)).mp kept
    exact settled_of_discharged valid dischargeable opened.known explains planned

theorem Extended.assembled (valid : graph.Valid) {index : Nat} {connection : Connection} {input operator plan : Plan}
    (extended : Extended environment arena graph index input before connection operator plan after)
    (below : Assembled environment arena graph input assigned account) (opened : before.Open graph done)
    (planned : assigned.map Prod.fst ⊆ done) (fresh : index ∉ done) (declared : graph.connections[index]? = some connection)
    (touches : connection.left ∈ input.available ∨ connection.right ∈ input.available) :
    ∃ spent, Assembled environment arena graph plan (assigned ++ [(index, operator)]) (account + spent) ∧
      Spent graph (done ++ [index]) before after spent := by
  have more : (assigned ++ [(index, operator)]).map Prod.fst ⊆ done ++ [index] := by
    rw [List.map_append]
    exact List.append_subset.mpr ⟨fun _ member => List.mem_append_left _ (planned member), List.subset_append_right _ _⟩
  have longer : done ⊆ done ++ [index] := List.subset_append_left _ _
  cases extended with
  | relationship recorded placed =>
    have assembled := Assembled.relationship below declared touches recorded
    have still : before.Open graph (done ++ [index]) :=
      opened.shrink (.refl _) (add_zero _).symm longer fun _ impossible => absurd impossible List.not_mem_nil
    exact ⟨_, .placed assembled (ready_known opened.known _) placed.filtered,
      placed.spent valid still (assembled.explains valid) more⟩
  | @quantified pattern _ loop _ discharged _ chosen placed =>
    have assembled := Assembled.quantified below declared fresh opened chosen
    have taken := QuantifiedPattern.site_spent valid declared discharged opened planned (below.explains valid)
    have spent := placed.spent valid taken.opened (assembled.explains valid) more
    refine ⟨_, ?_, taken.trans spent⟩
    rw [← add_assoc]
    exact .placed assembled (ready_known taken.opened.known _) placed.filtered

theorem Seeded.assembled (valid : graph.Valid) (standard : environment.StandardLeaves) {index : Nat} {connection : Connection}
    {seed : Plan} (seeded : Seeded environment arena connection before seed after)
    (declared : graph.connections[index]? = some connection) (opened : before.Open graph done) :
    (connection.left ∈ seed.available ∨ connection.right ∈ seed.available) ∧
      ∃ account, Assembled environment arena graph seed [] account ∧ Spent graph done before after account := by
  cases seeded with
  | @endpoint node _ _ ends scanned =>
    have known : node ∈ graph.nodeNames := by
      rcases ends with rfl | rfl
      exacts [valid.left_mem declared, valid.right_mem declared]
    obtain ⟨account, scan, spent⟩ := scanned.scan valid standard known opened
    refine ⟨?_, account, .scan known scan, spent⟩
    rcases ends with rfl | rfl
    exacts [.inl (scan.mem_available.mpr rfl), .inr (scan.mem_available.mpr rfl)]
  | crossed crosses scannedLeft scannedRight =>
    obtain ⟨first, left, former⟩ := scannedLeft.scan valid standard (valid.left_mem declared) opened
    obtain ⟨second, right, latter⟩ := scannedRight.scan valid standard (valid.right_mem declared) former.opened
    refine ⟨.inl (Plan.mem_available_join.mpr (.inl (left.mem_available.mpr rfl))), _, ?_, former.trans latter⟩
    exact .product (.scan (valid.left_mem declared) left) (.scan (valid.right_mem declared) right)

theorem Added.assembled (valid : graph.Valid) (standard : environment.StandardLeaves) {index : Nat} {connection : Connection}
    {input operator plan : Plan} (added : Added environment arena graph index input before connection operator plan after)
    (below : Assembled environment arena graph input assigned account) (opened : before.Open graph done)
    (planned : assigned.map Prod.fst ⊆ done) (fresh : index ∉ done) (declared : graph.connections[index]? = some connection) :
    ∃ spent, Assembled environment arena graph plan (assigned ++ [(index, operator)]) (account + spent) ∧
      Spent graph (done ++ [index]) before after spent := by
  cases added with
  | extended touches extended => exact extended.assembled valid below opened planned fresh declared touches
  | @joined relationship near far leaf _ middle _ id joinId simple oriented nearBound farFree scanned selective placed =>
    have known := valid.end_mem declared (PatternRelationship.far_end oriented)
    obtain ⟨scanned, scan, former⟩ := scanned.scan valid standard known opened
    have assembled : Assembled environment arena graph (.join joinId (.nodeHashJoin [near]) input
        (.step id (.expand (relationship.hop far near) relationship.name .all) leaf)) _ _ :=
      .joined below declared simple oriented nearBound farFree scan
    have longer : done ⊆ done ++ [index] := List.subset_append_left _ _
    have still : middle.Open graph (done ++ [index]) :=
      former.opened.shrink (.refl _) (add_zero _).symm longer fun _ impossible => absurd impossible List.not_mem_nil
    have spent := placed.spent valid still (assembled.explains valid) (by
      rw [List.map_append]
      exact List.append_subset.mpr ⟨fun _ member => longer (planned member), List.subset_append_right _ _⟩)
    refine ⟨_, ?_, former.trans spent⟩
    rw [← add_assoc]
    exact .placed assembled (ready_known former.opened.known _) placed.filtered

theorem Grown.assembled (valid : graph.Valid) (standard : environment.StandardLeaves) {component : Component} {plan : Plan}
    (declared : component.nodes ⊆ graph.nodeNames) (fresh : ∀ index ∈ component.connections, index ∉ done)
    (grown : Grown environment arena graph component before plan after assigned) (opened : before.Open graph done) :
    ∃ account, Assembled environment arena graph plan assigned account ∧
      Spent graph (done ++ assigned.map Prod.fst) before after account := by
  induction grown with
  | argument touched recorded placed =>
    have assembled : Assembled environment arena graph _ [] 0 := .argument recorded
    have spent := placed.spent valid opened (assembled.explains valid) (List.nil_subset _)
    refine ⟨_, .placed assembled (ready_known opened.known _) placed.filtered, ?_⟩
    simpa using spent
  | scan untouched member alone scanned =>
    obtain ⟨account, scan, spent⟩ := scanned.scan valid standard (declared member) opened
    exact ⟨account, .scan (declared member) scan, by simpa using spent⟩
  | seeded untouched member seeded extended =>
    obtain ⟨inside, found⟩ := Environment.mem_connectionsAt.mp member
    obtain ⟨touches, seedAccount, seed, former⟩ := seeded.assembled valid standard found opened
    obtain ⟨spent, assembled, latter⟩ :=
      extended.assembled valid seed former.opened (List.nil_subset _) (fresh _ inside) found touches
    exact ⟨_, assembled, former.trans latter⟩
  | @added index connection input operator plan middle rest assigned grown member new added further =>
    obtain ⟨inside, found⟩ := Environment.mem_connectionsAt.mp member
    obtain ⟨account, below, former⟩ := further
    have unplanned : index ∉ done ++ assigned.map Prod.fst :=
      fun early => (List.mem_append.mp early).elim (fresh _ inside) new
    obtain ⟨spent, assembled, latter⟩ :=
      added.assembled valid standard below former.opened (List.subset_append_right _ _) unplanned found
    refine ⟨_, assembled, ?_⟩
    rw [List.map_append, ← List.append_assoc]
    exact former.trans latter

/-- The components are planned one after the other, no connection of one among those of another. -/
theorem Legs.assembled (valid : graph.Valid) (standard : environment.StandardLeaves) {components : List Component}
    {legs : List Leg} (planned : Legs environment arena graph before components legs after)
    (declared : ∀ component ∈ components, component.nodes ⊆ graph.nodeNames)
    (distinct : (components.flatMap Component.connections).Nodup)
    (fresh : ∀ index ∈ components.flatMap Component.connections, index ∉ done) (opened : before.Open graph done) :
    ∃ accounts : List Account, List.Forall₂ (fun leg account => Assembled environment arena graph leg.plan leg.assigned account)
        legs accounts ∧ (before : Multiset LedgerEntry) = after + accounts.sum.entries ∧
      after.Open graph (done ++ (legs.flatMap Leg.assigned).map Prod.fst) := by
  induction planned generalizing done with
  | done => exact ⟨[], .nil, by simp, by simpa using opened⟩
  | @leg ledger middle rest component components plan assigned legs grown covers others further =>
    rw [List.flatMap_cons] at distinct fresh
    obtain ⟨_, distinctRest, apart⟩ := List.nodup_append.mp distinct
    obtain ⟨account, assembled, spent⟩ := grown.assembled valid standard (declared _ List.mem_cons_self)
      (fun index member => fresh index (List.mem_append_left _ member)) opened
    have covered : ∀ index ∈ assigned.map Prod.fst, index ∈ component.connections := by
      intro index member
      obtain ⟨entry, among, rfl⟩ := List.mem_map.mp member
      obtain ⟨connection, known⟩ := grown.known entry among
      exact (Environment.mem_connectionsAt.mp known).1
    obtain ⟨accounts, legsAssembled, split, still⟩ := further (fun component member => declared component (List.mem_cons_of_mem _ member))
      distinctRest (fun index later early => by
        rcases List.mem_append.mp early with before | here
        · exact fresh index (List.mem_append_right _ later) before
        · exact apart index (covered index here) index later rfl) spent.opened
    refine ⟨account :: accounts, .cons assembled legsAssembled, ?_, ?_⟩
    · rw [spent.split, split, List.sum_cons, Account.entries_add]
      abel
    · rwa [List.flatMap_cons, List.map_append, ← List.append_assoc]

theorem Legs.covers {components : List Component} {legs : List Leg}
    (planned : Legs environment arena graph before components legs after)
    (inside : ∀ index ∈ components.flatMap Component.connections, index < graph.connections.length) :
    ((legs.flatMap Leg.assigned).map Prod.fst).Perm (components.flatMap Component.connections) := by
  induction planned with
  | done => exact .refl _
  | leg grown covers others further =>
    rw [List.flatMap_cons] at inside
    rw [Environment.connectionsAt_indices fun index member => inside index (List.mem_append_left _ member)] at covers
    rw [List.flatMap_cons, List.flatMap_cons, List.map_append]
    exact covers.append (further fun index member => inside index (List.mem_append_right _ member))

theorem Combined.assembled (valid : graph.Valid) {root plan : Plan} {legs : List Leg} {accounts : List Account}
    (combined : Combined root before legs plan after) (below : Assembled environment arena graph root assigned account)
    (beside : List.Forall₂ (fun leg account => Assembled environment arena graph leg.plan leg.assigned account) legs accounts)
    (opened : before.Open graph done) (planned : (assigned ++ legs.flatMap Leg.assigned).map Prod.fst ⊆ done) :
    ∃ spent, Assembled environment arena graph plan (assigned ++ legs.flatMap Leg.assigned) (account + accounts.sum + spent) ∧
      Spent graph done before after spent := by
  induction combined generalizing assigned account accounts with
  | done =>
    cases beside
    exact ⟨0, by simpa using below, .none opened⟩
  | @product root next plan ledger middle rest leg legs id placed others further =>
    obtain ⟨first, accounts, legAssembled, restAssembled, rfl⟩ := List.forall₂_cons_left_iff.mp beside
    have product : Assembled environment arena graph (.join id .cartesianProduct root leg.plan) _ _ := .product below legAssembled
    rw [List.flatMap_cons, ← List.append_assoc] at planned
    have former := placed.spent valid opened (product.explains valid)
      (List.Subset.trans (List.map_subset _ (List.subset_append_left _ _)) planned)
    have joined := Assembled.placed product (ready_known opened.known _) placed.filtered
    obtain ⟨spent, assembled, latter⟩ := further joined restAssembled former.opened planned
    refine ⟨_, ?_, former.trans latter⟩
    rw [List.flatMap_cons, ← List.append_assoc]
    convert assembled using 1
    rw [List.sum_cons]
    abel

/-- A complete plan is put together from below; it covers every connection once and answers for every entry once. -/
theorem Composed.assembled (valid : graph.Valid) (standard : environment.StandardLeaves) {plan : Plan}
    (composed : Composed environment arena graph plan assigned) :
    ∃ covered account, Assembled environment arena graph plan covered account ∧
      (covered.map Prod.fst).Perm (List.range graph.connections.length) ∧
      (Ledger.ofGraph graph : Multiset LedgerEntry) = account.entries := by
  have cover := MatchGraph.components_cover valid
  have complete : ∀ {plan : Plan} {covered : Assignment} {account : Account} {done : List Nat}, Spent graph done (.ofGraph graph) [] account →
      Assembled environment arena graph plan covered account → (covered.map Prod.fst).Perm (List.range graph.connections.length) →
      ∃ covered account, Assembled environment arena graph plan covered account ∧
        (covered.map Prod.fst).Perm (List.range graph.connections.length) ∧
        (Ledger.ofGraph graph : Multiset LedgerEntry) = account.entries := by
    intro plan covered account done spent assembled covers
    exact ⟨covered, account, assembled, covers, spent.split.trans (zero_add _)⟩
  cases composed with
  | argument empty some recorded placed =>
    have assembled : Assembled environment arena graph _ [] 0 := .argument recorded
    have opened : Ledger.Open graph [] (.ofGraph graph) := .all graph []
    have spent := placed.spent valid opened (assembled.explains valid) (List.nil_subset _)
    rw [empty] at cover
    have nothing : (List.map Prod.fst ([] : Assignment)).Perm (List.range graph.connections.length) := cover
    refine complete spent ?_ nothing
    have placed := Assembled.placed assembled (ready_known opened.known _) placed.filtered
    rwa [zero_add] at placed
  | @combined legs others first root plan ledger middle planned sorted rooted combined =>
    have inside : ∀ index ∈ graph.components.flatMap Component.connections, index < graph.connections.length :=
      fun index member => List.mem_range.mp (cover.subset member)
    have covers := (planned.covers inside).trans cover
    obtain ⟨accounts, beside, split, opened⟩ := planned.assembled valid standard
      (fun component member => graph.components_nodes member) (cover.nodup_iff.mpr List.nodup_range)
      (fun _ _ early => absurd early List.not_mem_nil) (.all graph [])
    obtain ⟨arranged, besideSorted, permuted⟩ := List.perm_comp_forall₂ sorted beside
    obtain ⟨account, remaining, firstAssembled, othersAssembled, rfl⟩ := List.forall₂_cons_left_iff.mp besideSorted
    have arrangement : ((first :: others).flatMap Leg.assigned).Perm (legs.flatMap Leg.assigned) := sorted.flatMap_right _
    have everything : ((first :: others).flatMap Leg.assigned).map Prod.fst ⊆ (legs.flatMap Leg.assigned).map Prod.fst :=
      (arrangement.map _).subset
    have arrangedCovers := (arrangement.map Prod.fst).trans covers
    rw [← permuted.sum_eq, List.sum_cons] at split
    rw [List.nil_append] at opened
    rw [List.flatMap_cons] at everything arrangedCovers
    cases rooted with
    | covered covered =>
      obtain ⟨spent, assembled, final⟩ := combined.assembled valid firstAssembled othersAssembled opened everything
      refine ⟨_, _, assembled, arrangedCovers, ?_⟩
      rw [split, final.split]
      simp only [Account.entries_add, Multiset.coe_nil, zero_add]
      abel
    | @argument id productId root rest missing recorded placed =>
      have product : Assembled environment arena graph
          (.join productId .cartesianProduct (.leaf id (.argument graph.arguments.names)) first.plan) _ _ :=
        .product (.argument recorded) firstAssembled
      have former := placed.spent valid opened (product.explains valid)
        (List.Subset.trans (List.map_subset _ (List.subset_append_left _ _)) everything)
      have joined := Assembled.placed product (ready_known opened.known _) placed.filtered
      obtain ⟨spent, assembled, final⟩ := combined.assembled valid joined othersAssembled former.opened everything
      refine ⟨_, _, assembled, arrangedCovers, ?_⟩
      rw [split, former.split, final.split]
      simp only [Account.entries_add, Multiset.coe_nil, zero_add]
      abel

theorem Environment.assembled_of_plan [Quantity ν] (standard : environment.StandardLeaves) {before after : Session ν}
    {query : PlannedQuery ν} (ran : environment.plan graph before = .ok query after) :
    graph.Valid ∧ ∃ covered account, Assembled environment query.arena graph query.root covered account ∧
      (covered.map Prod.fst).Perm (List.range graph.connections.length) ∧
      (Ledger.ofGraph graph : Multiset LedgerEntry) = account.entries := by
  obtain ⟨valid, assigned, composed⟩ := environment.composed_of_plan ran
  exact ⟨valid, composed.assembled valid standard⟩

end

theorem PlanningError.unsolvable_of_isCandidateLocal {error : PlanningError} (passed : error.isCandidateLocal = true) :
    ∃ predicate missing, error = .unsolvablePredicate predicate missing := by
  unfold PlanningError.isCandidateLocal at passed
  split at passed
  next predicate missing => exact ⟨predicate, missing, rfl⟩
  next => cases passed

namespace Environment

variable {ν : Type} [Quantity ν]

/-- Whether the first run of a planner returns a plan with a property. -/
def returns (environment : Environment ν) (graph : MatchGraph) (accepts : PlannedQuery ν → Bool) : Bool :=
  match environment.plan graph (.initial false) with
  | .ok query _ => accepts query
  | .error _ _ => false

theorem returns_ok {environment : Environment ν} {graph : MatchGraph} {accepts : PlannedQuery ν → Bool}
    (returns : environment.returns graph accepts = true) :
    ∃ query after, environment.plan graph (.initial false) = .ok query after ∧ accepts query = true := by
  unfold Environment.returns at returns
  split at returns
  next query after ran => exact ⟨query, after, ran, returns⟩
  next => cases returns

end Environment

/-! A planner that counts operators, and a clause in which a relationship and two loops run between the same nodes. -/

instance : Quantity Nat where
  ofNat value := value
  power base exponent := base ^ exponent
  less first second := decide (first < second)
  equal first second := first == second
  sortsBefore first second := decide (first ≤ second)
  finite _ := true
  text value := toString value
  fixed _ value := toString value

def Environment.counting : Environment Nat where
  config := .standard
  statistics := .empty
  estimator plan _ := .ok ⟨plan.subtrees.length, 0⟩
  leafPlanner _ node predicates statistics := .ok (LeafCandidate.standard node predicates statistics)
  prefersCartesian _ _ := false
  cancelsDuring _ := false

theorem Environment.counting_standard : counting.StandardLeaves := by
  intro call node predicates leaves offered leaf member
  cases offered
  exact member

namespace QuantifiedDraft

/-- A loop over one relationship; its selection keeps it from becoming a single expansion. -/
def short : QuantifiedDraft where
  left := ⟨"a", "n"⟩
  right := ⟨"b", "m"⟩
  relationships := [⟨"r", "n", "m", .outgoing, ["T"], .simple⟩]
  repetition := .oneOrMore
  nodeGroupings := []
  relationshipGroupings := [⟨"r", "r"⟩]
  selections := [.literal (.boolean true)]
  groupByName := false

/-- A loop over two relationships, the first collected under a name of choice. -/
def long (group : String) : QuantifiedDraft where
  left := ⟨"a", "x"⟩
  right := ⟨"b", "z"⟩
  relationships := [⟨"u", "x", "y", .outgoing, ["U"], .simple⟩, ⟨"v", "y", "z", .outgoing, ["U"], .simple⟩]
  repetition := .oneOrMore
  nodeGroupings := []
  relationshipGroupings := [⟨"u", group⟩, ⟨"v", "w"⟩]
  selections := []
  groupByName := false

/-- The pattern of a draft that needs no grouping by name. -/
def pattern (draft : QuantifiedDraft) : QuantifiedPattern :=
  ⟨draft.left, draft.right, draft.relationships, draft.repetition, draft.nodeGroupings, draft.relationshipGroupings, draft.selections⟩

end QuantifiedDraft

namespace MatchGraph

def parallel (group : String) : MatchGraph where
  nodes := [⟨"a", ["A"]⟩, ⟨"b", []⟩]
  connections := [.relationship ⟨"q", "a", "b", .outgoing, [], .simple⟩, .quantified QuantifiedDraft.short.pattern,
    .quantified (QuantifiedDraft.long group).pattern]
  selections := []
  arguments := ∅
  required := ∅
  distinctEndpoints := false

theorem parallel_built {group : String} (accepted : (QuantifiedDraft.long group).build = .ok (QuantifiedDraft.long group).pattern) :
    ∀ pattern, .quantified pattern ∈ (parallel group).connections → ∃ draft : QuantifiedDraft, draft.build = .ok pattern := by
  intro pattern member
  simp only [parallel, List.mem_cons, Connection.quantified.injEq, reduceCtorEq, List.not_mem_nil, or_false, false_or] at member
  rcases member with rfl | rfl
  exacts [⟨.short, rfl⟩, ⟨.long group, accepted⟩]

theorem parallel_exposed {group : String} : ∀ connection ∈ (parallel group).connections, ∀ name ∈ connection.exposed,
    name ∈ ["q", "r", group, "w"] :=
  fun connection member _ exposes => List.mem_flatMap.mpr ⟨connection, member, exposes⟩

/-- Whether the first run returns a plan with a property. -/
def parallelReturns (group : String) (accepts : PlannedQuery Nat → Bool) : Bool := Environment.counting.returns (parallel group) accepts

theorem parallel_returns {group : String} {accepts : PlannedQuery Nat → Bool} (returns : parallelReturns group accepts = true) :
    ∃ query after, Environment.counting.plan (parallel group) (.initial false) = .ok query after ∧ accepts query = true :=
  Environment.returns_ok returns

end MatchGraph

end MatchPlanner
