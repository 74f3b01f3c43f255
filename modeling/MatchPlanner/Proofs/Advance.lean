import MatchPlanner.Proofs.Progress

/-! A component is planned to its end. Its nodes hang together, so as long as connections remain one of them touches what is
bound, and that connection can be added. The clause is planned to its end as well, and only predicates can stay behind. -/

namespace MatchPlanner

open Planning

variable {faults : PlanningError → Prop} {graph : MatchGraph} {component : Component}

/-- A quantified pattern among the connections of a component. -/
def Component.Has (graph : MatchGraph) (component : Component) (pattern : QuantifiedPattern) : Prop :=
  ∃ index ∈ component.connections, graph.connections[index]? = some (.quantified pattern)

/-- What the selections of a pattern read is bound inside a repetition, or is given to the whole component from outside. -/
def Component.Serves (graph : MatchGraph) (component : Component) (pattern : QuantifiedPattern) : Prop :=
  ∀ name ∈ Expression.dependenciesOf pattern.selections,
    name ∈ pattern.innerVariables ∨ component.Touched graph ∧ name ∈ graph.arguments

/-- The selections of a component can be placed, unless it is put up with that they cannot. -/
def Component.Placeable (faults : PlanningError → Prop) (graph : MatchGraph) (component : Component) : Prop :=
  ∀ pattern, component.Has graph pattern → component.Serves graph pattern ∨
    ∀ predicate missing, faults (.unsolvablePredicate predicate missing)

/-- Arguments are bound wherever earlier clauses bind a node. -/
def Component.Given (graph : MatchGraph) (component : Component) (bound : NameSet) : Prop :=
  component.Touched graph → ∀ name ∈ graph.arguments, name ∈ bound

theorem Component.Placeable.addable (placeable : component.Placeable faults graph)
    (formed : ∀ pattern, .quantified pattern ∈ graph.connections → pattern.WellFormed)
    {entry : Nat × Connection} (member : entry ∈ Environment.connectionsAt graph component.connections) {bound : NameSet}
    (given : component.Given graph bound) (touches : entry.2.left ∈ bound ∨ entry.2.right ∈ bound) :
    entry.2.Addable faults bound := by
  obtain ⟨inside, found⟩ := Environment.mem_connectionsAt.mp member
  refine ⟨touches, fun pattern same => ?_, fun pattern same => ?_⟩
  · exact formed pattern (List.mem_of_getElem? (same ▸ found))
  · refine (placeable pattern ⟨entry.1, inside, same ▸ found⟩).imp_left fun serves name reads => ?_
    exact (serves name reads).imp_right fun ⟨touched, argument⟩ => given touched name argument

/-! What remains of a component. -/

/-- A partial plan of a component. All its connections have both ends bound, but for those that remain. -/
structure Component.Standing (graph : MatchGraph) (component : Component) (plan : Plan) (remaining : List (Nat × Connection)) :
    Prop where
  known : remaining ⊆ Environment.connectionsAt graph component.connections
  reached : ∃ node ∈ component.nodes, node ∈ plan.available
  given : component.Given graph plan.available
  ends : ∀ entry ∈ Environment.connectionsAt graph component.connections, entry ∉ remaining →
    entry.2.left ∈ plan.available ∧ entry.2.right ∈ plan.available

namespace Component.Standing

variable {plan : Plan} {remaining : List (Nat × Connection)}

/-- If no remaining connection touched the plan, then no connection would leave it, and it would bind all nodes. -/
theorem touching (standing : component.Standing graph plan remaining) (valid : graph.Valid) (member : component ∈ graph.components)
    (some : remaining ≠ []) : ∃ entry ∈ remaining, entry.2.left ∈ plan.available ∨ entry.2.right ∈ plan.available := by
  by_contra untouched
  have apart : ∀ entry ∈ remaining, entry.2.left ∉ plan.available ∧ entry.2.right ∉ plan.available :=
    fun entry among => not_or.mp fun touches => untouched ⟨entry, among, touches⟩
  obtain ⟨start, inside, bound⟩ := standing.reached
  obtain ⟨entry, among⟩ := List.exists_mem_of_ne_nil remaining some
  obtain ⟨owned, found⟩ := Environment.mem_connectionsAt.mp (standing.known among)
  have left := (MatchGraph.component_ends valid member found).1.mp owned
  refine (apart entry among).1 (MatchGraph.component_connected valid member (· ∈ plan.available) ?_ inside left bound)
  intro index planned connection declared
  by_cases still : (index, connection) ∈ remaining
  · obtain ⟨left, right⟩ := apart _ still
    exact iff_of_false left right
  · obtain ⟨left, right⟩ := standing.ends _ (Environment.mem_connectionsAt.mpr ⟨planned, declared⟩) still
    exact iff_of_true left right

theorem add {ν : Type} {environment : Environment ν} {arena : Arena ν} {before after : Ledger} {index : Nat}
    {connection : Connection} {operator next : Plan} (standing : component.Standing graph plan remaining)
    (member : (index, connection) ∈ remaining)
    (added : Added environment arena graph index plan before connection operator next after) :
    component.Standing graph next (remaining.filter fun other => other.1 != index) := by
  refine ⟨fun entry kept => standing.known (List.mem_filter.mp kept).1, ?_, fun touched name argument => ?_, fun entry among left => ?_⟩
  · obtain ⟨node, inside, bound⟩ := standing.reached
    exact ⟨node, inside, added.grows node bound⟩
  · exact added.grows name (standing.given touched name argument)
  · by_cases here : entry.1 = index
    · have same : entry.2 = connection := by
        have declared := (Environment.mem_connectionsAt.mp (standing.known member)).2
        exact Option.some.inj ((Environment.mem_connectionsAt.mp among).2.symm.trans (here ▸ declared))
      exact same ▸ added.ends
    · have missing : entry ∉ remaining := fun still => left (List.mem_filter.mpr ⟨still, by simpa using here⟩)
      exact (standing.ends entry among missing).imp (added.grows _) (added.grows _)

end Component.Standing

theorem Grown.given {ν : Type} {environment : Environment ν} {arena : Arena ν} {before after : Ledger} {plan : Plan}
    {assigned : Assignment} (grown : Grown environment arena graph component before plan after assigned) :
    component.Given graph plan.available := by
  induction grown with
  | argument touched recorded placed =>
    intro _ name argument
    rwa [placed.filtered.available, Plan.mem_available_leaf]
  | scan untouched | seeded untouched =>
    rintro ⟨node, inside, argument⟩
    exact absurd argument (untouched node inside)
  | added grown member fresh added further => exact fun touched name argument => added.grows name (further touched name argument)

/-- A plan that comes about stands where the connections it has not added remain. -/
theorem Grown.standing {ν : Type} {environment : Environment ν} {arena : Arena ν} {before after : Ledger} {plan : Plan}
    {assigned : Assignment} {remaining : List (Nat × Connection)} (valid : graph.Valid) (standard : environment.StandardLeaves)
    (member : component ∈ graph.components) (grown : Grown environment arena graph component before plan after assigned)
    (known : remaining ⊆ Environment.connectionsAt graph component.connections)
    (covered : ∀ entry ∈ Environment.connectionsAt graph component.connections, entry ∉ remaining → entry.1 ∈ assigned.map Prod.fst) :
    component.Standing graph plan remaining where
  known := known
  reached := grown.reaches valid standard member
  given := grown.given
  ends entry among left := grown.ends entry.1 (covered entry among left) entry.2 (Environment.mem_connectionsAt.mp among).2

/-- Until all connections of a component are planned, one of the others touches its plan. -/
theorem Grown.touching {ν : Type} {environment : Environment ν} {arena : Arena ν} {before after : Ledger} {plan : Plan}
    {assigned : Assignment} (valid : graph.Valid) (standard : environment.StandardLeaves) (member : component ∈ graph.components)
    (grown : Grown environment arena graph component before plan after assigned)
    (unfinished : ∃ entry ∈ Environment.connectionsAt graph component.connections, entry.1 ∉ assigned.map Prod.fst) :
    ∃ entry ∈ Environment.connectionsAt graph component.connections, entry.1 ∉ assigned.map Prod.fst ∧
      (entry.2.left ∈ plan.available ∨ entry.2.right ∈ plan.available) := by
  let remaining := (Environment.connectionsAt graph component.connections).filter fun entry => decide (entry.1 ∉ assigned.map Prod.fst)
  have remains : ∀ entry, entry ∈ remaining ↔
      entry ∈ Environment.connectionsAt graph component.connections ∧ entry.1 ∉ assigned.map Prod.fst := by
    intro entry
    rw [List.mem_filter, decide_eq_true_eq]
  have standing : component.Standing graph plan remaining := by
    refine grown.standing valid standard member (fun entry kept => ((remains entry).mp kept).1) fun entry among done => ?_
    by_contra fresh
    exact done ((remains entry).mpr ⟨among, fresh⟩)
  obtain ⟨entry, among, fresh⟩ := unfinished
  obtain ⟨next, kept, touches⟩ := standing.touching valid member (List.ne_nil_of_mem ((remains entry).mpr ⟨among, fresh⟩))
  obtain ⟨declared, left⟩ := (remains next).mp kept
  exact ⟨next, declared, left, touches⟩

/-! How a component grows. -/

/-- A search that has come across something. -/
def GrowthSearch.Found {ν : Type} (search : GrowthSearch ν) : Prop := search.best.isSome = true ∨ search.failure.isSome = true

/-- The failure a search has met is put up with. -/
def GrowthSearch.Fair {ν : Type} (faults : PlanningError → Prop) (search : GrowthSearch ν) : Prop :=
  ∀ error, search.failure = some error → faults error

theorem GrowthSearch.Fair.fail {ν : Type} {search : GrowthSearch ν} {error : PlanningError} (fair : search.Fair faults)
    (fault : faults error) : (search.fail error).Fair faults ∧ (search.fail error).Found := by
  unfold GrowthSearch.fail
  cases earlier : search.failure with
  | none => exact ⟨fun other same => Option.some.inj same ▸ fault, .inr rfl⟩
  | some first => exact ⟨fun other same => fair other (earlier.trans same), .inr rfl⟩

theorem GrowthSearch.found_offer {ν : Type} [Quantity ν] (search : GrowthSearch ν) (index : Nat) (connection : Connection)
    (candidate : Candidate ν) : (search.offer index connection candidate).Found :=
  .inl (keepCheaper_isSome (fun kept : Nat × Connection × Candidate ν => kept.2.2.estimate) search.best _)

namespace Environment

variable {ν : Type} {environment : Environment ν} [Quantity ν]

theorem Dependable.chooseStart (dependable : environment.Dependable faults)
    (formed : ∀ pattern, .quantified pattern ∈ graph.connections → pattern.WellFormed) (member : component ∈ graph.components)
    (placeable : component.Placeable faults graph) (ledger : Ledger) :
    Completes faults (environment.chooseStart graph component ledger) fun _ => True := by
  unfold Environment.chooseStart
  split
  · exact dependable.argumentStart graph ledger
  next untouched =>
    have addable : ∀ entry ∈ connectionsAt graph component.connections, ∀ bound : NameSet,
        entry.2.left ∈ bound ∨ entry.2.right ∈ bound → entry.2.Addable faults bound := by
      refine fun entry among bound touches => placeable.addable formed among (fun ⟨node, inside, argument⟩ => ?_) touches
      exact absurd (List.any_eq_true.mpr ⟨node, inside, decide_eq_true argument⟩) untouched
    split
    · split
      next empty =>
        obtain ⟨node, inside⟩ := MatchGraph.components_nonempty member
        exact absurd (empty ▸ inside) List.not_mem_nil
      next node others _ => exact (dependable.bestLeaf node ledger).weaken fun _ _ => trivial
    next index connection others connections =>
      refine (dependable.cheapestStart ledger none _ (connections ▸ addable)).bind fun best _ => ?_
      cases best with
      | some best => exact completes_pure trivial
      | none =>
        refine (dependable.bestLeaf connection.left ledger).bind fun leaf bound => dependable.expand graph index ?_ _
        exact addable (index, connection) (connections ▸ List.mem_cons_self) _ (.inl bound)

theorem Dependable.hashJoinCandidate (dependable : environment.Dependable faults) (index : Nat) (relationship : PatternRelationship)
    (plan : Plan) (ledger : Ledger) :
    Completes faults (environment.hashJoinCandidate index relationship plan ledger) fun _ => True := by
  unfold Environment.hashJoinCandidate
  split
  · exact completes_pure trivial
  · dsimp only
    split
    · exact completes_pure trivial
    · refine (dependable.bestLeaf _ _).bind fun leaf _ => ?_
      split
      · exact completes_pure trivial
      · exact (dependable.finish _ _ fun _ => rfl).bind fun _ _ => (dependable.finish _ _ fun _ => rfl).bind fun _ _ =>
          (dependable.placeReady _ _).bind fun _ _ => (dependable.candidate _ _ _ _).bind fun _ _ => completes_pure trivial

/-- Whether or not a hash join can be built, what the search has so far is kept. -/
theorem Dependable.offerJoin (dependable : environment.Dependable faults) (plan : Plan) (ledger : Ledger)
    (search : GrowthSearch ν) (fair : search.Fair faults) (found : search.Found) (index : Nat) (relationship : PatternRelationship)
    {next : Option (Candidate ν) → Planning ν (GrowthSearch ν)} (skips : next none = pure search)
    (offers : ∀ candidate, next (some candidate) = pure (search.offer index (.relationship relationship) candidate)) :
    Completes faults (environment.hashJoinCandidate index relationship plan ledger >>= next) fun result =>
      result.Fair faults ∧ result.Found := by
  refine (dependable.hashJoinCandidate index relationship plan ledger).bind fun result _ => ?_
  cases result with
  | none => exact skips ▸ completes_pure ⟨fair, found⟩
  | some candidate => exact offers candidate ▸ completes_pure ⟨fair, search.found_offer _ _ _⟩

theorem Dependable.growThrough (dependable : environment.Dependable faults) (plan : Plan) (ledger : Ledger)
    (search : GrowthSearch ν) (fair : search.Fair faults) (index : Nat) {connection : Connection}
    (addable : connection.Addable faults plan.available) :
    Completes faults (environment.growThrough graph plan ledger search index connection) fun result =>
      result.Fair faults ∧ result.Found := by
  unfold Environment.growThrough
  refine (dependable.estimate plan).bind fun _ _ => (dependable.expand graph index addable ledger).attempt.bind ?_
  rintro _ (⟨candidate, rfl, -⟩ | ⟨error, rfl, fault⟩)
  · have found := search.found_offer index connection candidate
    cases connection with
    | quantified pattern => exact completes_pure ⟨fair, found⟩
    | relationship relationship =>
      exact dependable.offerJoin plan ledger (search.offer index _ candidate) fair found index relationship rfl fun _ => rfl
  · obtain ⟨fair, found⟩ := fair.fail fault
    cases connection with
    | quantified pattern => exact completes_pure ⟨fair, found⟩
    | relationship relationship =>
      exact dependable.offerJoin plan ledger (search.fail error) fair found index relationship rfl fun _ => rfl

theorem Dependable.cheapestGrowth (dependable : environment.Dependable faults) (plan : Plan) (ledger : Ledger)
    (search : GrowthSearch ν) (fair : search.Fair faults) (considered : List (Nat × Connection))
    (addable : ∀ entry ∈ considered, entry.2.left ∈ plan.available ∨ entry.2.right ∈ plan.available →
      entry.2.Addable faults plan.available) :
    Completes faults (environment.cheapestGrowth graph plan ledger search considered) fun result => result.Fair faults ∧
      (search.Found ∨ (∃ entry ∈ considered, entry.2.left ∈ plan.available ∨ entry.2.right ∈ plan.available) → result.Found) := by
  induction considered generalizing search with
  | nil => exact completes_pure ⟨fair, fun found => found.resolve_right fun ⟨_, impossible, _⟩ => absurd impossible List.not_mem_nil⟩
  | cons first rest further =>
    obtain ⟨index, connection⟩ := first
    have others := fun entry member => addable entry (List.mem_cons_of_mem _ member)
    unfold Environment.cheapestGrowth
    split
    next touches =>
      refine (dependable.growThrough plan ledger search fair index (addable _ List.mem_cons_self touches)).bind ?_
      rintro grown ⟨fair, found⟩
      refine (further _ fair others).weaken ?_
      rintro result ⟨fair, kept⟩
      exact ⟨fair, fun _ => kept (.inl found)⟩
    next apart =>
      refine (further _ fair others).weaken ?_
      rintro result ⟨fair, kept⟩
      refine ⟨fair, fun found => kept (found.imp_right ?_)⟩
      rintro ⟨entry, member, touches⟩
      rcases List.mem_cons.mp member with rfl | other
      exacts [absurd touches apart, ⟨entry, other, touches⟩]

omit [Quantity ν] in
private theorem completes_afterCheck {β : Type} {condition : Prop} [Decidable condition] {action : Planning ν β} {post : β → Prop}
    (completes : Completes faults action post) :
    Completes faults (if condition then do checkCancellation; action else action) post := by
  split
  · exact completes_checkCancellation.bind fun _ _ => completes
  · exact completes

theorem Dependable.grow (dependable : environment.Dependable faults) (valid : graph.Valid)
    (formed : ∀ pattern, .quantified pattern ∈ graph.connections → pattern.WellFormed) (member : component ∈ graph.components)
    (placeable : component.Placeable faults graph) (rounds steps : Nat) (current : Candidate ν)
    (remaining : List (Nat × Connection)) (standing : component.Standing graph current.plan remaining) :
    Completes faults (environment.grow graph component rounds steps current remaining) fun _ => True := by
  induction rounds generalizing steps current remaining with
  | zero => exact completes_pure trivial
  | succ rounds further =>
    unfold Environment.grow
    split
    · exact completes_pure trivial
    next some =>
      have touching := standing.touching valid member (by simpa using some)
      apply completes_afterCheck
      refine ((dependable.cheapestGrowth current.plan current.remaining .none (fun _ impossible => by cases impossible)
        remaining ?_).known fun final => yields_cheapestGrowth graph _ _ remaining .none remaining fun _ among => among).bind ?_
      · exact fun entry among touches => placeable.addable formed (standing.known among) standing.given touches
      rintro search ⟨⟨fair, found⟩, final, offers⟩
      cases kept : search.best with
      | none =>
        cases failed : search.failure with
        | none =>
          exfalso
          have either : search.Found := found (.inr touching)
          simp [GrowthSearch.Found, kept, failed] at either
        | some error => exact completes_throw (fair error failed)
      | some best =>
        obtain ⟨index, connection, chosen⟩ := best
        obtain ⟨among, operator, added⟩ := offers (fun _ impossible => by cases impossible) _ kept
        exact (completes_record _ _ _).bind fun _ _ => further _ _ _ (standing.add among added)

theorem Dependable.planComponent (dependable : environment.Dependable faults) (valid : graph.Valid)
    (formed : ∀ pattern, .quantified pattern ∈ graph.connections → pattern.WellFormed) (member : component ∈ graph.components)
    (placeable : component.Placeable faults graph) (steps : Nat) (ledger : Ledger) :
    Completes faults (environment.planComponent graph component steps ledger) fun _ => True := by
  unfold Environment.planComponent
  refine ((dependable.chooseStart formed member placeable ledger).known fun final => yields_chooseStart graph component ledger).bind ?_
  rintro start ⟨-, final, assigned, grown, named⟩
  refine (completes_record _ _ _).bind fun _ _ => dependable.grow valid formed member placeable _ _ _ _ ?_
  refine grown.standing valid dependable.standardLeaves member (fun entry kept => (List.mem_filter.mp kept).1) fun entry among started => ?_
  rw [named, Option.mem_toList]
  by_contra other
  exact started (List.mem_filter.mpr ⟨among, bne_iff_ne.mpr fun same => other same.symm⟩)

/-! The plan of a graph. -/

theorem Dependable.planComponents (dependable : environment.Dependable faults) (valid : graph.Valid)
    (formed : ∀ pattern, .quantified pattern ∈ graph.connections → pattern.WellFormed)
    (placeable : ∀ component ∈ graph.components, component.Placeable faults graph) (components : List Component)
    (declared : components ⊆ graph.components) (steps : Nat) (ledger : Ledger) :
    Completes faults (environment.planComponents graph steps ledger components) fun _ => True := by
  induction components generalizing steps ledger with
  | nil => exact completes_pure trivial
  | cons component rest further =>
    obtain ⟨member, declared⟩ := List.cons_subset.mp declared
    unfold Environment.planComponents
    exact completes_checkCancellation.bind fun _ _ =>
      (dependable.planComponent valid formed member (placeable component member) steps ledger).bind fun _ _ =>
      (further declared _ _).bind fun _ _ => completes_pure trivial

omit [Quantity ν] in
theorem Dependable.product (dependable : environment.Dependable faults) (left right : Plan) (ledger : Ledger) :
    Completes faults (environment.product left right ledger) fun _ => True := by
  unfold Environment.product
  exact (dependable.finish _ _ fun _ => rfl).bind fun _ _ => dependable.placeReady _ _

omit [Quantity ν] in
theorem Dependable.combineLegs (dependable : environment.Dependable faults) (root : Plan) (ledger : Ledger)
    (legs : List (Candidate ν)) : Completes faults (environment.combineLegs root ledger legs) fun _ => True := by
  induction legs generalizing root ledger with
  | nil => exact completes_pure trivial
  | cons leg rest further =>
    unfold Environment.combineLegs
    exact completes_checkCancellation.bind fun _ _ => (dependable.product _ _ _).bind fun _ _ =>
      (completes_record _ _ _).bind fun _ _ => further _ _

theorem Dependable.combine (dependable : environment.Dependable faults) (planned : List (Candidate ν)) (ledger : Ledger)
    (startable : planned = [] → graph.arguments = ∅ → faults (.malformedPattern .noNodes)) :
    Completes faults (environment.combine graph planned ledger) fun _ => True := by
  unfold Environment.combine
  split
  next sorted =>
    have empty : planned = [] := by
      have shuffled := List.mergeSort_perm planned fun first second =>
        Quantity.sortsBefore first.estimate.cost second.estimate.cost
      rw [sorted] at shuffled
      exact shuffled.nil_eq.symm
    split
    next nothing =>
      have refused : Completes faults (throw (.malformedPattern .noNodes) : Planning ν Unit) fun _ => True :=
        completes_throw (startable empty nothing)
      exact refused.bind fun _ _ => (dependable.argumentStart graph ledger).bind fun _ _ => completes_pure trivial
    next => exact (dependable.argumentStart graph ledger).bind fun _ _ => completes_pure trivial
  next =>
    split
    · exact dependable.combineLegs _ _ _
    · exact (dependable.argumentPlan graph).bind fun _ _ => (dependable.product _ _ _).bind fun _ _ => dependable.combineLegs _ _ _

end Environment

end MatchPlanner
