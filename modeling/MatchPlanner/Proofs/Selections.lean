import MatchPlanner.Proofs.Completeness

/-! What the selections of quantified patterns may read. A selection is placed inside the repetition, so beyond the variables of one
repetition it reads only what is bound below the pattern. Arguments are bound there when the component starts from them, and
nothing outside the component ever is. Where selections keep to this, statistics have no say in whether a plan exists. -/

namespace MatchPlanner

open Planning

/-! The variables of one repetition. -/

namespace QuantifiedPattern

variable {pattern : QuantifiedPattern}

theorem mem_innerVariables {name : String} : name ∈ pattern.innerVariables ↔ name ∈ pattern.innerNodes ∨ name ∈ pattern.relationshipNames := by
  rw [innerVariables, NameSet.mem_ofList, List.mem_append]

end QuantifiedPattern

/-- The nodes of a chain lie along it. -/
theorem Chain.nodes {start finish : String} {relationships : List PatternRelationship} (chain : Chain start relationships finish) :
    finish ∈ nodesAlong start relationships ∧ ∀ relationship ∈ relationships, relationship.left ∈ nodesAlong start relationships := by
  induction chain with
  | done => exact ⟨List.mem_cons_self, fun _ impossible => absurd impossible List.not_mem_nil⟩
  | step further along =>
    exact ⟨List.mem_cons_of_mem _ along.1,
      List.forall_mem_cons.mpr ⟨List.mem_cons_self, fun other member => List.mem_cons_of_mem _ (along.2 other member)⟩⟩

namespace QuantifiedPattern.WellFormed

variable {pattern : QuantifiedPattern}

theorem near_inner (formed : pattern.WellFormed) (direction : TraversalDirection) :
    (pattern.near direction).inner ∈ pattern.innerVariables := by
  rw [mem_innerVariables]
  cases direction with
  | forward => exact .inl List.mem_cons_self
  | reversed => exact .inl formed.chain.nodes.1

/-- A step binds variables of the repetition. -/
theorem step_inner (formed : pattern.WellFormed) {direction : TraversalDirection} {step : TrailStep}
    (member : step ∈ pattern.steps direction) :
    step.relationship ∈ pattern.innerVariables ∧ step.hop.target ∈ pattern.innerVariables := by
  simp only [mem_innerVariables]
  cases direction with
  | forward =>
    obtain ⟨relationship, inside, rfl⟩ := List.mem_map.mp member
    exact ⟨.inr (List.mem_map_of_mem inside), .inl (List.mem_cons_of_mem _ (List.mem_map_of_mem inside))⟩
  | reversed =>
    obtain ⟨original, among, rfl⟩ := List.mem_map.mp member
    obtain ⟨relationship, inside, rfl⟩ := List.mem_map.mp (List.mem_reverse.mp among)
    exact ⟨.inr (List.mem_map_of_mem inside), .inl (formed.chain.nodes.2 relationship inside)⟩

end QuantifiedPattern.WellFormed

/-! Every predicate of a finished repetition reads what is bound in it. -/

theorem InnerSteps.reads {siblings : List RelationshipProducer} {earlier steps : List TrailStep} {progress last : InnerProgress}
    (stepped : InnerSteps siblings earlier progress steps last) (complete : last.pending = []) :
    ∀ predicate ∈ progress.pending, ∀ name ∈ predicate.dependencies,
      name ∈ progress.scope ∨ ∃ step ∈ steps, name = step.relationship ∨ name = step.hop.target := by
  induction stepped with
  | done => exact fun predicate member => absurd (complete ▸ member) List.not_mem_nil
  | @step earlier rest step progress placed last id expanded _ further =>
    intro predicate member name reads
    have reached : name ∈ (progress.expand id step).scope → name ∈ progress.scope ∨
        ∃ step' ∈ step :: rest, name = step'.relationship ∨ name = step'.hop.target := by
      intro bound
      rcases InnerProgress.mem_scope_expand.mp bound with target | relationship | early
      exacts [.inr ⟨step, List.mem_cons_self, .inr target⟩, .inr ⟨step, List.mem_cons_self, .inl relationship⟩, .inl early]
    by_cases ready : isReadyIn (progress.expand id step).scope predicate = true
    · exact reached (NameSet.within_iff.mp ready name reads)
    · have waits : predicate ∈ placed.pending := by
        rw [expanded.pending]
        exact List.mem_filter.mpr ⟨member, by simpa using ready⟩
      rcases further complete predicate waits name reads with bound | ⟨later, among, binds⟩
      · exact reached (expanded.scope ▸ bound)
      · exact .inr ⟨later, List.mem_cons_of_mem _ among, binds⟩

theorem InnerBuilt.reads {pending : List Expression} {arguments : NameSet} {steps : List TrailStep}
    {siblings : List RelationshipProducer} {plan : Plan} (built : InnerBuilt pending arguments steps siblings plan) :
    ∀ predicate ∈ pending, ∀ name ∈ predicate.dependencies,
      name ∈ arguments ∨ ∃ step ∈ steps, name = step.relationship ∨ name = step.hop.target := by
  cases built with
  | @built id started last begun stepped complete =>
    intro predicate member name reads
    by_cases ready : isReadyIn arguments predicate = true
    · exact .inl (NameSet.within_iff.mp ready name reads)
    · have waits : predicate ∈ started.pending := by
        rw [begun.pending]
        exact List.mem_filter.mpr ⟨member, by simpa [InnerProgress.initial] using ready⟩
      have read := stepped.reads complete predicate waits name reads
      rwa [begun.scope] at read

section

variable {ν : Type} {environment : Environment ν} {arena : Arena ν} {graph : MatchGraph}

theorem PatternPlanned.reads {source operator plan : Plan} {request : QuantifiedRequest} {discharged : Bool}
    (planned : PatternPlanned environment arena source request operator plan discharged) (formed : request.pattern.WellFormed)
    (siblings : ∀ sibling ∈ request.siblings, sibling.name ∈ source.available) : request.pattern.Served source.available := by
  intro name reads
  cases planned with
  | collapsed collapses =>
    -- Only a pattern without selections collapses.
    simp only [QuantifiedRequest.collapses, Bool.and_eq_true, Bool.not_eq_true'] at collapses
    have none : request.pattern.selectionAtoms = [] := by
      simpa [Classification.hasSelections, QuantifiedRequest.sorted, QuantifiedPattern.classify] using collapses.1.1.2
    rw [← QuantifiedPattern.mem_dependenciesOf_atoms, none] at reads
    exact absurd reads (NameSet.not_mem_empty _)
  | @looped direction finish id inner _ kept possible built recorded ended =>
    obtain ⟨atom, among, inside⟩ := Expression.mem_dependenciesOf.mp (QuantifiedPattern.mem_dependenciesOf_atoms.mpr reads)
    have member : atom ∈ (request.sorted source).innerPredicates := by
      refine List.mem_append_left _ ?_
      simpa [QuantifiedRequest.sorted, QuantifiedPattern.classify] using among
    rcases built.reads atom member name inside with given | ⟨step, taken, binds⟩
    · rcases Environment.mem_innerArguments.mp given with rfl | ⟨-, -, outside⟩ | ⟨sibling, checked, rfl⟩
      · exact .inl (formed.near_inner direction)
      · exact .inr outside
      · exact .inr (siblings sibling (QuantifiedRequest.mem_checked.mp checked).1)
    · rcases binds with rfl | rfl
      exacts [.inl (formed.step_inner taken).1, .inl (formed.step_inner taken).2]

theorem Extended.reads {index : Nat} {connection : Connection} {input operator plan : Plan} {before after : Ledger}
    (extended : Extended environment arena graph index input before connection operator plan after) {pattern : QuantifiedPattern}
    (quantified : connection = .quantified pattern) (formed : pattern.WellFormed) : pattern.Served input.available := by
  cases extended with
  | relationship => cases quantified
  | quantified chosen placed =>
    cases quantified
    exact chosen.reads formed fun sibling member => by
      obtain ⟨_, _, _, bound⟩ := QuantifiedPattern.mem_siblings.mp member
      exact bound

/-- What a component may bind before one of its connections is added. -/
def Component.BindsBefore (graph : MatchGraph) (component : Component) (index : Nat) (name : String) : Prop :=
  component.Binds graph (component.connections.erase index) name

theorem Grown.reads (regular : graph.Regular) (standard : environment.StandardLeaves) {component : Component}
    (member : component ∈ graph.components) {before after : Ledger} {plan : Plan} {assigned : Assignment}
    (grown : Grown environment arena graph component before plan after assigned) :
    ∀ index ∈ assigned.map Prod.fst, ∀ pattern, graph.connections[index]? = some (.quantified pattern) →
      ∀ name ∈ Expression.dependenciesOf pattern.selections,
        name ∈ pattern.innerVariables ∨ component.BindsBefore graph index name := by
  have read : ∀ {index : Nat} {connection : Connection} {input operator plan : Plan} {before after : Ledger},
      (index, connection) ∈ Environment.connectionsAt graph component.connections →
      Extended environment arena graph index input before connection operator plan after →
      (∀ name ∈ input.available, component.BindsBefore graph index name) →
      ∀ pattern, graph.connections[index]? = some (.quantified pattern) →
        ∀ name ∈ Expression.dependenciesOf pattern.selections,
          name ∈ pattern.innerVariables ∨ component.BindsBefore graph index name := by
    intro index connection input operator plan before after planned extended binds pattern found name reads
    have same := Option.some.inj ((Environment.mem_connectionsAt.mp planned).2.symm.trans found)
    exact (extended.reads same (regular.formed pattern (List.mem_of_getElem? found)) name reads).imp_right (binds name)
  induction grown with
  | argument | scan => exact fun _ impossible => absurd impossible List.not_mem_nil
  | seeded untouched planned seeded extended =>
    intro index here
    cases List.mem_singleton.mp here
    obtain ⟨inside, found⟩ := Environment.mem_connectionsAt.mp planned
    obtain ⟨owned, shared⟩ := MatchGraph.component_ends regular.valid member found
    refine read planned extended fun name bound => .inl ?_
    rcases seeded.bound standard bound with rfl | rfl
    exacts [owned.mp inside, shared.mp (owned.mp inside)]
  | @added index connection input operator plan middle rest assigned grown planned fresh added further =>
    have before : assigned.map Prod.fst ⊆ component.connections.erase index := by
      intro other among
      obtain ⟨entry, early, rfl⟩ := List.mem_map.mp among
      obtain ⟨connection, known⟩ := grown.known entry early
      have different : entry.1 ≠ index := fun same => fresh (same ▸ among)
      exact (List.mem_erase_of_ne different).mpr (Environment.mem_connectionsAt.mp known).1
    intro index either
    rw [List.map_append] at either
    rcases List.mem_append.mp either with early | here
    · exact further index early
    · cases List.mem_singleton.mp here
      cases added with
      | extended touches extended =>
        exact read planned extended fun name bound => (grown.binds regular.valid standard member name bound).mono before
      | joined =>
        intro pattern found
        cases (Environment.mem_connectionsAt.mp planned).2.symm.trans found

theorem Legs.reads (regular : graph.Regular) (standard : environment.StandardLeaves) {components : List Component}
    {legs : List Leg} {before after : Ledger} (planned : Legs environment arena graph before components legs after)
    (declared : components ⊆ graph.components) : ∀ component ∈ components, ∀ index ∈ component.connections, ∀ pattern,
      graph.connections[index]? = some (.quantified pattern) → ∀ name ∈ Expression.dependenciesOf pattern.selections,
        name ∈ pattern.innerVariables ∨ component.BindsBefore graph index name := by
  induction planned with
  | done => exact fun _ impossible => absurd impossible List.not_mem_nil
  | leg grown covers others further =>
    obtain ⟨member, declared⟩ := List.cons_subset.mp declared
    refine List.forall_mem_cons.mpr ⟨fun index inside pattern found => ?_, further declared⟩
    refine grown.reads regular standard member index (covers.symm.subset ?_) pattern found
    exact List.mem_map_of_mem (Environment.mem_connectionsAt.mpr ⟨inside, found⟩)

end

/-! Which selections have a plan. -/

/-- The selections of every pattern read what is bound inside a repetition, or what its component is given. -/
def MatchGraph.Serves (graph : MatchGraph) : Prop :=
  ∀ component ∈ graph.components, ∀ pattern, component.Has graph pattern → component.Serves graph pattern

namespace Environment

variable {ν : Type} {environment : Environment ν} {graph : MatchGraph} [Quantity ν]

end Environment

/-- A loop whose selection reads a variable given from outside. -/
def QuantifiedDraft.outward : QuantifiedDraft where
  left := ⟨"a", "n"⟩
  right := ⟨"b", "m"⟩
  relationships := [⟨"r", "n", "m", .outgoing, [], .simple⟩]
  repetition := .oneOrMore
  nodeGroupings := []
  relationshipGroupings := [⟨"r", "r"⟩]
  selections := [.equals (.property "n" "x") (.reference "p")]
  groupByName := false

namespace MatchGraph

/-- A clause of one loop after other clauses. -/
def following (arguments : NameSet) : MatchGraph where
  nodes := [⟨"a", []⟩, ⟨"b", []⟩]
  connections := [.quantified QuantifiedDraft.outward.pattern]
  selections := []
  arguments := arguments
  required := ∅
  distinctEndpoints := false

end MatchGraph

/-! Statistics. -/

namespace Environment

variable {ν : Type} {faults : PlanningError → Prop} {graph : MatchGraph} [Quantity ν]

end Environment

/-! The default cost model in exact numbers. -/

instance : Quantity Rat where
  ofNat value := value
  power base exponent := base ^ exponent
  less first second := decide (first < second)
  equal first second := decide (first = second)
  sortsBefore first second := decide (first ≤ second)
  finite _ := true
  text value := toString value
  fixed _ value := toString value

/-- Ten nodes, so many relationships of one type, and so many of another. -/
def Statistics.counts (former latter : Nat) : Statistics Rat where
  totalNodes := 10
  totalRelationships := former + latter
  nodeCounts := []
  relationshipCounts := [("R", former), ("S", latter)]
  propertySelectivity := []
  indexes := []

namespace MatchGraph

end MatchGraph

/-- A loop whose selection reads one of its ends. -/
def QuantifiedDraft.backward : QuantifiedDraft where
  left := ⟨"a", "n"⟩
  right := ⟨"b", "m"⟩
  relationships := [⟨"s", "n", "m", .outgoing, ["S"], .simple⟩]
  repetition := .oneOrMore
  nodeGroupings := []
  relationshipGroupings := [⟨"s", "s"⟩]
  selections := [.equals (.property "n" "x") (.property "b" "x")]
  groupByName := false

/-- A clause in which a relationship leads up to such a loop. -/
def MatchGraph.leading : MatchGraph where
  nodes := [⟨"c", []⟩, ⟨"a", []⟩, ⟨"b", []⟩]
  connections := [.relationship ⟨"r", "c", "a", .outgoing, ["R"], .simple⟩, .quantified QuantifiedDraft.backward.pattern]
  selections := []
  arguments := ∅
  required := ∅
  distinctEndpoints := false

end MatchPlanner
