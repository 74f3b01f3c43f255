import Mathlib.Data.List.Forall2
import MatchPlanner.Proofs.Construction

/-! Other type lists in the place of those of a clause. Everything a clause says apart from them stays as it is; and wherever the
lists it is given instead have the same members, so does every set of types, and with it everything that tells which relationships two
patterns could share. -/

namespace MatchPlanner

theorem map_eq_of_forall₂ {α β γ : Type} {related : α → β → Prop} {former : α → γ} {latter : β → γ} {first : List α} {second : List β}
    (pairs : List.Forall₂ related first second) (agree : ∀ one other, related one other → former one = latter other) :
    first.map former = second.map latter :=
  List.forall₂_eq_eq_eq ▸ List.rel_map (fun _ _ same => agree _ _ same) pairs

theorem forall₂_zipIdx {α β : Type} {related : α → β → Prop} {first : List α} {second : List β}
    (pairs : List.Forall₂ related first second) (start : Nat) :
    List.Forall₂ (fun one other => related one.1 other.1 ∧ one.2 = other.2) (first.zipIdx start) (second.zipIdx start) := by
  induction pairs generalizing start with
  | nil => exact .nil
  | cons same _ step => exact .cons ⟨same, rfl⟩ (step (start + 1))

theorem getElem?_of_forall₂ {α β : Type} {related : α → β → Prop} {first : List α} {second : List β}
    (pairs : List.Forall₂ related first second) (index : Nat) : Option.Rel related first[index]? second[index]? := by
  induction pairs generalizing index with
  | nil => exact .none
  | cons same _ step =>
    cases index with
    | zero => exact .some same
    | succ index => exact step index

/-- Lists that are sorted by what their elements have in common stay related. -/
theorem forall₂_mergeSort {α β : Type} {related : α → β → Prop} {before : α → α → Bool} {before' : β → β → Bool} {first : List α}
    {second : List β} (pairs : List.Forall₂ related first second)
    (agree : ∀ one one' other other', related one one' → related other other' → before one other = before' one' other') :
    List.Forall₂ related (first.mergeSort before) (second.mergeSort before') := by
  have related_zip : ∀ pair ∈ first.zip second, related pair.1 pair.2 := fun _ member => List.forall₂_zip pairs member
  have firsts : (first.zip second).map Prod.fst = first := List.map_fst_zip (Nat.le_of_eq pairs.length_eq)
  have seconds : (first.zip second).map Prod.snd = second := List.map_snd_zip (Nat.le_of_eq pairs.length_eq.symm)
  -- Both lists are sorted as the list of their pairs is.
  have sorted : ((first.zip second).mergeSort fun one other => before one.1 other.1).map Prod.fst = first.mergeSort before := by
    have commutes := List.map_mergeSort (r := fun one other => before one.1 other.1) (s := before) (f := Prod.fst)
      (l := first.zip second) fun _ _ _ _ => rfl
    rw [commutes, firsts]
  have sorted' : ((first.zip second).mergeSort fun one other => before one.1 other.1).map Prod.snd = second.mergeSort before' := by
    rw [List.map_mergeSort fun one member other member' => agree _ _ _ _ (related_zip one member) (related_zip other member'), seconds]
  rw [← sorted, ← sorted', List.forall₂_map_left_iff, List.forall₂_map_right_iff, List.forall₂_same]
  exact fun pair member => related_zip pair (List.mem_mergeSort.mp member)

/-! What is retyped keeps everything but its type lists, which become `alike` ones. -/

section

variable (alike : List String → List String → Prop)

inductive PatternRelationship.Retypes : PatternRelationship → PatternRelationship → Prop where
  | mk (relationship : PatternRelationship) {types : List String} (same : alike relationship.types types) :
    PatternRelationship.Retypes relationship { relationship with types := types }

inductive QuantifiedPattern.Retypes : QuantifiedPattern → QuantifiedPattern → Prop where
  | mk (pattern : QuantifiedPattern) {relationships : List PatternRelationship}
    (same : List.Forall₂ (PatternRelationship.Retypes alike) pattern.relationships relationships) :
    QuantifiedPattern.Retypes pattern { pattern with relationships := relationships }

inductive Connection.Retypes : Connection → Connection → Prop where
  | relationship {pattern pattern' : PatternRelationship} (same : pattern.Retypes alike pattern') :
    Connection.Retypes (.relationship pattern) (.relationship pattern')
  | quantified {pattern pattern' : QuantifiedPattern} (same : pattern.Retypes alike pattern') :
    Connection.Retypes (.quantified pattern) (.quantified pattern')

inductive MatchGraph.Retypes : MatchGraph → MatchGraph → Prop where
  | mk (graph : MatchGraph) {connections : List Connection}
    (same : List.Forall₂ (Connection.Retypes alike) graph.connections connections) :
    MatchGraph.Retypes graph { graph with connections := connections }

inductive Hop.Retypes : Hop → Hop → Prop where
  | mk (hop : Hop) {types : List String} (same : alike hop.types types) : Hop.Retypes hop { hop with types := types }

inductive Step.Retypes : Step → Step → Prop where
  | expand {hop hop' : Hop} (relationship : String) (mode : ExpansionMode) (same : hop.Retypes alike hop') :
    Step.Retypes (.expand hop relationship mode) (.expand hop' relationship mode)
  | varLengthExpand {hop hop' : Hop} (relationship : String) (range : Repetition)
    (nodePredicates relationshipPredicates : List VariablePredicate) (mode : ExpansionMode) (same : hop.Retypes alike hop') :
    Step.Retypes (.varLengthExpand hop relationship range nodePredicates relationshipPredicates mode)
      (.varLengthExpand hop' relationship range nodePredicates relationshipPredicates mode)
  | pruningVarExpand {hop hop' : Hop} (least most : Nat) (nodePredicates relationshipPredicates : List VariablePredicate)
    (same : hop.Retypes alike hop') :
    Step.Retypes (.pruningVarExpand hop least most nodePredicates relationshipPredicates)
      (.pruningVarExpand hop' least most nodePredicates relationshipPredicates)
  | bfsPruningVarExpand {hop hop' : Hop} (includeStart : Bool) (most : UpperBound)
    (nodePredicates relationshipPredicates : List VariablePredicate) (same : hop.Retypes alike hop') :
    Step.Retypes (.bfsPruningVarExpand hop includeStart most nodePredicates relationshipPredicates)
      (.bfsPruningVarExpand hop' includeStart most nodePredicates relationshipPredicates)
  | filter (predicates : List Expression) : Step.Retypes (.filter predicates) (.filter predicates)
  | eager (reasons : List EagerReason) : Step.Retypes (.eager reasons) (.eager reasons)

inductive Plan.Retypes : Plan → Plan → Prop where
  | leaf (id : PlanId) (operator : Leaf) : Plan.Retypes (.leaf id operator) (.leaf id operator)
  | step (id : PlanId) {operator operator' : Step} {input input' : Plan} (same : operator.Retypes alike operator')
    (below : Plan.Retypes input input') : Plan.Retypes (.step id operator input) (.step id operator' input')
  | trail (id : PlanId) (parameters : TrailParameters) {input input' inner inner' : Plan} (below : Plan.Retypes input input')
    (inside : Plan.Retypes inner inner') : Plan.Retypes (.trail id parameters input inner) (.trail id parameters input' inner')
  | join (id : PlanId) (operator : Join) {left left' right right' : Plan} (former : Plan.Retypes left left')
    (latter : Plan.Retypes right right') : Plan.Retypes (.join id operator left right) (.join id operator left' right')

structure TrailStep.Retypes (step step' : TrailStep) : Prop where
  relationship : step.relationship = step'.relationship
  hop : step.hop.Retypes alike step'.hop

/-- A connection with its index. -/
structure Connection.RetypesAt (indexed indexed' : Nat × Connection) : Prop where
  index : indexed.1 = indexed'.1
  connection : indexed.2.Retypes alike indexed'.2

end

/-- The two lists name the same types. -/
def NamesAlike (types types' : List String) : Prop := ∀ type, type ∈ types ↔ type ∈ types'

/-- Alike lists name the same types. -/
def SameMembers (alike : List String → List String → Prop) : Prop := ∀ types types', alike types types' → NamesAlike types types'

variable {alike : List String → List String → Prop}

/-! Sets of types. -/

theorem isEmpty_congr {types types' : List String} (same : NamesAlike types types') :
    types.isEmpty = types'.isEmpty := by
  have none : types = [] ↔ types' = [] := by
    rw [List.eq_nil_iff_forall_not_mem, List.eq_nil_iff_forall_not_mem]
    exact forall_congr' fun type => not_congr (same type)
  rw [Bool.eq_iff_iff, List.isEmpty_iff, List.isEmpty_iff, none]

theorem TypeSet.ofList_congr {types types' : List String} (same : NamesAlike types types') :
    ofList types = ofList types' := by
  have empty := isEmpty_congr same
  have sets : NameSet.ofList types = NameSet.ofList types' := NameSet.ext fun type => by rw [NameSet.mem_ofList, NameSet.mem_ofList, same]
  rw [ofList, ofList, empty, sets]

namespace PatternRelationship.Retypes

variable {relationship relationship' : PatternRelationship}

theorem name (retypes : relationship.Retypes alike relationship') : relationship.name = relationship'.name := by
  cases retypes; rfl

theorem right (retypes : relationship.Retypes alike relationship') : relationship.right = relationship'.right := by
  cases retypes; rfl

theorem typeSet (retypes : relationship.Retypes alike relationship') (members : SameMembers alike) :
    relationship.typeSet = relationship'.typeSet := by
  obtain ⟨same⟩ := retypes
  exact TypeSet.ofList_congr (members _ _ same)

theorem orientation (retypes : relationship.Retypes alike relationship') (bound : NameSet) :
    relationship.orientation bound = relationship'.orientation bound := by
  cases retypes; rfl

theorem hop (retypes : relationship.Retypes alike relationship') (source target : String) :
    (relationship.hop source target).Retypes alike (relationship'.hop source target) := by
  obtain ⟨same⟩ := retypes
  exact .mk (relationship.hop source target) same

theorem step (retypes : relationship.Retypes alike relationship') {hop hop' : Hop} (same : hop.Retypes alike hop')
    (mode : ExpansionMode) : (relationship.step hop mode).Retypes alike (relationship'.step hop' mode) := by
  obtain ⟨_⟩ := retypes
  obtain ⟨name, left, right, direction, types, length⟩ := relationship
  cases length with
  | simple => exact .expand _ _ same
  | path range => exact .varLengthExpand _ _ _ _ _ same

end PatternRelationship.Retypes

/-- The relationships of a chain, taken together. -/
theorem types_of_retypes (members : SameMembers alike) {first second : List PatternRelationship}
    (same : List.Forall₂ (PatternRelationship.Retypes alike) first second) :
    (first.any fun relationship => relationship.types.isEmpty) = (second.any fun relationship => relationship.types.isEmpty) ∧
      NamesAlike (first.flatMap PatternRelationship.types) (second.flatMap PatternRelationship.types) := by
  induction same with
  | nil => exact ⟨rfl, fun _ => Iff.rfl⟩
  | cons retypes _ further =>
    obtain ⟨same⟩ := retypes
    have named := members _ _ same
    refine ⟨?_, fun type => ?_⟩
    · rw [List.any_cons, List.any_cons, further.1, isEmpty_congr named]
    · rw [List.flatMap_cons, List.flatMap_cons, List.mem_append, List.mem_append, named, further.2]

/-! Quantified patterns. -/

namespace TrailStep.Retypes

variable {step step' : TrailStep}

theorem typeSet (retypes : step.Retypes alike step') (members : SameMembers alike) : step.typeSet = step'.typeSet := by
  obtain ⟨relationship, hop⟩ := step
  obtain ⟨relationship', hop'⟩ := step'
  obtain ⟨rfl, ⟨same⟩⟩ := retypes
  exact TypeSet.ofList_congr (members _ _ same)

theorem reversed (retypes : step.Retypes alike step') : step.reversed.Retypes alike step'.reversed := by
  obtain ⟨relationship, hop⟩ := step
  obtain ⟨relationship', hop'⟩ := step'
  obtain ⟨rfl, ⟨same⟩⟩ := retypes
  exact ⟨rfl, .mk (TrailStep.reversed ⟨relationship, hop⟩).hop same⟩

/-- The checks of a step are the same. -/
theorem uniquenessChecks (retypes : step.Retypes alike step') (members : SameMembers alike) {earlier earlier' : List TrailStep}
    (before : List.Forall₂ (TrailStep.Retypes alike) earlier earlier') (siblings : List RelationshipProducer) :
    step.uniquenessChecks earlier siblings = step'.uniquenessChecks earlier' siblings := by
  have types := retypes.typeSet members
  have against : step.checksAgainstSteps earlier = step'.checksAgainstSteps earlier' := by
    simp only [checksAgainstSteps, types, retypes.relationship]
    induction before with
    | nil => rfl
    | cons same _ further =>
      rw [List.filter_cons, List.filter_cons, same.typeSet members]
      split
      · rw [List.map_cons, List.map_cons, same.relationship, further]
      · exact further
  have beside (sibling : RelationshipProducer) : step.checkAgainst sibling = step'.checkAgainst sibling := by
    simp only [checkAgainst, retypes.relationship]
  have siblings_eq : step.checksAgainstSiblings siblings = step'.checksAgainstSiblings siblings := by
    simp only [checksAgainstSiblings, types, funext beside]
  simp only [TrailStep.uniquenessChecks, repeatCheck, retypes.relationship, against, siblings_eq]

end TrailStep.Retypes

namespace QuantifiedPattern.Retypes

variable {pattern pattern' : QuantifiedPattern}

theorem relationshipNames (retypes : pattern.Retypes alike pattern') : pattern.relationshipNames = pattern'.relationshipNames := by
  obtain ⟨same⟩ := retypes
  exact map_eq_of_forall₂ same fun _ _ each => each.name

theorem innerVariables (retypes : pattern.Retypes alike pattern') : pattern.innerVariables = pattern'.innerVariables := by
  have names := retypes.relationshipNames
  obtain ⟨same⟩ := retypes
  have rights := map_eq_of_forall₂ same fun _ _ each => each.right
  rw [QuantifiedPattern.innerVariables, QuantifiedPattern.innerVariables, names, innerNodes, nodesAlong, rights]
  rfl

theorem isSingle (retypes : pattern.Retypes alike pattern') : pattern.isSingle = pattern'.isSingle := by
  obtain ⟨same⟩ := retypes
  rw [QuantifiedPattern.isSingle, same.length_eq]
  rfl

theorem typeSet (retypes : pattern.Retypes alike pattern') (members : SameMembers alike) : pattern.typeSet = pattern'.typeSet := by
  rcases retypes with @⟨relationships, same⟩
  obtain ⟨untyped, types⟩ := types_of_retypes members same
  have sets : NameSet.ofList (pattern.relationships.flatMap PatternRelationship.types) =
      NameSet.ofList (relationships.flatMap PatternRelationship.types) :=
    NameSet.ext fun type => by rw [NameSet.mem_ofList, NameSet.mem_ofList, types]
  rw [QuantifiedPattern.typeSet, QuantifiedPattern.typeSet, untyped, sets]

theorem steps (retypes : pattern.Retypes alike pattern') (direction : TraversalDirection) :
    List.Forall₂ (TrailStep.Retypes alike) (pattern.steps direction) (pattern'.steps direction) := by
  obtain ⟨same⟩ := retypes
  have forward : List.Forall₂ (TrailStep.Retypes alike) pattern.forwardSteps
      (QuantifiedPattern.forwardSteps { pattern with relationships := _ }) :=
    List.rel_map (fun one other retyped => by
      obtain ⟨same⟩ := retyped
      exact ⟨rfl, .mk ⟨_, _, _, _⟩ same⟩) same
  cases direction with
  | forward => exact forward
  | reversed => exact List.rel_map (fun _ _ step => TrailStep.Retypes.reversed step) (List.rel_reverse forward)

theorem classify (retypes : pattern.Retypes alike pattern') : pattern.classify = pattern'.classify := by
  have names := retypes.relationshipNames
  have inner := retypes.innerVariables
  have classes : pattern.classifyAtom = pattern'.classifyAtom := by
    funext atom
    simp only [classifyAtom, names, inner]
  funext outer bound
  unfold QuantifiedPattern.classify
  rw [classes]
  obtain ⟨_⟩ := retypes
  rfl

end QuantifiedPattern.Retypes

/-! The requests for a pattern and for a loop over it. -/

section

variable (alike)

inductive QuantifiedRequest.Retypes : QuantifiedRequest → QuantifiedRequest → Prop where
  | mk (request : QuantifiedRequest) {pattern : QuantifiedPattern} (same : request.pattern.Retypes alike pattern) :
    QuantifiedRequest.Retypes request { request with pattern := pattern }

inductive TrailRequest.Retypes : TrailRequest → TrailRequest → Prop where
  | mk (request : TrailRequest) {pattern : QuantifiedPattern} (same : request.pattern.Retypes alike pattern) :
    TrailRequest.Retypes request { request with pattern := pattern }

end

theorem TrailRequest.Retypes.parameters {request request' : TrailRequest} (retypes : request.Retypes alike request')
    (members : SameMembers alike) : request.parameters = request'.parameters := by
  obtain ⟨same⟩ := retypes
  have names := same.relationshipNames
  have types := same.typeSet members
  rcases same with @⟨relationships, same⟩
  funext finish
  unfold TrailRequest.parameters TrailRequest.boundNames TrailRequest.clashing
  rw [names, types]
  rfl

namespace QuantifiedRequest.Retypes

variable {request request' : QuantifiedRequest}

theorem sorted (retypes : request.Retypes alike request') (source : Plan) : request.sorted source = request'.sorted source := by
  obtain ⟨same⟩ := retypes
  rw [QuantifiedRequest.sorted, QuantifiedRequest.sorted, same.classify]

theorem needs (retypes : request.Retypes alike request') (source : Plan) : request.needs source = request'.needs source := by
  have sorted := retypes.sorted source
  obtain ⟨⟨same⟩⟩ := retypes
  rw [QuantifiedRequest.needs, QuantifiedRequest.needs, sorted]
  rfl

theorem collapses (retypes : request.Retypes alike request') (config : PlannerConfig) :
    request.collapses config = request'.collapses config := by
  obtain ⟨same⟩ := retypes
  funext classification needed
  rw [QuantifiedRequest.collapses, same.isSingle]
  obtain ⟨same⟩ := same
  rfl

theorem directions (retypes : request.Retypes alike request') : request.directions = request'.directions := by
  obtain ⟨⟨same⟩⟩ := retypes
  rfl

theorem hop (retypes : request.Retypes alike request') {relationship relationship' : PatternRelationship}
    (same : relationship.Retypes alike relationship') (direction : TraversalDirection) :
    (request.hop relationship direction).Retypes alike (request'.hop relationship' direction) := by
  obtain ⟨⟨_⟩⟩ := retypes
  obtain ⟨same⟩ := same
  cases direction with
  | forward => exact .mk (request.hop relationship .forward) same
  | reversed => exact .mk (request.hop relationship .reversed) same

theorem expansion (retypes : request.Retypes alike request') (config : PlannerConfig) {hop hop' : Hop} (same : hop.Retypes alike hop')
    (group : String) (predicates : List VariablePredicate) (prunes farBound : Bool) :
    (request.expansion config hop group predicates prunes farBound).Retypes alike
      (request'.expansion config hop' group predicates prunes farBound) := by
  obtain ⟨⟨_⟩⟩ := retypes
  unfold QuantifiedRequest.expansion
  dsimp only
  split
  · split
    · exact .bfsPruningVarExpand _ _ _ _ same
    · split
      · exact .pruningVarExpand _ _ _ _ same
      · exact .varLengthExpand _ _ _ _ _ same
  · exact .varLengthExpand _ _ _ _ _ same

end QuantifiedRequest.Retypes

/-! Connections and the clause. -/

namespace Connection.Retypes

variable {connection connection' : Connection}

theorem left (retypes : connection.Retypes alike connection') : connection.left = connection'.left := by
  obtain ⟨⟨_⟩⟩ | ⟨⟨_⟩⟩ := retypes <;> rfl

theorem right (retypes : connection.Retypes alike connection') : connection.right = connection'.right := by
  obtain ⟨⟨_⟩⟩ | ⟨⟨_⟩⟩ := retypes <;> rfl

theorem exposed (retypes : connection.Retypes alike connection') : connection.exposed = connection'.exposed := by
  obtain ⟨⟨_⟩⟩ | ⟨⟨_⟩⟩ := retypes <;> rfl

theorem isQuantified (retypes : connection.Retypes alike connection') : connection.isQuantified = connection'.isQuantified := by
  obtain ⟨_⟩ | ⟨_⟩ := retypes <;> rfl

theorem producers (retypes : connection.Retypes alike connection') (members : SameMembers alike) (index : Nat) :
    connection.producers index = connection'.producers index := by
  cases retypes with
  | relationship same =>
    have types := same.typeSet members
    obtain ⟨_⟩ := same
    rw [Connection.producers, types]
    rfl
  | @quantified pattern _ same =>
    rcases same with @⟨relationships, same⟩
    refine List.forall₂_eq_eq_eq ▸ List.rel_filterMap (P := Eq) (fun one other retyped => ?_) same
    rw [retyped.name, retyped.typeSet members]
    change Option.Rel Eq ((pattern.relationshipGroup? other.name).map _) ((pattern.relationshipGroup? other.name).map _)
    cases pattern.relationshipGroup? other.name with
    | none => exact .none
    | some group => exact .some rfl

end Connection.Retypes

/-- Which connections are kept is decided by their indices. -/
theorem Connection.RetypesAt.filter {connections connections' : List (Nat × Connection)}
    (retypes : List.Forall₂ (Connection.RetypesAt alike) connections connections') (keep : Nat → Bool) :
    List.Forall₂ (Connection.RetypesAt alike) (connections.filter fun other => keep other.1)
      (connections'.filter fun other => keep other.1) :=
  List.rel_filter (fun _ _ same => iff_of_eq (congrArg (keep · = true) same.index)) retypes

namespace MatchGraph.Retypes

variable {graph graph' : MatchGraph}

theorem producers (retypes : graph.Retypes alike graph') (members : SameMembers alike) : graph.producers = graph'.producers := by
  obtain ⟨same⟩ := retypes
  rw [MatchGraph.producers, MatchGraph.producers, List.flatMap_def, List.flatMap_def,
    map_eq_of_forall₂ (forall₂_zipIdx same 0) fun one other retyped => ?_]
  obtain ⟨connection, index⟩ := one
  obtain ⟨connection', index'⟩ := other
  obtain ⟨retyped, rfl⟩ := retyped
  exact retyped.producers members index

theorem ledger (retypes : graph.Retypes alike graph') (members : SameMembers alike) : Ledger.ofGraph graph = .ofGraph graph' := by
  have obligations : graph.obligations = graph'.obligations := congrArg UniquenessObligation.ofProducers (retypes.producers members)
  obtain ⟨same⟩ := retypes
  rw [Ledger.ofGraph, obligations]
  rfl

theorem componentLabels (retypes : graph.Retypes alike graph') : graph.componentLabels = graph'.componentLabels := by
  rcases retypes with @⟨connections, same⟩
  refine List.rel_foldl (P := Eq) (R := Connection.Retypes alike) (fun labels _ equal one other retyped => ?_) rfl same
  rw [connect, connect, retyped.left, retyped.right, equal]
  rfl

theorem components (retypes : graph.Retypes alike graph') : graph.components = graph'.components := by
  have labels := retypes.componentLabels
  rcases retypes with @⟨connections, same⟩
  have owner {connection connection' : Connection} (retyped : connection.Retypes alike connection') :
      graph.ownerLabel? connection = MatchGraph.ownerLabel? { graph with connections := connections } connection' := by
    rw [ownerLabel?, ownerLabel?, retyped.left, labels]
    rfl
  have owned (label : Nat) : (graph.connections.zipIdx.filter fun indexed => graph.ownerLabel? indexed.1 == some label).map Prod.snd =
      (connections.zipIdx.filter fun indexed =>
        MatchGraph.ownerLabel? { graph with connections := connections } indexed.1 == some label).map Prod.snd := by
    refine map_eq_of_forall₂ (List.rel_filter (fun one other retyped => ?_) (forall₂_zipIdx same 0)) fun _ _ retyped => retyped.2
    change (_ == _) = true ↔ (_ == _) = true
    rw [owner retyped.1]
  simp only [MatchGraph.components, labels, owned]
  rfl

theorem connectionsAt (retypes : graph.Retypes alike graph') (indices : List Nat) :
    List.Forall₂ (Connection.RetypesAt alike) (Environment.connectionsAt graph indices) (Environment.connectionsAt graph' indices) := by
  rcases retypes with @⟨connections, same⟩
  refine List.rel_filterMap (R := Eq) (fun index _ equal => ?_) (List.forall₂_eq_eq_eq ▸ rfl)
  subst equal
  have found := getElem?_of_forall₂ same index
  change Option.Rel _ (graph.connections[index]?.map _) (connections[index]?.map _)
  generalize graph.connections[index]? = one at found
  generalize connections[index]? = other at found
  cases found with
  | none => exact .none
  | some retyped => exact .some ⟨rfl, retyped⟩

theorem site (retypes : graph.Retypes alike graph') {pattern pattern' : QuantifiedPattern} (same : pattern.Retypes alike pattern')
    (index : Nat) (bound : NameSet) (ledger : Ledger) :
    (pattern.site graph index bound ledger).request.Retypes alike (pattern'.site graph' index bound ledger).request ∧
      (pattern.site graph index bound ledger).dischargeable = (pattern'.site graph' index bound ledger).dischargeable := by
  obtain ⟨_⟩ := retypes
  have retyped := same
  obtain ⟨_⟩ := same
  exact ⟨.mk (pattern.site graph index bound ledger).request retyped, rfl⟩

end MatchGraph.Retypes

/-! Plans. -/

theorem Step.Retypes.binds {step step' : Step} (retypes : step.Retypes alike step') : step.binds = step'.binds := by
  cases retypes with
  | expand _ _ same | varLengthExpand _ _ _ _ _ same | pruningVarExpand _ _ _ _ same | bfsPruningVarExpand _ _ _ _ same =>
    obtain ⟨_⟩ := same
    rfl
  | filter | eager => rfl

theorem Step.Retypes.kind {step step' : Step} (retypes : step.Retypes alike step') : step.kind = step'.kind := by
  cases retypes <;> rfl

namespace Plan.Retypes

variable {plan plan' : Plan}

theorem id (retypes : plan.Retypes alike plan') : plan.id = plan'.id := by cases retypes <;> rfl

theorem kind (retypes : plan.Retypes alike plan') : plan.kind = plan'.kind := by
  cases retypes with
  | step _ same _ => exact same.kind
  | leaf | trail | join => rfl

theorem available (retypes : plan.Retypes alike plan') : plan.available = plan'.available := by
  induction retypes with
  | leaf => rfl
  | step _ same _ input => rw [Plan.available, Plan.available, same.binds, input]
  | trail _ _ _ _ input => rw [Plan.available, Plan.available, input]
  | join _ _ _ _ former latter => rw [Plan.available, Plan.available, former, latter]

theorem orderFrom (retypes : plan.Retypes alike plan') (ordered : PlanId → ProvidedOrder) :
    plan.orderFrom ordered = plan'.orderFrom ordered := by
  cases retypes with
  | leaf => rfl
  | step _ _ below | trail _ _ below => exact congrArg ordered below.id
  | join _ operator former =>
    cases operator with
    | cartesianProduct => exact congrArg ordered former.id
    | nodeHashJoin => rfl

end Plan.Retypes

/-! Estimates. -/

section

variable {ν : Type} [Quantity ν] {statistics : Statistics ν}

/-- Alike lists stand for as many relationships. -/
def Statistics.SameWeight (statistics : Statistics ν) (alike : List String → List String → Prop) : Prop :=
  ∀ types types', alike types types' → statistics.relationshipCount types = statistics.relationshipCount types'

theorem CostModel.stepEstimate_retypes (model : CostModel ν) (weight : statistics.SameWeight alike) (source : Estimate ν)
    {step step' : Step} (retypes : step.Retypes alike step') :
    model.stepEstimate statistics source step = model.stepEstimate statistics source step' := by
  cases retypes with
  | expand _ _ same | varLengthExpand _ _ _ _ _ same | pruningVarExpand _ _ _ _ same | bfsPruningVarExpand _ _ _ _ same =>
    obtain ⟨same⟩ := same
    simp only [stepEstimate, traversedDegree, Statistics.averageDegree, weight _ _ same]
  | filter | eager => rfl

theorem CostModel.estimate_retypes (model : CostModel ν) (weight : statistics.SameWeight alike) {plan plan' : Plan}
    (retypes : plan.Retypes alike plan') : model.estimate statistics plan = model.estimate statistics plan' := by
  have expected : model.estimatePlan statistics plan = model.estimatePlan statistics plan' := by
    induction retypes with
    | leaf => rfl
    | step _ same _ input => rw [estimatePlan, estimatePlan, input, model.stepEstimate_retypes weight _ same]
    | trail _ _ _ _ input inner => rw [estimatePlan, estimatePlan, input, inner]
    | join _ _ _ _ former latter => rw [estimatePlan, estimatePlan, former, latter]
  rw [CostModel.estimate, CostModel.estimate, expected, retypes.id]

end

end MatchPlanner
