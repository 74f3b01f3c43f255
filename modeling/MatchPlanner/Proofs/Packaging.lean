import MatchPlanner.Proofs.Threading

/-! Packaging of predicates. A clause may spread its predicates over selections and conjunctions as it likes: the planner asks for
their atoms only. So a clause is planned exactly as it is with every conjunction taken apart, and two clauses with the same atoms
are planned alike, down to the ids, the attributes and the trace. -/

namespace MatchPlanner

namespace Expression

theorem conjuncts_flatMap (expression : Expression) : expression.conjuncts.flatMap conjuncts = expression.conjuncts := by
  fun_induction conjuncts with
  | case1 left right former latter => rw [List.flatMap_append, former, latter]
  | case2 atom other => rw [List.flatMap_singleton, conjuncts.eq_2 _ other]

/-- Atoms cannot be taken apart any further. -/
theorem atoms_flatMap (predicates : List Expression) :
    (predicates.flatMap conjuncts).flatMap conjuncts = predicates.flatMap conjuncts := by
  rw [List.flatMap_assoc]
  exact congrArg predicates.flatMap (funext conjuncts_flatMap)

end Expression

/-! Taking conjunctions apart. -/

def QuantifiedPattern.unpacked (pattern : QuantifiedPattern) : QuantifiedPattern :=
  { pattern with selections := pattern.selectionAtoms }

def Connection.unpacked : Connection → Connection
  | .relationship pattern => .relationship pattern
  | .quantified pattern => .quantified pattern.unpacked

/-- The clause with one selection for every atom, in the order of the atoms. -/
def MatchGraph.unpacked (graph : MatchGraph) : MatchGraph :=
  { graph with connections := graph.connections.map Connection.unpacked, selections := graph.whereAtoms }

/-- Two clauses differ at most in how their predicates, and those of their quantified patterns, are packed into selections and
conjunctions. -/
def MatchGraph.Repacks (first second : MatchGraph) : Prop := first.unpacked = second.unpacked

def QuantifiedRequest.unpacked (request : QuantifiedRequest) : QuantifiedRequest :=
  { request with pattern := request.pattern.unpacked }

def Environment.unpackedAt (connections : List (Nat × Connection)) : List (Nat × Connection) :=
  connections.map fun other => (other.1, other.2.unpacked)

def GrowthSearch.unpacked {ν : Type} (search : GrowthSearch ν) : GrowthSearch ν :=
  { search with best := search.best.map fun found => (found.1, found.2.1.unpacked, found.2.2) }

/-! What the planner asks of a pattern or a clause does not change. -/

theorem QuantifiedPattern.classify_unpacked (pattern : QuantifiedPattern) : pattern.unpacked.classify = pattern.classify := by
  funext outer bound
  have atoms : pattern.unpacked.selectionAtoms = pattern.selectionAtoms := Expression.atoms_flatMap pattern.selections
  unfold classify
  rw [atoms]
  rfl

theorem QuantifiedPattern.site_unpacked (pattern : QuantifiedPattern) (graph : MatchGraph) (index : Nat) (bound : NameSet)
    (ledger : Ledger) : pattern.unpacked.site graph.unpacked index bound ledger =
      { pattern.site graph index bound ledger with request := (pattern.site graph index bound ledger).request.unpacked } := rfl

namespace Connection

variable (connection : Connection)

@[simp] theorem left_unpacked : connection.unpacked.left = connection.left := by cases connection <;> rfl

@[simp] theorem right_unpacked : connection.unpacked.right = connection.right := by cases connection <;> rfl

@[simp] theorem exposed_unpacked : connection.unpacked.exposed = connection.exposed := by cases connection <;> rfl

@[simp] theorem render_unpacked : connection.unpacked.render = connection.render := by cases connection <;> rfl

@[simp] theorem isQuantified_unpacked : connection.unpacked.isQuantified = connection.isQuantified := by cases connection <;> rfl

@[simp] theorem producers_unpacked (index : Nat) : connection.unpacked.producers index = connection.producers index := by
  cases connection <;> rfl

end Connection

namespace MatchGraph

variable (graph : MatchGraph)

theorem atoms_unpacked : graph.unpacked.atoms = graph.atoms :=
  congrArg (graph.labelAtoms ++ ·) (Expression.atoms_flatMap graph.selections)

theorem checkConnections_unpacked (nodes seen : List String) (connections : List Connection) :
    checkConnections nodes seen (connections.map Connection.unpacked) = checkConnections nodes seen connections := by
  induction connections generalizing seen with
  | nil => rfl
  | cons connection rest step =>
    simp only [List.map_cons, checkConnections, Connection.left_unpacked, Connection.right_unpacked, Connection.exposed_unpacked,
      Connection.render_unpacked, step]

theorem validate_unpacked : graph.unpacked.validate = graph.validate := by
  have checked := checkConnections_unpacked graph.nodeNames [] graph.connections
  unfold validate
  rw [← checked]
  rfl

theorem producers_unpacked : graph.unpacked.producers = graph.producers := by
  simp only [producers, unpacked, List.zipIdx_map, List.flatMap_map, Prod.map, Connection.producers_unpacked, id]

theorem obligations_unpacked : graph.unpacked.obligations = graph.obligations :=
  congrArg UniquenessObligation.ofProducers graph.producers_unpacked

theorem componentLabels_unpacked : graph.unpacked.componentLabels = graph.componentLabels := by
  have connects (labels : List Nat) (connection : Connection) :
      graph.unpacked.connect labels connection.unpacked = graph.connect labels connection := by
    simp only [connect, Connection.left_unpacked, Connection.right_unpacked]
    rfl
  unfold componentLabels
  change (graph.connections.map Connection.unpacked).foldl _ _ = _
  simp only [List.foldl_map, connects]
  rfl

theorem components_unpacked : graph.unpacked.components = graph.components := by
  have owner (connection : Connection) : graph.unpacked.ownerLabel? connection.unpacked = graph.ownerLabel? connection := by
    simp only [ownerLabel?, Connection.left_unpacked, componentLabels_unpacked]
    rfl
  have owned (label : Nat) :
      (graph.unpacked.connections.zipIdx.filter fun indexed => graph.unpacked.ownerLabel? indexed.1 == some label).map Prod.snd =
        (graph.connections.zipIdx.filter fun indexed => graph.ownerLabel? indexed.1 == some label).map Prod.snd := by
    change ((graph.connections.map Connection.unpacked).zipIdx.filter _).map Prod.snd = _
    simp only [List.zipIdx_map, List.filter_map, List.map_map, Function.comp_def, Prod.map, id, owner]
  simp only [components, componentLabels_unpacked, owned]
  rfl

end MatchGraph

theorem Ledger.ofGraph_unpacked (graph : MatchGraph) : ofGraph graph.unpacked = ofGraph graph := by
  simp only [ofGraph, MatchGraph.atoms_unpacked, MatchGraph.obligations_unpacked]

theorem GrowthSearch.offer_unpacked {ν : Type} [Quantity ν] (search : GrowthSearch ν) (index : Nat) (connection : Connection)
    (candidate : Candidate ν) :
    search.unpacked.offer index connection.unpacked candidate = (search.offer index connection candidate).unpacked := by
  obtain ⟨best, failure⟩ := search
  cases best with
  | none => rfl
  | some kept =>
    simp only [unpacked, offer, keepCheaper, Option.map_some, mk.injEq, and_true]
    split <;> rfl

/-! Nor does what the planner does. -/

namespace Environment

theorem connectionsAt_unpacked (graph : MatchGraph) (indices : List Nat) :
    connectionsAt graph.unpacked indices = unpackedAt (connectionsAt graph indices) := by
  simp only [connectionsAt, unpackedAt, MatchGraph.unpacked, List.map_filterMap, List.getElem?_map, Option.map_map,
    Function.comp_def]

variable {ν : Type} (environment : Environment ν) [Quantity ν] (graph : MatchGraph)

theorem planPattern_unpacked (source : Plan) (request : QuantifiedRequest) :
    environment.planPattern source request.unpacked = environment.planPattern source request := by
  have sorted : request.unpacked.pattern.classify request.unpacked.outer source.available =
      request.pattern.classify request.outer source.available := by
    change request.pattern.unpacked.classify request.outer source.available = _
    rw [QuantifiedPattern.classify_unpacked]
  dsimp only [planPattern]
  rw [sorted]
  rfl

theorem expand_unpacked (index : Nat) (connection : Connection) (input : Plan) (ledger : Ledger) :
    environment.expand graph.unpacked index connection.unpacked input ledger =
      environment.expand graph index connection input ledger := by
  cases connection with
  | relationship relationship => rfl
  | quantified pattern =>
    unfold expand Connection.unpacked
    simp only [QuantifiedPattern.site_unpacked, planPattern_unpacked]
    rfl

theorem endpointStart_unpacked (index : Nat) (connection : Connection) (ledger : Ledger) (best : Option (Candidate ν))
    (endpoints : List String) :
    environment.endpointStart graph.unpacked index connection.unpacked ledger best endpoints =
      environment.endpointStart graph index connection ledger best endpoints := by
  induction endpoints generalizing best with
  | nil => rfl
  | cons endpoint rest step => simp only [endpointStart, expand_unpacked, step]

theorem connectionStart_unpacked (index : Nat) (connection : Connection) (ledger : Ledger) :
    environment.connectionStart graph.unpacked index connection.unpacked ledger =
      environment.connectionStart graph index connection ledger := by
  have cartesian : environment.cartesianStart graph.unpacked index connection.unpacked ledger =
      environment.cartesianStart graph index connection ledger := by
    simp only [cartesianStart, Connection.left_unpacked, Connection.right_unpacked, expand_unpacked]
  simp only [connectionStart, crosses, Connection.left_unpacked, Connection.right_unpacked, Connection.isQuantified_unpacked,
    endpointStart_unpacked, cartesian]
  rfl

theorem cheapestStart_unpacked (ledger : Ledger) (best : Option (Candidate ν)) (connections : List (Nat × Connection)) :
    environment.cheapestStart graph.unpacked ledger best (unpackedAt connections) =
      environment.cheapestStart graph ledger best connections := by
  unfold unpackedAt
  induction connections generalizing best with
  | nil => rfl
  | cons first rest step => simp only [List.map_cons, cheapestStart, connectionStart_unpacked, step]

theorem chooseStart_unpacked (component : Component) (ledger : Ledger) :
    environment.chooseStart graph.unpacked component ledger = environment.chooseStart graph component ledger := by
  unfold chooseStart
  rw [connectionsAt_unpacked]
  cases connectionsAt graph component.connections with
  | nil => rfl
  | cons first rest =>
    have started := environment.cheapestStart_unpacked graph ledger none (first :: rest)
    simp only [unpackedAt, List.map_cons] at started
    simp only [unpackedAt, List.map_cons, started, Connection.left_unpacked, expand_unpacked]
    rfl

theorem growThrough_unpacked (plan : Plan) (ledger : Ledger) (search : GrowthSearch ν) (index : Nat) (connection : Connection) :
    environment.growThrough graph.unpacked plan ledger search.unpacked index connection.unpacked =
      GrowthSearch.unpacked <$> environment.growThrough graph plan ledger search index connection := by
  unfold growThrough
  simp only [expand_unpacked, map_bind]
  refine bind_congr fun _ => bind_congr fun outcome => ?_
  cases connection with
  | quantified pattern =>
    cases outcome with
    | ok candidate => exact congrArg (pure (f := Planning ν)) (search.offer_unpacked index (.quantified pattern) candidate)
    | error error => rfl
  | relationship relationship =>
    have offers (search : GrowthSearch ν) := search.offer_unpacked index (.relationship relationship)
    simp only [Connection.unpacked] at offers ⊢
    cases outcome with
    | ok candidate =>
      simp only [pure_bind, map_bind]
      refine bind_congr fun joined => ?_
      cases joined with
      | none => exact congrArg (pure (f := Planning ν)) (offers search candidate)
      | some other =>
        rw [map_pure, ← offers, ← offers]
    | error error =>
      simp only [pure_bind, map_bind]
      refine bind_congr fun joined => ?_
      cases joined with
      | none => rfl
      | some other => exact congrArg (pure (f := Planning ν)) (offers (search.fail error) other)

theorem cheapestGrowth_unpacked (plan : Plan) (ledger : Ledger) (search : GrowthSearch ν) (connections : List (Nat × Connection)) :
    environment.cheapestGrowth graph.unpacked plan ledger search.unpacked (unpackedAt connections) =
      GrowthSearch.unpacked <$> environment.cheapestGrowth graph plan ledger search connections := by
  unfold unpackedAt
  induction connections generalizing search with
  | nil => rfl
  | cons first rest step =>
    simp only [List.map_cons, cheapestGrowth, Connection.left_unpacked, Connection.right_unpacked, growThrough_unpacked]
    split
    · simp only [bind_map_left, map_bind, step]
    · exact step search

theorem grow_unpacked (component : Component) (rounds steps : Nat) (current : Candidate ν) (remaining : List (Nat × Connection)) :
    environment.grow graph.unpacked component rounds steps current (unpackedAt remaining) =
      environment.grow graph component rounds steps current remaining := by
  induction rounds generalizing steps current remaining with
  | zero => rfl
  | succ rounds step =>
    have empty : (unpackedAt remaining).isEmpty = remaining.isEmpty := List.isEmpty_map
    have searched := environment.cheapestGrowth_unpacked graph current.plan current.remaining .none remaining
    change environment.cheapestGrowth graph.unpacked current.plan current.remaining .none (unpackedAt remaining) = _ at searched
    have others (index : Nat) : (unpackedAt remaining).filter (fun other => other.1 != index) =
        unpackedAt (remaining.filter fun other => other.1 != index) := List.filter_map
    have phase (connection : Connection) : growthPhase connection.unpacked = growthPhase connection := by cases connection <;> rfl
    simp only [grow, empty, searched, bind_map_left, others, step]
    -- With or without a look at the cancellation request, the round goes on from the same search.
    refine ite_congr rfl (fun _ => rfl) fun _ => ite_congr rfl (fun _ => bind_congr fun _ => ?_) fun _ => ?_ <;>
    · refine bind_congr fun search => ?_
      obtain ⟨best, failure⟩ := search
      cases best with
      | none => rfl
      | some found => simp only [GrowthSearch.unpacked, Option.map_some, phase]

theorem planComponent_unpacked (component : Component) (steps : Nat) (ledger : Ledger) :
    environment.planComponent graph.unpacked component steps ledger = environment.planComponent graph component steps ledger := by
  have length : (unpackedAt (connectionsAt graph component.connections)).length =
      (connectionsAt graph component.connections).length := List.length_map _
  have others (start : Candidate ν) :
      (unpackedAt (connectionsAt graph component.connections)).filter (fun other => some other.1 != start.connection) =
        unpackedAt ((connectionsAt graph component.connections).filter fun other => some other.1 != start.connection) :=
    List.filter_map
  simp only [planComponent, chooseStart_unpacked, connectionsAt_unpacked, length, others, grow_unpacked]

theorem planComponents_unpacked (steps : Nat) (ledger : Ledger) (components : List Component) :
    environment.planComponents graph.unpacked steps ledger components = environment.planComponents graph steps ledger components := by
  induction components generalizing steps ledger with
  | nil => rfl
  | cons component rest step => simp only [planComponents, planComponent_unpacked, step]

theorem compose_unpacked : environment.compose graph.unpacked = environment.compose graph := by
  simp only [compose, MatchGraph.components_unpacked, Ledger.ofGraph_unpacked, planComponents_unpacked]
  rfl

theorem plan_unpacked : environment.plan graph.unpacked = environment.plan graph := by
  simp only [plan, planRoot, MatchGraph.validate_unpacked, compose_unpacked]

variable {graph} {other : MatchGraph}

/-- Whatever the planner, clauses with the same atoms have the same outcome from every session: the same failure, or the same plan
with the same arena and the same trace. -/
theorem plan_repacked (repacks : graph.Repacks other) : environment.plan graph = environment.plan other := by
  rw [← environment.plan_unpacked graph, ← environment.plan_unpacked other, repacks]

end Environment

/-! A clause with a loop; there are two predicates for the loop and two for its ends. -/

namespace MatchGraph

def packed (pack : Expression → Expression → List Expression) : MatchGraph where
  nodes := [⟨"a", ["A"]⟩, ⟨"b", []⟩]
  connections := [.quantified { QuantifiedDraft.short.pattern with
    selections := pack (.equals (.property "n" "x") (.property "m" "x")) (.property "r" "y") }]
  selections := pack (.property "a" "x") (.equals (.property "a" "x") (.property "b" "x"))
  arguments := ∅
  required := ∅
  distinctEndpoints := false

/-- One conjunction is planned like two selections. -/
theorem packed_alike : (packed fun first second => [.binary .and first second]).Repacks (packed fun first second => [first, second]) ∧
    ∃ query after, Environment.counting.plan (packed fun first second => [.binary .and first second]) (.initial false) = .ok query after ∧
      Environment.counting.plan (packed fun first second => [first, second]) (.initial false) = .ok query after := by
  have same : (packed fun first second => [.binary .and first second]).Repacks (packed fun first second => [first, second]) := rfl
  have returns : Environment.counting.returns (packed fun first second => [first, second]) (fun _ => true) = true := by decide +kernel
  obtain ⟨query, after, ran, -⟩ := Environment.returns_ok returns
  exact ⟨same, query, after, (congrFun (Environment.plan_repacked Environment.counting same) _).trans ran, ran⟩

end MatchGraph

end MatchPlanner
