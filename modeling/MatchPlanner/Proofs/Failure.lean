import MatchPlanner.Proofs.Completeness

/-! How planning fails. What goes wrong is always the fault of the clause, the configuration, the estimator or the caller who cancels;
the planner itself never gets stuck. -/

namespace MatchPlanner

open Planning

/-- The failures that planning a graph may end in. A pattern is blamed only for what the check of the graph says against it, or when
there is nothing to start from. -/
def MatchGraph.Admits (graph : MatchGraph) : PlanningError → Prop
  | .invalidConfig _ | .estimation _ | .cancelled | .unsolvablePredicate _ _ => True
  | .malformedPattern fault => graph.validate = .error (.malformedPattern fault) ∨ graph.nodes = [] ∧ graph.arguments = ∅
  | .internal _ | .leafPlanning _ | .attributeAlreadySet _ _ | .unknownPlanId _ | .serialization _ => False

theorem PlannerConfig.validate_error {config : PlannerConfig} {error : PlanningError} (refused : config.validate = .error error) :
    error = .invalidConfig .zeroCheckInterval := by
  unfold validate at refused
  split at refused <;> cases refused
  rfl

theorem MatchGraph.validate_error {graph : MatchGraph} {error : PlanningError} (refused : graph.validate = .error error) :
    ∃ fault, error = .malformedPattern fault := by
  unfold validate at refused
  cases checked : (do checkNodes [] graph.nodeNames; checkConnections graph.nodeNames [] graph.connections :
      Except PatternFault Unit) with
  | ok =>
    rw [checked] at refused
    cases refused
  | error fault =>
    rw [checked] at refused
    cases refused
    exact ⟨fault, rfl⟩

namespace Environment

variable {ν : Type} [Quantity ν] {environment : Environment ν} {graph : MatchGraph}

omit [Quantity ν] in
/-- Whoever fails with an estimate fails in a way that every graph admits. -/
theorem dependable_admits (graph : MatchGraph)
    (estimates : ∀ plan error, environment.estimator plan environment.statistics = .error error → ∃ reason, error = .estimation reason)
    (leaves : ∀ call node predicates, environment.leafPlanner call node predicates environment.statistics =
      .ok (LeafCandidate.standard node predicates environment.statistics)) : environment.Dependable graph.Admits where
  estimates plan error failed := by
    obtain ⟨reason, rfl⟩ := estimates plan error failed
    trivial
  leaves := leaves
  cancels _ _ := trivial

/-- Above a plan that binds neither boundary a pattern cannot be planned, and no search over candidates goes on after that. -/
theorem expand_unbound {pattern : QuantifiedPattern} {source : Plan} (left : pattern.left.outer ∉ source.available)
    (right : pattern.right.outer ∉ source.available) (index : Nat) (ledger : Ledger) {β : Type}
    (next : Except PlanningError (Candidate ν) → Planning ν β) (session : Session ν) :
    (Planning.attempt (environment.expand graph index (.quantified pattern) source ledger) >>= next) session =
      .error (.internal (.unboundBoundaries pattern.render)) session := by
  have none : (pattern.site graph index source.available ledger).request.directions source.available = [] := by
    simp [QuantifiedRequest.directions, QuantifiedPattern.site_pattern, left, right]
  have refused : environment.planPattern source (pattern.site graph index source.available ledger).request session =
      .error (.internal (.unboundBoundaries pattern.render)) session := by
    unfold planPattern
    rw [if_pos (List.isEmpty_iff.mpr none)]
    rfl
  have stuck : environment.expand graph index (.quantified pattern) source ledger session =
      .error (.internal (.unboundBoundaries pattern.render)) session := by
    change EStateM.bind (environment.planPattern source _) _ session = _
    rw [EStateM.bind, refused]
  have raised : Planning.attempt (environment.expand graph index (.quantified pattern) source ledger) session =
      .error (.internal (.unboundBoundaries pattern.render)) session := by
    rw [attempt_apply, stuck]
    rfl
  change EStateM.bind (Planning.attempt _) next session = _
  rw [EStateM.bind, raised]

/-- Whatever the session and the configuration, a run that fails does so as the graph admits. -/
theorem Dependable.admitted (dependable : environment.Dependable graph.Admits)
    (formed : ∀ pattern, .quantified pattern ∈ graph.connections → pattern.WellFormed) (before : Session ν) :
    Ended graph.Admits (fun _ => True) (environment.plan graph before) := by
  refine dependable.run (fun error refused => ?_) (fun error refused => ?_) (fun accepted => ?_) fun _ => trivial
  · rw [PlannerConfig.validate_error refused]
    trivial
  · obtain ⟨fault, rfl⟩ := MatchGraph.validate_error refused
    exact .inl refused
  · exact dependable.compose (MatchGraph.validate_ok accepted) formed (fun nodes arguments => .inr ⟨nodes, arguments⟩)
      (fun _ _ _ _ => .inr fun _ _ => trivial) fun _ _ _ _ => trivial

/-- Planning fails only as the graph admits. In particular a connection that touches what is bound is at hand until a component is
finished, and no pattern is planned above a plan that binds neither of its boundaries: whatever were to follow, the run would end in a
failure that is not admitted. -/
theorem plan_admitted
    (estimates : ∀ plan error, environment.estimator plan environment.statistics = .error error → ∃ reason, error = .estimation reason)
    (leaves : ∀ call node predicates, environment.leafPlanner call node predicates environment.statistics =
      .ok (LeafCandidate.standard node predicates environment.statistics))
    (built : ∀ pattern, .quantified pattern ∈ graph.connections → ∃ draft : QuantifiedDraft, draft.build = .ok pattern) :
    (∀ before error after, environment.plan graph before = .error error after → graph.Admits error) ∧
      (graph.validate = .ok () → ∀ component ∈ graph.components, ∀ arena before plan after assigned,
        Grown environment arena graph component before plan after assigned →
        (∃ entry ∈ connectionsAt graph component.connections, entry.1 ∉ assigned.map Prod.fst) →
        ∃ entry ∈ connectionsAt graph component.connections, entry.1 ∉ assigned.map Prod.fst ∧
          (entry.2.left ∈ plan.available ∨ entry.2.right ∈ plan.available)) ∧
      ∀ pattern source, pattern.left.outer ∉ source.available → pattern.right.outer ∉ source.available →
        ∀ index ledger session (next : Except PlanningError (Candidate ν) → Planning ν (Candidate ν)),
          (Planning.attempt (environment.expand graph index (.quantified pattern) source ledger) >>= next) session =
            .error (.internal (.unboundBoundaries pattern.render)) session := by
  have dependable := environment.dependable_admits graph estimates leaves
  refine ⟨fun before error after ran => ?_, fun accepted component member arena before plan after assigned grown unfinished => ?_,
    fun pattern source left right index ledger session next => expand_unbound left right index ledger next session⟩
  · have ended := dependable.admitted (MatchGraph.wellFormed_of_built built) before
    rw [ran] at ended
    exact ended.2
  · exact grown.touching (MatchGraph.validate_ok accepted) dependable.standardLeaves member unfinished

/-- A planner that is cancelled while it plans its second leaf. -/
def interrupted : Environment Nat := { counting with cancelsDuring := (· == 2) }

end Environment

/-- The run that is cancelled halfway ends, and ends as it may. -/
theorem MatchGraph.parallel_interrupted : ∃ error after,
    Environment.interrupted.plan (parallel "g") (.initial false) = .error error after ∧ (parallel "g").Admits error := by
  have stops : (match Environment.interrupted.plan (parallel "g") (.initial false) with
    | .ok _ _ => false
    | .error _ _ => true) = true := by decide +kernel
  cases ran : Environment.interrupted.plan (parallel "g") (.initial false) with
  | ok query after =>
    rw [ran] at stops
    cases stops
  | error error after =>
    have estimates : ∀ plan error, Environment.interrupted.estimator plan Environment.interrupted.statistics = .error error →
        ∃ reason, error = .estimation reason := fun _ _ failed => by cases failed
    exact ⟨error, after, rfl, (Environment.plan_admitted estimates (fun _ _ _ => rfl) (parallel_built rfl)).1 _ _ _ ran⟩

end MatchPlanner
