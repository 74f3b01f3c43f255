import MatchPlanner.Proofs.Advance

/-! Planning is complete. A clause gets a plan unless one of its predicates reads a variable that nothing in the clause binds, and
then the first such predicate is blamed with all such variables it reads. -/

namespace MatchPlanner

open Planning

/-- The failure that names the first of the WHERE atoms to read hidden variables, and all hidden variables it reads. -/
def MatchGraph.Blames (graph : MatchGraph) (error : PlanningError) : Prop :=
  ∃ earlier atom later, graph.whereAtoms = earlier ++ atom :: later ∧ (∀ other ∈ earlier, graph.Sees other) ∧ ¬ graph.Sees atom ∧
    ∃ missing : NameSet, (∀ name, name ∈ missing ↔ name ∈ atom.dependencies ∧ ¬ graph.Visible name) ∧
      error = .unsolvablePredicate atom missing.names

/-! What a plan of the whole graph leaves open. -/

namespace Concluded

variable {graph : MatchGraph} {plan : Plan}

theorem sees (concluded : Concluded graph plan [])
    (plain : ∀ atom ∈ graph.whereAtoms, graph.Plain atom) :
    ∀ atom ∈ graph.whereAtoms, graph.Sees atom := by
  intro atom member
  have listed : atom ∈ (Ledger.ofGraph graph).predicates := by
    rw [Ledger.predicates_ofGraph]
    exact List.mem_append_left _ (List.mem_append_right _ member)
  obtain ⟨entry, among, rfl⟩ := List.mem_map.mp listed
  by_contra blind
  have strays := (MatchGraph.strays_iff (plain _ member)).mpr blind
  exact absurd ((concluded.mem_remaining plain entry).mpr ⟨among, strays⟩) List.not_mem_nil

/-- The first open entry is the first entry of the ledger that strays. -/
private theorem first_strays {entry : LedgerEntry} {others : Ledger} (concluded : Concluded graph plan (entry :: others))
    (plain : ∀ atom ∈ graph.whereAtoms, graph.Plain atom) :
    ∃ front back, Ledger.ofGraph graph = front ++ entry :: back ∧ graph.Strays entry.predicate ∧
      ∀ other ∈ front, ¬ graph.Strays other.predicate := by
  obtain ⟨before, after, split, here, rest⟩ := List.cons_sublist_iff.mp concluded.known
  obtain ⟨front, back, rfl⟩ := List.append_of_mem here
  rw [List.append_assoc, List.cons_append] at split
  refine ⟨front, back ++ after, split, ((concluded.mem_remaining plain entry).mp List.mem_cons_self).2, fun other early strays => ?_⟩
  have once := Ledger.ofGraph_nodup graph
  rw [split] at once
  have apart := (List.nodup_append.mp once).2.2 other early
  have remains := (concluded.mem_remaining plain other).mpr ⟨split ▸ List.mem_append_left _ early, strays⟩
  rcases List.mem_cons.mp remains with same | later
  · exact apart entry List.mem_cons_self same
  · exact apart other (List.mem_cons_of_mem _ (List.mem_append_right _ (rest.subset later))) rfl

/-- Label tests and uniqueness checks never stray, so the first entry that does is a WHERE atom. -/
theorem blames {entry : LedgerEntry} {others : Ledger} (concluded : Concluded graph plan (entry :: others))
    (plain : ∀ atom ∈ graph.whereAtoms, graph.Plain atom) :
    graph.Blames (.unsolvablePredicate entry.predicate (missingFrom plan.available entry.predicate)) := by
  classical
  obtain ⟨front, back, split, strays, others⟩ := concluded.first_strays plain
  have listed : (graph.labelAtoms ++ graph.whereAtoms ++ graph.obligations.map UniquenessObligation.predicate).find?
      (fun predicate => decide (graph.Strays predicate)) = some entry.predicate := by
    have whole := Ledger.predicates_ofGraph graph
    rw [split] at whole
    rw [← MatchGraph.atoms, ← whole, List.find?_eq_some_iff_append]
    refine ⟨decide_eq_true strays, front.map LedgerEntry.predicate, back.map LedgerEntry.predicate, by simp [Ledger.predicates], ?_⟩
    intro predicate member
    obtain ⟨other, early, rfl⟩ := List.mem_map.mp member
    simpa using others other early
  have labels : graph.labelAtoms.find? (fun predicate => decide (graph.Strays predicate)) = none :=
    List.find?_eq_none.mpr fun atom member => by simpa using (MatchGraph.sees_labelAtom member).not_strays
  have checks : (graph.obligations.map UniquenessObligation.predicate).find? (fun predicate => decide (graph.Strays predicate)) =
      none := by
    refine List.find?_eq_none.mpr fun check member => ?_
    obtain ⟨obligation, among, rfl⟩ := List.mem_map.mp member
    simpa using (MatchGraph.sees_check among).not_strays
  rw [List.find?_append, List.find?_append, labels, checks, Option.none_or, Option.or_none] at listed
  obtain ⟨-, earlier, later, located, before⟩ := List.find?_eq_some_iff_append.mp listed
  have inside : entry.predicate ∈ graph.whereAtoms := located ▸ List.mem_append_right _ List.mem_cons_self
  refine ⟨earlier, entry.predicate, later, located, fun other early => ?_, (MatchGraph.strays_iff (plain _ inside)).mp strays, ?_⟩
  · have among : other ∈ graph.whereAtoms := located ▸ List.mem_append_left _ early
    by_contra blind
    simpa [(MatchGraph.strays_iff (plain _ among)).mpr blind] using before other early
  · refine ⟨entry.predicate.dependencies.filter fun name => decide (name ∉ plan.available), fun name => ?_, rfl⟩
    rw [NameSet.mem_filter, decide_eq_true_eq]
    exact and_congr_right fun reads => not_congr (concluded.mem_missing List.mem_cons_self (plain _ inside) reads)

end Concluded

namespace Environment

variable {ν : Type} {environment : Environment ν} {faults : PlanningError → Prop} {graph : MatchGraph} [Quantity ν]

/-! The whole run. -/

/-- However a graph is planned, there is a plan, and when it leaves something open the run fails for the first of it. -/
theorem Dependable.compose (dependable : environment.Dependable faults) (valid : graph.Valid)
    (formed : ∀ pattern, .quantified pattern ∈ graph.connections → pattern.WellFormed)
    (startable : graph.nodes = [] → graph.arguments = ∅ → faults (.malformedPattern .noNodes))
    (placeable : ∀ component ∈ graph.components, component.Placeable faults graph)
    (remains : ∀ root entry others, (graph.Regular → Concluded graph root (entry :: others)) →
      faults (.unsolvablePredicate entry.predicate (missingFrom root.available entry.predicate))) :
    Completes faults (environment.compose graph) fun _ => True := by
  unfold Environment.compose
  refine (completes_record _ _ _).bind fun _ _ =>
    ((dependable.planComponents valid formed placeable _ (List.Subset.refl _) _ _).known fun final =>
      yields_planComponents graph _ (fun _ member => graph.components_nodup member) _ _).bind ?_
  rintro ⟨planned, ledger⟩ ⟨-, final, legs, legged, same⟩
  have nodeless : planned = [] → graph.nodes = [] := by
    rintro rfl
    rw [List.map_nil, List.map_eq_nil_iff] at same
    by_contra nodes
    exact MatchGraph.components_ne_nil.mpr nodes (same ▸ legged).of_nil.1
  refine ((dependable.combine planned ledger fun empty => startable (nodeless empty)).known fun final =>
    yields_combine graph planned ledger).bind ?_
  rintro ⟨root, rest⟩ ⟨-, last, combined⟩
  have concluded : graph.Regular → Concluded graph root rest := by
    intro regular
    rcases combined legs same with ⟨rfl, -, id, -, placed⟩ | ⟨first, others, _, middle, sorted, rooted, combined⟩
    · obtain ⟨empty, rfl⟩ := legged.of_nil
      exact concluded_of_empty valid empty placed
    · exact combined.concluded regular dependable.standardLeaves legged sorted rooted
  cases rest with
  | nil => exact completes_pure trivial
  | cons entry others => exact completes_throw (remains root entry others concluded)

/-- A run that composes a plan ends with it, unless the configuration or the graph is refused. -/
theorem Dependable.run (dependable : environment.Dependable faults)
    (configured : ∀ error, environment.config.validate = .error error → faults error)
    (accepted : ∀ error, graph.validate = .error error → faults error)
    (composes : graph.validate = .ok () → Completes faults (environment.compose graph) fun _ => True) {before : Session ν}
    (cancellation : before.cancelled = true → faults .cancelled) : Ended faults (fun _ => True) (environment.plan graph before) := by
  have validated : Completes (ν := ν) faults (Planning.ofExcept graph.validate) fun _ => graph.validate = .ok () :=
    completes_ofExcept accepted fun _ valid => valid
  have returned : ∀ root, Completes faults (planned root : Planning ν (PlannedQuery ν)) fun _ => True :=
    fun root session ready => ⟨ready, trivial⟩
  have run : Completes faults (do
      Planning.ofExcept environment.config.validate
      Planning.ofExcept graph.validate
      let root ← environment.compose graph
      let estimate ← environment.estimate root
      Planning.record .composition "final plan" ⟨some root.kind, [], some estimate.rows, some estimate.cost⟩
      return root) fun _ => True :=
    (completes_ofExcept configured fun _ _ => trivial).bind fun _ _ => validated.bind fun _ valid => (composes valid).bind fun root _ =>
      (dependable.estimate root).bind fun _ _ => (completes_record _ _ _).bind fun _ _ => completes_pure trivial
  refine (run.bind fun root _ => returned root) { before with arena := .empty, trace := [] } ⟨?_, ?_, ?_, cancellation⟩
  · exact AttributeTable.below_empty 0
  · exact AttributeTable.below_empty 0
  · exact AttributeTable.below_empty 0

theorem Dependable.plan (dependable : environment.Dependable faults) (configured : environment.config.validate = .ok ())
    (accepted : graph.validate = .ok ()) (regular : graph.Regular) (startable : graph.nodes ≠ [] ∨ graph.arguments ≠ ∅)
    (plain : ∀ atom ∈ graph.whereAtoms, graph.Plain atom)
    (placeable : ∀ component ∈ graph.components, component.Placeable faults graph)
    (blamed : ∀ error, graph.Blames error → faults error) {before : Session ν} (uncancelled : before.cancelled = false) :
    Ended faults (fun _ => True) (environment.plan graph before) := by
  refine dependable.run ?_ ?_ (fun _ => ?_) fun requested => absurd (uncancelled.symm.trans requested) Bool.false_ne_true
  · exact fun _ refused => by cases configured.symm.trans refused
  · exact fun _ refused => by cases accepted.symm.trans refused
  · refine dependable.compose regular.valid regular.formed (fun nodes arguments => ?_) placeable fun root entry others concluded => ?_
    · exact absurd arguments (startable.resolve_left (not_not.mpr nodes))
    · exact blamed _ ((concluded regular).blames plain)

end Environment

namespace MatchGraph

/-- A condition on every member of a group. -/
def grouped : Expression := .every "e" (.reference "g") (.equals (.property "e" "x") (.property "q" "x"))

/-- A condition on a variable that the clause does not know. -/
def stray : Expression := .equals (.property "z" "x") (.property "b" "x")

end MatchGraph

end MatchPlanner
