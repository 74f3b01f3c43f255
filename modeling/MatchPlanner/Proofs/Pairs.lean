import MatchPlanner.Proofs.Producers

/-! Each pair of variables that could hold the same relationship has one obligation, and no two pairs share a check. -/

namespace MatchPlanner

/-- The producers of a graph come in the order of their connections, each with a variable of its own. -/
def RelationshipProducer.Precedes (former latter : RelationshipProducer) : Prop :=
  former.connection ≤ latter.connection ∧ former.name ≠ latter.name

theorem QuantifiedPattern.eq_of_relationshipGroup? {pattern : QuantifiedPattern} {former latter group : String}
    (distinct : pattern.relationshipGroups.Nodup) (first : pattern.relationshipGroup? former = some group)
    (second : pattern.relationshipGroup? latter = some group) : former = latter := by
  obtain ⟨one, foundOne, rfl⟩ := Option.map_eq_some_iff.mp first
  obtain ⟨two, foundTwo, same⟩ := Option.map_eq_some_iff.mp second
  have equal := List.inj_on_of_nodup_map distinct (List.mem_of_find?_eq_some foundTwo) (List.mem_of_find?_eq_some foundOne) same
  have former := List.find?_some foundOne
  have latter := List.find?_some foundTwo
  rw [equal] at latter
  exact (beq_iff_eq.mp former).symm.trans (beq_iff_eq.mp latter)

theorem Connection.producers_pairwise {connection : Connection} {index : Nat} (groups : connection.exposed.Nodup)
    (formed : ∀ pattern, connection = .quantified pattern → pattern.WellFormed) :
    (connection.producers index).Pairwise RelationshipProducer.Precedes := by
  cases connection with
  | relationship relationship => exact List.pairwise_singleton _ _
  | quantified pattern =>
    apply (List.pairwise_map.mp (formed pattern rfl).distinctNames).filterMap _
    intro former latter different first madeFirst second madeSecond
    obtain ⟨one, foundOne, rfl⟩ := Option.map_eq_some_iff.mp madeFirst
    obtain ⟨two, foundTwo, rfl⟩ := Option.map_eq_some_iff.mp madeSecond
    refine ⟨Nat.le_refl _, ?_⟩
    rintro rfl
    exact different (QuantifiedPattern.eq_of_relationshipGroup? groups.of_append_right foundOne foundTwo)

namespace MatchGraph

variable {graph : MatchGraph} {first second : RelationshipProducer}

theorem producers_pairwise (valid : graph.Valid)
    (formed : ∀ pattern, .quantified pattern ∈ graph.connections → pattern.WellFormed) :
    graph.producers.Pairwise RelationshipProducer.Precedes := by
  refine List.pairwise_flatMap.mpr ⟨?_, ?_⟩
  · rintro ⟨connection, index⟩ indexed
    have member := List.fst_mem_of_mem_zipIdx indexed
    apply connection.producers_pairwise ((List.nodup_flatMap.mp valid.exposed).1 connection member)
    rintro pattern rfl
    exact formed pattern member
  · have increasing : graph.connections.zipIdx.Pairwise fun former latter => former.2 < latter.2 := by
      apply List.pairwise_map.mp
      rw [List.zipIdx_map_snd]
      exact List.pairwise_lt_range'
    apply (List.Pairwise.and_mem.mp increasing).imp
    rintro ⟨former, index⟩ ⟨latter, position⟩ ⟨early, late, before⟩ one oneMember two twoMember
    cases Connection.index_of_producer oneMember
    cases Connection.index_of_producer twoMember
    refine ⟨Nat.le_of_lt before, fun same => Nat.ne_of_lt before ?_⟩
    exact exposed_once valid (List.mem_zipIdx_iff_getElem?.mp early) (List.mem_zipIdx_iff_getElem?.mp late)
      (exposed_of_producer oneMember) (same ▸ exposed_of_producer twoMember)

theorem eq_of_name (ordered : graph.producers.Pairwise RelationshipProducer.Precedes) (former : first ∈ graph.producers)
    (latter : second ∈ graph.producers) (same : first.name = second.name) : first = second := by
  have names : (graph.producers.map RelationshipProducer.name).Nodup := List.pairwise_map.mpr (ordered.imp And.right)
  exact List.inj_on_of_nodup_map names former latter same

end MatchGraph

namespace UniquenessObligation

variable {producers : List RelationshipProducer} {first second : RelationshipProducer}

theorem ofProducers_nodup (ordered : producers.Pairwise RelationshipProducer.Precedes) : (ofProducers producers).Nodup := by
  induction ordered with
  | nil => exact .nil
  | @cons first rest before ordered further =>
    have distinct : rest.Nodup := ordered.imp fun precedes same => precedes.2 (congrArg _ same)
    refine List.nodup_append.mpr ⟨(distinct.filter _).map ?_, further, ?_⟩
    · intro one two same
      exact congrArg UniquenessObligation.second same
    · intro one here two later same
      obtain ⟨other, -, rfl⟩ := List.mem_map.mp here
      have again := (mem_ofProducers later).2.1
      rw [← same] at again
      exact (before first again).2 rfl

theorem mem_ofProducers_of_clashes (ordered : producers.Pairwise RelationshipProducer.Precedes) (former : first ∈ producers)
    (latter : second ∈ producers) (before : first.connection < second.connection)
    (overlap : first.types.overlap second.types = true) : ofPair first second ∈ ofProducers producers := by
  induction ordered with
  | nil => exact absurd former List.not_mem_nil
  | @cons head rest precedes _ further =>
    rcases List.mem_cons.mp former with rfl | deeper
    · refine List.mem_append_left _ (List.mem_map_of_mem (List.mem_filter.mpr ⟨?_, ?_⟩))
      · rcases List.mem_cons.mp latter with rfl | among
        · exact absurd before (Nat.lt_irrefl _)
        · exact among
      · simp only [RelationshipProducer.clashes, overlap, Bool.and_true, bne_iff_ne]
        exact Nat.ne_of_lt before
    · rcases List.mem_cons.mp latter with rfl | among
      · exact absurd before (Nat.not_lt.mpr (precedes first deeper).1)
      · exact List.mem_append_right _ (further deeper among)

theorem connections_lt {obligation : UniquenessObligation} (ordered : producers.Pairwise RelationshipProducer.Precedes)
    (member : obligation ∈ ofProducers producers) : obligation.first.connection < obligation.second.connection := by
  induction ordered with
  | nil => exact absurd member List.not_mem_nil
  | @cons head rest precedes _ further =>
    rcases List.mem_append.mp member with here | later
    · obtain ⟨other, clashing, rfl⟩ := List.mem_map.mp here
      obtain ⟨among, clashes⟩ := List.mem_filter.mp clashing
      simp only [RelationshipProducer.clashes, Bool.and_eq_true, bne_iff_ne] at clashes
      exact Nat.lt_of_le_of_ne (precedes other among).1 clashes.1
    · exact further later

end UniquenessObligation

theorem RelationshipProducer.names_of_same {first second third fourth : RelationshipProducer}
    (same : (first.distinctness second).same (third.distinctness fourth) = true) :
    first.name = third.name ∧ second.name = fourth.name ∨ first.name = fourth.name ∧ second.name = third.name := by
  unfold distinctness at same
  split at same <;> split at same <;>
    simp [Expression.same, Expression.sameAll, Expression.equals, Expression.isMember] at same <;> grind

/-- The check of a pair stands for the obligation of that pair alone. -/
theorem MatchGraph.obligation_of_same {graph : MatchGraph} (ordered : graph.producers.Pairwise RelationshipProducer.Precedes)
    {first second : RelationshipProducer} (former : first ∈ graph.producers) (latter : second ∈ graph.producers)
    (before : first.connection < second.connection) {obligation : UniquenessObligation} (member : obligation ∈ graph.obligations)
    (same : (first.distinctness second).same obligation.predicate = true) : obligation = .ofPair first second := by
  obtain ⟨pair, one, two, -⟩ := UniquenessObligation.mem_ofProducers member
  have order := UniquenessObligation.connections_lt ordered member
  rw [UniquenessObligation.predicate_of_mem member] at same
  rcases RelationshipProducer.names_of_same same with ⟨early, late⟩ | ⟨early, late⟩
  · rw [pair, eq_of_name ordered former one early, eq_of_name ordered latter two late]
  · rw [eq_of_name ordered former two early, eq_of_name ordered latter one late] at before
    exact absurd order (Nat.lt_asymm before)

end MatchPlanner
