import Mathlib.Data.List.Nodup
import MatchPlanner.Proofs.Validity

/-! The variables of the connections of a graph, and the checks between them. -/

namespace MatchPlanner

/-- A check between relationships is a negation or a call; what leaves and loops solve is neither. -/
def Expression.isCheck : Expression → Bool
  | .negation _ => true
  | .call _ _ => true
  | _ => false

theorem Expression.isCheck_of_same {first second : Expression} (same : first.same second = true) :
    first.isCheck = second.isCheck := by
  cases first <;> cases second <;> first | rfl | simp [Expression.same] at same

namespace RelationshipProducer

variable (first second : RelationshipProducer)

@[simp] theorem isCheck_distinctness : (first.distinctness second).isCheck = true := by
  unfold distinctness
  split <;> rfl

@[simp] theorem mem_dependencies_distinctness {name : String} :
    name ∈ (first.distinctness second).dependencies ↔ name = first.name ∨ name = second.name := by
  unfold distinctness
  split <;>
    simp [Expression.equals, Expression.isMember, Expression.dependencies, Expression.dependenciesOfAll, or_comm]

end RelationshipProducer

theorem Connection.index_of_producer {connection : Connection} {index : Nat} {producer : RelationshipProducer}
    (member : producer ∈ connection.producers index) : producer.connection = index := by
  cases connection with
  | relationship relationship => rw [List.mem_singleton.mp member]
  | quantified pattern =>
    obtain ⟨relationship, -, grouped⟩ := List.mem_filterMap.mp member
    obtain ⟨group, -, rfl⟩ := Option.map_eq_some_iff.mp grouped
    rfl

namespace MatchGraph

variable {graph : MatchGraph}

theorem mem_producers {producer : RelationshipProducer} :
    producer ∈ graph.producers ↔ ∃ connection, graph.connections[producer.connection]? = some connection ∧
      producer ∈ connection.producers producer.connection := by
  unfold producers
  constructor
  · intro member
    obtain ⟨⟨connection, index⟩, indexed, exposes⟩ := List.mem_flatMap.mp member
    cases Connection.index_of_producer exposes
    exact ⟨connection, List.mem_zipIdx_iff_getElem?.mp indexed, exposes⟩
  · rintro ⟨connection, found, exposes⟩
    exact List.mem_flatMap.mpr ⟨(connection, producer.connection), List.mem_zipIdx_iff_getElem?.mpr found, exposes⟩

theorem exposed_of_producer {index : Nat} {connection : Connection} {producer : RelationshipProducer}
    (member : producer ∈ connection.producers index) : producer.name ∈ connection.exposed := by
  cases connection with
  | relationship relationship =>
    rw [List.mem_singleton.mp member]
    exact List.mem_singleton_self _
  | quantified pattern =>
    obtain ⟨relationship, -, grouped⟩ := List.mem_filterMap.mp member
    obtain ⟨group, found, rfl⟩ := Option.map_eq_some_iff.mp grouped
    obtain ⟨grouping, searched, rfl⟩ := Option.map_eq_some_iff.mp found
    exact List.mem_append_right _ (List.mem_map_of_mem (List.mem_of_find?_eq_some searched))

theorem exposed_once (valid : graph.Valid) {first second : Nat} {former latter : Connection} {name : String}
    (foundFormer : graph.connections[first]? = some former) (foundLatter : graph.connections[second]? = some latter)
    (exposesFormer : name ∈ former.exposed) (exposesLatter : name ∈ latter.exposed) : first = second := by
  have apart := (List.nodup_flatMap.mp valid.exposed).2
  obtain ⟨insideFormer, rfl⟩ := List.getElem?_eq_some_iff.mp foundFormer
  obtain ⟨insideLatter, rfl⟩ := List.getElem?_eq_some_iff.mp foundLatter
  rw [List.pairwise_iff_getElem] at apart
  rcases Nat.lt_trichotomy first second with before | same | after
  · exact absurd exposesLatter (apart first second insideFormer insideLatter before exposesFormer)
  · exact same
  · exact absurd exposesFormer (apart second first insideLatter insideFormer after exposesLatter)

theorem exposed_not_node (valid : graph.Valid) {index : Nat} {connection : Connection} {name : String}
    (found : graph.connections[index]? = some connection) (exposes : name ∈ connection.exposed) : name ∉ graph.nodeNames :=
  valid.apart name (List.mem_flatMap.mpr ⟨connection, List.mem_of_getElem? found, exposes⟩)

end MatchGraph

namespace UniquenessObligation

theorem mem_ofProducers {producers : List RelationshipProducer} {obligation : UniquenessObligation}
    (member : obligation ∈ ofProducers producers) : obligation = ofPair obligation.first obligation.second ∧
      obligation.first ∈ producers ∧ obligation.second ∈ producers ∧ obligation.first.clashes obligation.second = true := by
  induction producers with
  | nil => exact absurd member List.not_mem_nil
  | cons first rest further =>
    rcases List.mem_append.mp member with here | later
    · obtain ⟨second, clashing, rfl⟩ := List.mem_map.mp here
      obtain ⟨among, clashes⟩ := List.mem_filter.mp clashing
      exact ⟨rfl, List.mem_cons_self, List.mem_cons_of_mem _ among, clashes⟩
    · obtain ⟨same, former, latter, clashes⟩ := further later
      exact ⟨same, List.mem_cons_of_mem _ former, List.mem_cons_of_mem _ latter, clashes⟩

variable {graph : MatchGraph} {obligation : UniquenessObligation}

theorem predicate_of_mem (member : obligation ∈ graph.obligations) :
    obligation.predicate = obligation.first.distinctness obligation.second :=
  congrArg UniquenessObligation.predicate (mem_ofProducers member).1

theorem connections_ne (member : obligation ∈ graph.obligations) : obligation.first.connection ≠ obligation.second.connection := by
  have clashes := (mem_ofProducers member).2.2.2
  simp only [RelationshipProducer.clashes, Bool.and_eq_true, bne_iff_ne] at clashes
  exact clashes.1

end UniquenessObligation

end MatchPlanner
