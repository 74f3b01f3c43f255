import Mathlib.Data.List.Perm.Basic
import MatchPlanner.Composition.Start
import MatchPlanner.Proofs.Validity

/-! Every connection of a valid graph belongs to exactly one component. -/

namespace MatchPlanner

/-- Gathering a list by the labels of its members leaves nothing out and nothing twice. -/
theorem gather_perm {α : Type} (labels : List Nat) (label? : α → Option Nat) (values : List α)
    (labelled : ∀ value ∈ values, ∃ label ∈ labels, label? value = some label) :
    (labels.eraseDups.flatMap fun label => values.filter fun value => label? value == some label).Perm values := by
  match labels with
  | [] =>
    have empty : values = [] := List.eq_nil_iff_forall_not_mem.mpr fun value member => by simpa using labelled value member
    simp [empty]
  | first :: rest =>
    have others : ∀ value ∈ values.filter fun value => !(label? value == some first),
        ∃ label ∈ rest.filter fun label => !(label == first), label? value = some label := by
      intro value member
      obtain ⟨inside, different⟩ := List.mem_filter.mp member
      obtain ⟨label, known, same⟩ := labelled value inside
      have apart : label ≠ first := by
        rintro rfl
        simp [same] at different
      refine ⟨label, List.mem_filter.mpr ⟨(List.mem_cons.mp known).resolve_left apart, ?_⟩, same⟩
      simpa using apart
    have further := gather_perm (rest.filter fun label => !(label == first)) label? _ others
    have separate : ((rest.filter fun label => !(label == first)).eraseDups.flatMap fun label =>
          (values.filter fun value => !(label? value == some first)).filter fun value => label? value == some label) =
        (rest.filter fun label => !(label == first)).eraseDups.flatMap fun label =>
          values.filter fun value => label? value == some label := by
      apply List.flatMap_congr
      intro label member
      have apart := (List.mem_filter.mp (List.mem_eraseDups.mp member)).2
      rw [List.filter_filter]
      apply List.filter_congr
      intro value _
      grind
    rw [List.eraseDups_cons, List.flatMap_cons]
    rw [separate] at further
    exact (further.append_left _).trans (List.filter_append_perm _ values)
termination_by labels.length
decreasing_by exact Nat.lt_succ_of_le (List.length_filter_le _ _)

namespace MatchGraph

variable {graph : MatchGraph}

private theorem merge_length (labels : List Nat) (first second : Nat) :
    (Component.merge labels first second).length = labels.length := by
  unfold Component.merge
  split
  · rw [List.length_map]
  · rfl

theorem connect_length (graph : MatchGraph) (labels : List Nat) (connection : Connection) :
    (graph.connect labels connection).length = labels.length := by
  unfold connect
  split
  · exact merge_length ..
  · rfl

theorem componentLabels_length (graph : MatchGraph) : graph.componentLabels.length = graph.nodes.length := by
  have kept : ∀ (connections : List Connection) (labels : List Nat),
      (connections.foldl graph.connect labels).length = labels.length := by
    intro connections
    induction connections with
    | nil =>
      intro _
      exact rfl
    | cons connection rest further =>
      intro labels
      exact (further _).trans (connect_length graph labels connection)
  exact (kept _ _).trans List.length_range

theorem ownerLabel?_of_declared {connection : Connection} (declared : connection.left ∈ graph.nodeNames) :
    ∃ label ∈ graph.componentLabels, graph.ownerLabel? connection = some label := by
  have found : (graph.firstPosition? connection.left).isSome := by
    simpa [firstPosition?, List.findIdx?_isSome] using declared
  obtain ⟨position, first⟩ := Option.isSome_iff_exists.mp found
  obtain ⟨inside, -⟩ := List.findIdx?_eq_some_iff_getElem.mp first
  have bound : position < graph.componentLabels.length := by
    rw [componentLabels_length]
    simpa [nodeNames] using inside
  refine ⟨_, List.getElem_mem bound, ?_⟩
  rw [ownerLabel?, first, Option.bind_some, List.getElem?_eq_getElem bound]

theorem components_cover (valid : graph.Valid) :
    (graph.components.flatMap Component.connections).Perm (List.range graph.connections.length) := by
  have labelled : ∀ indexed ∈ graph.connections.zipIdx,
      ∃ label ∈ graph.componentLabels, graph.ownerLabel? indexed.1 = some label := by
    intro indexed member
    exact ownerLabel?_of_declared (valid.ends indexed.1 (List.fst_mem_of_mem_zipIdx member)).1
  have gathered := (gather_perm graph.componentLabels _ _ labelled).map Prod.snd
  have positions : graph.connections.zipIdx.map Prod.snd = List.range graph.connections.length := by
    rw [List.zipIdx_map_snd, List.range_eq_range']
  rw [positions, List.map_flatMap] at gathered
  rw [components, List.flatMap_map]
  exact gathered

theorem components_nodes (graph : MatchGraph) {component : Component} (member : component ∈ graph.components) :
    component.nodes ⊆ graph.nodeNames := by
  obtain ⟨label, -, rfl⟩ := List.mem_map.mp member
  intro name among
  obtain ⟨⟨node, _⟩, chosen, rfl⟩ := List.mem_map.mp among
  exact (List.of_mem_zip (List.mem_filter.mp chosen).1).1

theorem components_nodup (graph : MatchGraph) {component : Component} (member : component ∈ graph.components) :
    component.connections.Nodup := by
  obtain ⟨label, -, rfl⟩ := List.mem_map.mp member
  have sublist := (List.filter_sublist (p := fun indexed : Connection × Nat => graph.ownerLabel? indexed.1 == some label)
    (l := graph.connections.zipIdx)).map Prod.snd
  apply List.Nodup.sublist sublist
  rw [List.zipIdx_map_snd]
  exact List.nodup_range'

end MatchGraph

namespace Environment

theorem mem_connectionsAt {graph : MatchGraph} {indices : List Nat} {index : Nat} {connection : Connection} :
    (index, connection) ∈ connectionsAt graph indices ↔ index ∈ indices ∧ graph.connections[index]? = some connection := by
  simp only [connectionsAt, List.mem_filterMap, Option.map_eq_some_iff]
  constructor
  · rintro ⟨other, member, _, found, same⟩
    cases same
    exact ⟨member, found⟩
  · rintro ⟨member, found⟩
    exact ⟨index, member, connection, found, rfl⟩

theorem connectionsAt_nodup (graph : MatchGraph) {indices : List Nat} (distinct : indices.Nodup) :
    ((connectionsAt graph indices).map Prod.fst).Nodup := by
  refine List.Nodup.sublist ?_ distinct
  induction indices with
  | nil => exact .slnil
  | cons index rest step =>
    have further := step (List.nodup_cons.mp distinct).2
    simp only [connectionsAt, List.filterMap_cons]
    cases graph.connections[index]? with
    | none => exact further.cons index
    | some connection => exact further.cons_cons index

theorem connectionsAt_indices {graph : MatchGraph} {indices : List Nat} (inside : ∀ index ∈ indices, index < graph.connections.length) :
    (connectionsAt graph indices).map Prod.fst = indices := by
  induction indices with
  | nil => rfl
  | cons index rest further =>
    have bound := inside index List.mem_cons_self
    rw [connectionsAt, List.filterMap_cons, List.getElem?_eq_getElem bound]
    exact congrArg (index :: ·) (further fun other member => inside other (List.mem_cons_of_mem _ member))

end Environment

end MatchPlanner
