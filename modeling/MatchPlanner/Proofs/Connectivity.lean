import MatchPlanner.Proofs.Components

/-! The nodes of a component hang together. A set of nodes that no connection leaves holds all nodes of a component or none of
them, so a plan that covers one node and leaves by no connection covers the component. -/

namespace MatchPlanner

/-! Labels of positions. -/

namespace Component

/-- Positions with one label are not told apart. -/
def Uniform (inside : Nat → Prop) (labels : List Nat) : Prop :=
  ∀ first second label, labels[first]? = some label → labels[second]? = some label → (inside first ↔ inside second)

def Joined (labels : List Nat) (first second : Nat) : Prop := ∃ label, labels[first]? = some label ∧ labels[second]? = some label

theorem uniform_range (inside : Nat → Prop) (count : Nat) : Uniform inside (List.range count) := by
  intro first second label former latter
  obtain ⟨_, position⟩ := List.getElem?_eq_some_iff.mp former
  obtain ⟨_, other⟩ := List.getElem?_eq_some_iff.mp latter
  rw [List.getElem_range] at position other
  rw [position, other]

theorem Uniform.merge {inside : Nat → Prop} {labels : List Nat} {first second : Nat} (uniform : Uniform inside labels)
    (alike : inside first ↔ inside second) : Uniform inside (Component.merge labels first second) := by
  unfold Component.merge
  split
  next kept replaced former latter =>
    -- Every position of a label after the merge agrees with one that had this label before.
    have traced : ∀ position label, (labels.map fun label => if label = replaced then kept else label)[position]? = some label →
        ∃ origin, labels[origin]? = some label ∧ (inside position ↔ inside origin) := by
      intro position label found
      rw [List.getElem?_map, Option.map_eq_some_iff] at found
      obtain ⟨old, present, same⟩ := found
      split at same
      next equal =>
        subst equal same
        exact ⟨first, former, (uniform _ _ _ present latter).trans alike.symm⟩
      next =>
        subst same
        exact ⟨position, present, Iff.rfl⟩
    intro position other label found alsoFound
    obtain ⟨origin, present, same⟩ := traced position label found
    obtain ⟨source, alsoPresent, alsoSame⟩ := traced other label alsoFound
    exact same.trans ((uniform _ _ _ present alsoPresent).trans alsoSame.symm)
  next => exact uniform

theorem Joined.merge {labels : List Nat} {first second : Nat} (joined : Joined labels first second) (left right : Nat) :
    Joined (Component.merge labels left right) first second := by
  obtain ⟨label, former, latter⟩ := joined
  unfold Component.merge
  split
  next kept replaced _ _ =>
    exact ⟨if label = replaced then kept else label, by rw [List.getElem?_map, former]; rfl,
      by rw [List.getElem?_map, latter]; rfl⟩
  next => exact ⟨label, former, latter⟩

theorem joined_merge {labels : List Nat} {first second : Nat} (former : first < labels.length) (latter : second < labels.length) :
    Joined (Component.merge labels first second) first second := by
  unfold Component.merge
  rw [List.getElem?_eq_getElem former, List.getElem?_eq_getElem latter]
  refine ⟨labels[first], ?_, ?_⟩ <;> simp [former, latter]

end Component

namespace MatchGraph

variable {graph : MatchGraph}

/-! Positions of nodes. -/

theorem firstPosition?_some {name : String} {position : Nat} (found : graph.firstPosition? name = some position) :
    graph.nodeNames[position]? = some name := by
  obtain ⟨inside, same, -⟩ := List.findIdx?_eq_some_iff_getElem.mp found
  rw [List.getElem?_eq_getElem inside, beq_iff_eq.mp same]

theorem lastPosition?_some {name : String} {position : Nat} (found : graph.lastPosition? name = some position) :
    graph.nodeNames[position]? = some name := by
  obtain ⟨index, reversed, rfl⟩ := Option.map_eq_some_iff.mp found
  obtain ⟨inside, same, -⟩ := List.findIdx?_eq_some_iff_getElem.mp reversed
  rw [List.getElem_reverse, beq_iff_eq] at same
  exact List.getElem?_eq_some_iff.mpr ⟨_, same⟩

theorem lastPosition?_of_declared {name : String} (declared : name ∈ graph.nodeNames) :
    ∃ position, graph.lastPosition? name = some position := by
  have found : (graph.nodeNames.reverse.findIdx? fun other => other == name).isSome := by
    simpa [List.findIdx?_isSome] using declared
  obtain ⟨index, same⟩ := Option.isSome_iff_exists.mp found
  exact ⟨graph.nodeNames.length - 1 - index, by rw [lastPosition?, same]; rfl⟩

theorem position_unique (valid : graph.Valid) {name : String} {first second : Nat} (former : graph.nodeNames[first]? = some name)
    (latter : graph.nodeNames[second]? = some name) : first = second := by
  obtain ⟨inside, -⟩ := List.getElem?_eq_some_iff.mp former
  exact (List.getElem?_inj inside valid.nodes).mp (former.trans latter.symm)

theorem label_of_declared {position : Nat} {name : String} (found : graph.nodeNames[position]? = some name) :
    ∃ label, graph.componentLabels[position]? = some label := by
  obtain ⟨inside, -⟩ := List.getElem?_eq_some_iff.mp found
  refine ⟨_, List.getElem?_eq_getElem (?_ : position < graph.componentLabels.length)⟩
  rw [componentLabels_length]
  simpa [nodeNames] using inside

/-! What connecting nodes does to their labels. -/

theorem uniform_componentLabels (inside : Nat → Prop) (closed : ∀ connection ∈ graph.connections, ∀ left right,
    graph.lastPosition? connection.left = some left → graph.lastPosition? connection.right = some right →
      (inside left ↔ inside right)) : Component.Uniform inside graph.componentLabels := by
  have kept : ∀ (connections : List Connection) (labels : List Nat), connections ⊆ graph.connections →
      Component.Uniform inside labels → Component.Uniform inside (connections.foldl graph.connect labels) := by
    intro connections
    induction connections with
    | nil => exact fun _ _ uniform => uniform
    | cons connection rest further =>
      intro labels subset uniform
      refine further _ (List.subset_of_cons_subset subset) ?_
      unfold connect
      split
      next left right former latter => exact uniform.merge (closed connection (subset List.mem_cons_self) _ _ former latter)
      next => exact uniform
  exact kept _ _ (List.Subset.refl _) (Component.uniform_range inside _)

private theorem joined_foldl (connections : List Connection) {labels : List Nat} {first second : Nat}
    (joined : Component.Joined labels first second) : Component.Joined (connections.foldl graph.connect labels) first second := by
  induction connections generalizing labels with
  | nil => exact joined
  | cons connection rest further =>
    apply further
    unfold connect
    split
    · exact joined.merge _ _
    · exact joined

/-- Both ends of a connection carry one label. -/
theorem joined_componentLabels {connection : Connection} (member : connection ∈ graph.connections) {left right : Nat}
    (former : graph.lastPosition? connection.left = some left) (latter : graph.lastPosition? connection.right = some right) :
    Component.Joined graph.componentLabels left right := by
  have inside : ∀ {name : String} {position : Nat}, graph.lastPosition? name = some position → position < graph.nodes.length := by
    intro name position found
    simpa [nodeNames] using (List.getElem?_eq_some_iff.mp (lastPosition?_some found)).1
  have met : ∀ (connections : List Connection) (labels : List Nat), labels.length = graph.nodes.length →
      connection ∈ connections → Component.Joined (connections.foldl graph.connect labels) left right := by
    intro connections
    induction connections with
    | nil => exact fun _ _ impossible => absurd impossible List.not_mem_nil
    | cons other rest further =>
      intro labels length among
      rcases List.mem_cons.mp among with rfl | later
      · have merged : graph.connect labels connection = Component.merge labels left right := by rw [connect, former, latter]
        rw [List.foldl_cons, merged]
        exact joined_foldl rest (Component.joined_merge (length ▸ inside former) (length ▸ inside latter))
      · exact further _ ((connect_length graph labels other).trans length) later
  exact met _ _ List.length_range member

/-! Components. -/

/-- The component of a label. -/
def componentOf (graph : MatchGraph) (label : Nat) : Component where
  nodes := ((graph.nodeNames.zip graph.componentLabels).filter fun node => node.2 == label).map Prod.fst
  connections := (graph.connections.zipIdx.filter fun indexed => graph.ownerLabel? indexed.1 == some label).map Prod.snd

theorem mem_components {component : Component} :
    component ∈ graph.components ↔ ∃ label ∈ graph.componentLabels, graph.componentOf label = component := by
  change component ∈ graph.componentLabels.eraseDups.map graph.componentOf ↔ _
  simp only [List.mem_map, List.mem_eraseDups]

theorem mem_componentOf {label : Nat} {name : String} : name ∈ (graph.componentOf label).nodes ↔
    ∃ position : Nat, graph.nodeNames[position]? = some name ∧ graph.componentLabels[position]? = some label := by
  simp only [componentOf, List.mem_map, List.mem_filter, beq_iff_eq]
  constructor
  · rintro ⟨⟨_, _⟩, ⟨zipped, rfl⟩, rfl⟩
    obtain ⟨position, paired⟩ := List.mem_iff_getElem?.mp zipped
    exact ⟨position, List.getElem?_zip_eq_some.mp paired⟩
  · rintro ⟨position, found, labelled⟩
    exact ⟨(name, label), ⟨List.mem_of_getElem? (List.getElem?_zip_eq_some.mpr ⟨found, labelled⟩), rfl⟩, rfl⟩

theorem mem_componentOf_connections {label index : Nat} : index ∈ (graph.componentOf label).connections ↔
    ∃ connection, graph.connections[index]? = some connection ∧ graph.ownerLabel? connection = some label := by
  simp only [componentOf, List.mem_map, List.mem_filter, beq_iff_eq]
  constructor
  · rintro ⟨⟨connection, _⟩, ⟨indexed, owned⟩, rfl⟩
    exact ⟨connection, List.mem_zipIdx_iff_getElem?.mp indexed, owned⟩
  · rintro ⟨connection, found, owned⟩
    exact ⟨(connection, index), ⟨List.mem_zipIdx_iff_getElem?.mpr found, owned⟩, rfl⟩

theorem components_nonempty {component : Component} (member : component ∈ graph.components) : ∃ node, node ∈ component.nodes := by
  obtain ⟨label, known, rfl⟩ := mem_components.mp member
  obtain ⟨position, found⟩ := List.mem_iff_getElem?.mp known
  have inside : position < graph.nodeNames.length := by
    have bound := (List.getElem?_eq_some_iff.mp found).1
    rw [componentLabels_length] at bound
    simpa [nodeNames] using bound
  exact ⟨_, mem_componentOf.mpr ⟨position, List.getElem?_eq_getElem inside, found⟩⟩

/-- Every node belongs to a component. -/
theorem components_span {name : String} (declared : name ∈ graph.nodeNames) :
    ∃ component ∈ graph.components, name ∈ component.nodes := by
  obtain ⟨position, found⟩ := List.mem_iff_getElem?.mp declared
  obtain ⟨label, labelled⟩ := label_of_declared found
  exact ⟨_, mem_components.mpr ⟨label, List.mem_of_getElem? labelled, rfl⟩, mem_componentOf.mpr ⟨position, found, labelled⟩⟩

theorem components_ne_nil : graph.components ≠ [] ↔ graph.nodes ≠ [] := by
  constructor
  · intro some
    obtain ⟨component, member⟩ := List.exists_mem_of_ne_nil _ some
    obtain ⟨name, inside⟩ := components_nonempty member
    obtain ⟨node, declared, -⟩ := List.mem_map.mp (graph.components_nodes member inside)
    exact List.ne_nil_of_mem declared
  · intro some
    obtain ⟨node, member⟩ := List.exists_mem_of_ne_nil _ some
    obtain ⟨component, among, -⟩ := components_span (List.mem_map_of_mem member)
    exact List.ne_nil_of_mem among

/-- The connections of a component are those with an end in it, and both their ends are in it. -/
theorem component_ends (valid : graph.Valid) {component : Component} (member : component ∈ graph.components) {index : Nat}
    {connection : Connection} (found : graph.connections[index]? = some connection) :
    (index ∈ component.connections ↔ connection.left ∈ component.nodes) ∧
      (connection.left ∈ component.nodes ↔ connection.right ∈ component.nodes) := by
  obtain ⟨label, -, rfl⟩ := mem_components.mp member
  obtain ⟨leftDeclared, rightDeclared⟩ := valid.ends connection (List.mem_of_getElem? found)
  obtain ⟨left, former⟩ := lastPosition?_of_declared leftDeclared
  obtain ⟨right, latter⟩ := lastPosition?_of_declared rightDeclared
  obtain ⟨shared, leftLabel, rightLabel⟩ := joined_componentLabels (List.mem_of_getElem? found) former latter
  have placed : ∀ {name : String} {position : Nat}, graph.lastPosition? name = some position →
      graph.componentLabels[position]? = some shared → (name ∈ (graph.componentOf label).nodes ↔ shared = label) := by
    intro name position here labelled
    rw [mem_componentOf]
    constructor
    · rintro ⟨other, same, also⟩
      rw [position_unique valid same (lastPosition?_some here), labelled] at also
      exact Option.some.inj also
    · rintro rfl
      exact ⟨position, lastPosition?_some here, labelled⟩
  have owner : graph.ownerLabel? connection = some shared := by
    obtain ⟨_, -, owned⟩ := ownerLabel?_of_declared leftDeclared
    obtain ⟨position, first, also⟩ := Option.bind_eq_some_iff.mp owned
    rw [position_unique valid (firstPosition?_some first) (lastPosition?_some former), leftLabel] at also
    rw [owned, also]
  refine ⟨?_, (placed former leftLabel).trans (placed latter rightLabel).symm⟩
  rw [placed former leftLabel, mem_componentOf_connections]
  constructor
  · rintro ⟨other, alsoFound, owned⟩
    cases found.symm.trans alsoFound
    exact Option.some.inj (owner.symm.trans owned)
  · rintro rfl
    exact ⟨connection, found, owner⟩

private theorem eraseDups_nodup (labels : List Nat) : labels.eraseDups.Nodup := by
  match labels with
  | [] => exact List.nodup_nil
  | label :: rest =>
    rw [List.eraseDups_cons]
    refine List.nodup_cons.mpr ⟨fun again => ?_, eraseDups_nodup _⟩
    have different := (List.mem_filter.mp (List.mem_eraseDups.mp again)).2
    rw [beq_self_eq_true] at different
    cases different
termination_by labels.length
decreasing_by exact Nat.lt_succ_of_le (List.length_filter_le _ _)

/-- No node belongs to two components. -/
theorem components_disjoint (valid : graph.Valid) :
    graph.components.Pairwise fun first second => ∀ name ∈ first.nodes, name ∉ second.nodes := by
  change (graph.componentLabels.eraseDups.map graph.componentOf).Pairwise _
  refine List.pairwise_map.mpr ((eraseDups_nodup _).imp fun {first second} different name former latter => different ?_)
  obtain ⟨position, found, labelled⟩ := mem_componentOf.mp former
  obtain ⟨other, alsoFound, alsoLabelled⟩ := mem_componentOf.mp latter
  rw [position_unique valid found alsoFound] at labelled
  exact Option.some.inj (labelled.symm.trans alsoLabelled)

/-- A set of nodes that no connection of a component leaves holds all of its nodes as soon as it holds one. -/
theorem component_connected (valid : graph.Valid) {component : Component} (member : component ∈ graph.components)
    (inside : String → Prop) (closed : ∀ index ∈ component.connections, ∀ connection, graph.connections[index]? = some connection →
      (inside connection.left ↔ inside connection.right)) {first second : String} (former : first ∈ component.nodes)
    (latter : second ∈ component.nodes) (holds : inside first) : inside second := by
  have uniform : Component.Uniform (fun position => ∀ name, graph.nodeNames[position]? = some name → name ∈ component.nodes →
      inside name) graph.componentLabels := by
    apply uniform_componentLabels
    intro connection among left right atLeft atRight
    obtain ⟨index, found⟩ := List.mem_iff_getElem?.mp among
    obtain ⟨owned, shared⟩ := component_ends valid member found
    have only : ∀ {node : String} {position : Nat}, graph.lastPosition? node = some position →
        ((∀ name, graph.nodeNames[position]? = some name → name ∈ component.nodes → inside name) ↔
          (node ∈ component.nodes → inside node)) := by
      intro node position here
      have same := lastPosition?_some here
      exact ⟨fun every => every _ same, fun one name also => by cases same.symm.trans also; exact one⟩
    rw [only atLeft, only atRight]
    have crossing := fun here => closed index (owned.mpr here) connection found
    exact ⟨fun one here => (crossing (shared.mpr here)).mp (one (shared.mpr here)),
      fun one here => (crossing here).mpr (one (shared.mp here))⟩
  obtain ⟨label, -, rfl⟩ := mem_components.mp member
  obtain ⟨position, found, labelled⟩ := mem_componentOf.mp former
  obtain ⟨other, alsoFound, alsoLabelled⟩ := mem_componentOf.mp latter
  refine (uniform position other label labelled alsoLabelled).mp (fun name same _ => ?_) second alsoFound latter
  cases found.symm.trans same
  exact holds

end MatchGraph

end MatchPlanner
