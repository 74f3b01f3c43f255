import Mathlib.Data.List.ProdSigma
import Mathlib.Data.Option.Basic
import MatchPlanner.Planning.Session
import MatchPlanner.Proofs.Producers

/-! The standard leaves in their order, what they bind and what they solve. -/

namespace MatchPlanner

/-- The leaf planner offers standard leaves only, in whatever order. -/
def Environment.StandardLeaves {ν : Type} (environment : Environment ν) : Prop :=
  ∀ call node predicates leaves, environment.leafPlanner call node predicates environment.statistics = .ok leaves →
    ∀ leaf ∈ leaves, leaf ∈ LeafCandidate.standard node predicates environment.statistics

/-- The index that was listed first for the label and the property. -/
def Statistics.FirstIndex {ν : Type} (statistics : Statistics ν) (label property : String) (index : IndexInfo) : Prop :=
  ∃ before after, statistics.indexes = before ++ index :: after ∧ (index.label = label ∧ index.property = property) ∧
    ∀ other ∈ before, ¬(other.label = label ∧ other.property = property)

theorem Statistics.index?_eq_some {ν : Type} {statistics : Statistics ν} {label property : String} {index : IndexInfo} :
    statistics.index? label property = some index ↔ statistics.FirstIndex label property index := by
  simp only [index?, FirstIndex, List.find?_eq_some_iff_append, Bool.and_eq_true, beq_iff_eq, Bool.not_eq_true',
    Bool.and_eq_false_iff, beq_eq_false_iff_ne, not_and_or]
  constructor
  · rintro ⟨here, before, after, listed, earlier⟩
    exact ⟨before, after, listed, here, earlier⟩
  · rintro ⟨before, after, listed, here, earlier⟩
    exact ⟨here, before, after, listed, earlier⟩

/-- What the sources yield, in their order: an entry for every source that can yield one. -/
inductive Enumerates {α β : Type} (yields : α → β → Prop) : List α → List β → Prop where
  | nil : Enumerates yields [] []
  | entry {source : α} {entry : β} {sources : List α} {entries : List β} (yielded : yields source entry)
      (rest : Enumerates yields sources entries) : Enumerates yields (source :: sources) (entry :: entries)
  | pass {source : α} {sources : List α} {entries : List β} (barren : ∀ entry, ¬yields source entry)
      (rest : Enumerates yields sources entries) : Enumerates yields (source :: sources) entries

namespace Enumerates

variable {α β γ : Type} {yields : α → β → Prop}

theorem filterMap {pick? : α → Option β} (means : ∀ source entry, pick? source = some entry ↔ yields source entry)
    (sources : List α) : Enumerates yields sources (sources.filterMap pick?) := by
  induction sources with
  | nil => exact .nil
  | cons source sources further =>
    cases found : pick? source with
    | none =>
      rw [List.filterMap_cons_none found]
      exact .pass (fun entry yielded => by simp [(means _ _).mpr yielded] at found) further
    | some entry =>
      rw [List.filterMap_cons_some found]
      exact .entry ((means _ _).mp found) further

theorem barren {sources : List α} (nothing : ∀ source ∈ sources, ∀ entry, ¬yields source entry) : Enumerates yields sources [] := by
  induction sources with
  | nil => exact .nil
  | cons source sources further =>
    exact .pass (nothing source List.mem_cons_self) (further fun other among => nothing other (List.mem_cons_of_mem _ among))

theorem append {sources others : List α} {entries more : List β} (first : Enumerates yields sources entries)
    (second : Enumerates yields others more) : Enumerates yields (sources ++ others) (entries ++ more) := by
  induction first with
  | nil => exact second
  | entry yielded _ further => exact .entry yielded further
  | pass barren _ further => exact .pass barren further

theorem map {place : γ → α} {sources : List γ} {entries : List β}
    (enumerated : Enumerates (fun source => yields (place source)) sources entries) : Enumerates yields (sources.map place) entries := by
  induction enumerated with
  | nil => exact .nil
  | entry yielded _ further => exact .entry yielded further
  | pass barren _ further => exact .pass barren further

theorem product {yields : α × γ → β → Prop} {entries : α → List β} {seconds : List γ}
    (each : ∀ first, Enumerates (fun second => yields (first, second)) seconds (entries first)) (firsts : List α) :
    Enumerates yields (firsts ×ˢ seconds) (firsts.flatMap entries) := by
  induction firsts with
  | nil => exact .nil
  | cons first firsts further =>
    rw [List.product_cons, List.flatMap_cons]
    exact (each first).map.append further

theorem yielded_of_mem {sources : List α} {entries : List β} (enumerated : Enumerates yields sources entries) {entry : β}
    (member : entry ∈ entries) : ∃ source ∈ sources, yields source entry := by
  induction enumerated with
  | nil => exact absurd member List.not_mem_nil
  | @entry source entry sources entries yielded _ further =>
    rcases List.mem_cons.mp member with rfl | later
    · exact ⟨source, List.mem_cons_self, yielded⟩
    · obtain ⟨other, among, yields⟩ := further later
      exact ⟨other, List.mem_cons_of_mem _ among, yields⟩
  | pass _ _ further =>
    obtain ⟨other, among, yields⟩ := further member
    exact ⟨other, List.mem_cons_of_mem _ among, yields⟩

end Enumerates

namespace LeafCandidate

/-- A property of the node is said to equal something constant, on either side. -/
inductive Equates (node property : String) (constant : Expression) : Expression → Prop where
  | forward (closed : constant.dependencies = ∅) : Equates node property constant (.binary .equal (.property node property) constant)
  | backward (closed : constant.dependencies = ∅) : Equates node property constant (.binary .equal constant (.property node property))

/-- The label test that a look at its first label answers, which it does when there is no other label. -/
def answered (node label : String) (more : List String) : List Expression :=
  if more = [] then [.hasLabels node [label]] else []

/-- The scan of the label that a test names first. -/
inductive Scans (node : String) : Expression → LeafCandidate → Prop where
  | intro (label : String) (more : List String) :
    Scans node (.hasLabels node (label :: more)) ⟨.labelScan node label, answered node label more⟩

/-- The seek of an equality among the nodes with the label that a test names first. -/
inductive Seeks {ν : Type} (statistics : Statistics ν) (node : String) : Expression × Expression → LeafCandidate → Prop where
  | intro {property : String} {constant equality : Expression} {label : String} {index : IndexInfo} (more : List String)
      (equates : Equates node property constant equality) (indexed : statistics.FirstIndex label property index) :
    Seeks statistics node (equality, .hasLabels node (label :: more))
      ⟨.indexSeek node label property constant index.unique, answered node label more ++ [equality]⟩

variable {ν : Type} {node property : String} {constant predicate : Expression} {predicates : List Expression}
  {statistics : Statistics ν}

theorem Equates.closed (equates : Equates node property constant predicate) : constant.dependencies = ∅ := by
  cases equates <;> assumption

theorem Equates.plain (equates : Equates node property constant predicate) : predicate.isCheck = false := by
  cases equates <;> rfl

theorem Equates.ne_hasLabels (equates : Equates node property constant predicate) (element : String) (labels : List String) :
    predicate ≠ .hasLabels element labels := by
  rintro rfl
  cases equates

theorem lookupSide?_eq_some {first second : Expression} :
    lookupSide? node first second = some (property, constant) ↔
      first = .property node property ∧ second = constant ∧ constant.dependencies = ∅ := by
  constructor
  · intro looked
    unfold lookupSide? at looked
    split at looked
    · split at looked
      next reads =>
        cases looked
        exact ⟨reads.1 ▸ rfl, rfl, reads.2⟩
      next => cases looked
    · cases looked
  · rintro ⟨rfl, rfl, closed⟩
    exact if_pos ⟨rfl, closed⟩

theorem equality?_eq_some :
    equality? node predicate = some (property, constant) ↔ Equates node property constant predicate := by
  constructor
  · intro found
    unfold equality? at found
    split at found
    next left right =>
      rcases (Option.orElse_eq_some ..).mp found with looked | ⟨-, looked⟩
      · obtain ⟨rfl, rfl, closed⟩ := lookupSide?_eq_some.mp looked
        exact .forward closed
      · obtain ⟨rfl, rfl, closed⟩ := lookupSide?_eq_some.mp looked
        exact .backward closed
    next => cases found
  · rintro (closed | closed)
    · exact (Option.orElse_eq_some ..).mpr (.inl (lookupSide?_eq_some.mpr ⟨rfl, rfl, closed⟩))
    · refine (Option.orElse_eq_some ..).mpr (.inr ⟨?_, lookupSide?_eq_some.mpr ⟨rfl, rfl, closed⟩⟩)
      -- A property of the node reads the node, so it is not constant.
      refine Option.eq_none_iff_forall_ne_some.mpr fun (name, value) looked => ?_
      obtain ⟨-, rfl, empty⟩ := lookupSide?_eq_some.mp looked
      have reads : node ∈ (Expression.property node property).dependencies := NameSet.mem_ofList.mpr List.mem_cons_self
      exact NameSet.not_mem_empty node (empty ▸ reads)

theorem labelTest?_eq_some {test : LabelTest} :
    labelTest? node predicate = some test ↔ ∃ label more, predicate = .hasLabels node (label :: more) ∧
      test = ⟨label, predicate, answered node label more⟩ := by
  constructor
  · intro made
    unfold labelTest? at made
    split at made
    next element label more =>
      split at made
      next same =>
        cases made
        refine ⟨label, more, by rw [same], ?_⟩
        cases more <;> simp [answered, same]
      next => cases made
    next => cases made
  · rintro ⟨label, more, rfl, rfl⟩
    cases more <;> simp [labelTest?, answered]

theorem enumerates_scans (node : String) (predicates : List Expression) :
    Enumerates (Scans node) predicates
      ((predicates.filterMap (labelTest? node)).map fun test => ⟨.labelScan node test.label, test.solved⟩) := by
  rw [List.map_filterMap]
  refine .filterMap (fun predicate candidate => ?_) predicates
  simp only [Option.map_eq_some_iff, labelTest?_eq_some]
  constructor
  · rintro ⟨test, ⟨label, more, rfl, rfl⟩, rfl⟩
    exact .intro label more
  · rintro ⟨label, more⟩
    exact ⟨_, ⟨label, more, rfl, rfl⟩, rfl⟩

theorem enumerates_seeks (statistics : Statistics ν) (node : String) (predicates : List Expression) (equality : Expression) :
    Enumerates (fun test => Seeks statistics node (equality, test)) predicates
      (seeks statistics node (predicates.filterMap (labelTest? node)) equality) := by
  unfold seeks
  split
  next different =>
    refine .barren ?_
    rintro test - candidate ⟨more, equates, -⟩
    rw [equality?_eq_some.mpr equates] at different
    cases different
  next property constant found =>
    have equates := equality?_eq_some.mp found
    rw [List.filterMap_filterMap]
    refine .filterMap (fun test candidate => ?_) predicates
    simp only [Option.bind_eq_some_iff, labelTest?_eq_some, Option.map_eq_some_iff, Statistics.index?_eq_some]
    constructor
    · rintro ⟨_, ⟨label, more, rfl, rfl⟩, index, indexed, rfl⟩
      exact .intro more equates indexed
    · rintro ⟨more, same, indexed⟩
      rw [equality?_eq_some.mpr same] at found
      cases found
      exact ⟨_, ⟨_, more, rfl, rfl⟩, _, indexed, rfl⟩

theorem mem_standard {candidate : LeafCandidate} (member : candidate ∈ standard node predicates statistics) :
    candidate = ⟨.allNodesScan node, []⟩ ∨ (∃ test ∈ predicates, Scans node test candidate) ∨
      ∃ equality ∈ predicates, ∃ test ∈ predicates, Seeks statistics node (equality, test) candidate := by
  unfold standard at member
  rcases List.mem_append.mp member with scanned | sought
  · rcases List.mem_cons.mp scanned with same | labelled
    · exact .inl same
    · exact .inr (.inl ((enumerates_scans node predicates).yielded_of_mem labelled))
  · obtain ⟨equality, among, made⟩ := List.mem_flatMap.mp sought
    exact .inr (.inr ⟨equality, among, (enumerates_seeks statistics node predicates equality).yielded_of_mem made⟩)

theorem mem_answered {label : String} {more : List String} :
    predicate ∈ answered node label more ↔ more = [] ∧ predicate = .hasLabels node [label] := by
  cases more <;> simp [answered]

theorem nodup_answered (node label : String) (more : List String) : (answered node label more).Nodup := by
  cases more <;> simp [answered]

theorem answered_subset {label : String} {more : List String} (member : .hasLabels node (label :: more) ∈ predicates) :
    answered node label more ⊆ predicates := by
  intro predicate solved
  obtain ⟨rfl, rfl⟩ := mem_answered.mp solved
  exact member

/-- A standard leaf reads the nodes of one variable; the predicates it solves are among those it was given, each once. -/
structure Sound (node : String) (predicates : List Expression) (leaf : LeafCandidate) : Prop where
  binds : leaf.operator.binds = [node]
  subset : leaf.solved ⊆ predicates
  distinct : leaf.solved.Nodup
  plain : ∀ predicate ∈ leaf.solved, predicate.isCheck = false
  closed : ∀ node label property value unique, leaf.operator = .indexSeek node label property value unique → value.dependencies = ∅

theorem sound_of_standard {leaf : LeafCandidate} (member : leaf ∈ standard node predicates statistics) :
    Sound node predicates leaf := by
  obtain rfl | ⟨test, given, scans⟩ | ⟨equality, given, test, among, seeks⟩ := mem_standard member
  · exact ⟨rfl, List.nil_subset _, .nil, fun _ impossible => absurd impossible List.not_mem_nil,
      fun _ _ _ _ _ impossible => by cases impossible⟩
  · obtain ⟨label, more⟩ := scans
    exact ⟨rfl, answered_subset given, nodup_answered node label more, fun predicate solved => (mem_answered.mp solved).2 ▸ rfl,
      fun _ _ _ _ _ impossible => by cases impossible⟩
  · cases seeks with
    | @intro property constant _ label index more equates indexed =>
      refine ⟨rfl, ?_, ?_, ?_, ?_⟩
      · exact List.append_subset.mpr ⟨answered_subset among, fun _ last => List.mem_singleton.mp last ▸ given⟩
      · refine List.nodup_append.mpr ⟨nodup_answered node label more, List.nodup_singleton _, fun first solved second last same => ?_⟩
        rw [(mem_answered.mp solved).2, List.mem_singleton.mp last] at same
        exact equates.ne_hasLabels _ _ same.symm
      · intro predicate solved
        rcases List.mem_append.mp solved with labelled | last
        · exact (mem_answered.mp labelled).2 ▸ rfl
        · exact List.mem_singleton.mp last ▸ equates.plain
      · intro _ _ _ _ _ same
        cases same
        exact equates.closed

end LeafCandidate

end MatchPlanner
