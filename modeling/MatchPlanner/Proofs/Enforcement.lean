import Mathlib.Data.List.Perm.Subperm
import MatchPlanner.Proofs.Leaves
import MatchPlanner.Proofs.Meaning

/-! Why what a standard leaf solves needs no filter: the operator enforces what its candidate makes redundant, and it enforces
nothing that was not asked for. -/

namespace MatchPlanner

/-- What the nodes that an operator produces have in common. -/
inductive LeafConstraint where
  | label (label : String)
  | lookup (property : String) (value : Expression)

/-- Whether a node is as a constraint has it. What a seek looks up is evaluated before any variable is bound. -/
def LeafConstraint.Met {Value : Type} (reading : Interpretation Value) (element : Value) : LeafConstraint → Prop
  | .label name => reading.hasLabel element name = true
  | .lookup property value =>
    reading.holds (reading.apply .equal (reading.property element property) (value.value reading fun _ => reading.literal .null))

def Leaf.constraints : Leaf → List LeafConstraint
  | .argument _ => []
  | .allNodesScan _ => []
  | .labelScan _ label => [.label label]
  | .indexSeek _ label property value _ => [.label label, .lookup property value]

/-- A scan or a seek comes upon the nodes that meet its constraints. -/
def Leaf.Produces {Value : Type} (reading : Interpretation Value) (operator : Leaf) (element : Value) : Prop :=
  ∀ constraint ∈ operator.constraints, constraint.Met reading element

namespace LeafCandidate

variable {ν : Type} {node : String} {predicates : List Expression} {statistics : Statistics ν} {candidate : LeafCandidate}

section

variable {Value : Type} {reading : Interpretation Value}

/-- A candidate makes redundant only what its operator enforces, and its operator enforces only what is given. -/
structure Enforces (reading : Interpretation Value) (node : String) (predicates : List Expression) (candidate : LeafCandidate) :
    Prop where
  solved : ∀ predicate ∈ candidate.solved, ∃ constraint ∈ candidate.operator.constraints,
    ∀ row, predicate.Holds reading row ↔ constraint.Met reading (row node)
  single : ∀ element labels, .hasLabels element labels ∈ candidate.solved → labels.length = 1
  asked : ∀ constraint ∈ candidate.operator.constraints, ∃ predicate ∈ predicates,
    ∀ row, predicate.Holds reading row → constraint.Met reading (row node)

theorem holds_hasLabels {row : String → Value} {labels : List String} :
    (Expression.hasLabels node labels).Holds reading row ↔
      ∀ label ∈ labels, (LeafConstraint.label label).Met reading (row node) := by
  rw [Expression.Holds, Expression.value, reading.holds_boolean, List.all_eq_true]
  rfl

theorem holds_answered {label : String} {more : List String} {predicate : Expression}
    (solved : predicate ∈ answered node label more) (row : String → Value) :
    predicate.Holds reading row ↔ (LeafConstraint.label label).Met reading (row node) := by
  obtain ⟨-, rfl⟩ := mem_answered.mp solved
  rw [holds_hasLabels, List.forall_mem_singleton]

theorem single_answered {label element : String} {more labels : List String}
    (solved : .hasLabels element labels ∈ answered node label more) : labels.length = 1 := by
  obtain ⟨-, same⟩ := mem_answered.mp solved
  cases same
  rfl

/-- The seek has no row to read its constant from. As the constant reads no variable, it is the same in every row. -/
theorem Equates.holds {property : String} {constant equality : Expression} (equates : Equates node property constant equality)
    (row : String → Value) :
    equality.Holds reading row ↔ (LeafConstraint.lookup property constant).Met reading (row node) := by
  have constantly : constant.value reading row = constant.value reading fun _ => reading.literal .null :=
    Expression.value_congr constant fun name reads => absurd (equates.closed ▸ reads) (NameSet.not_mem_empty name)
  cases equates with
  | forward => rw [Expression.Holds, Expression.value, Expression.value, constantly, LeafConstraint.Met]
  | backward => rw [Expression.Holds, Expression.value, Expression.value, constantly, reading.equal_comm, LeafConstraint.Met]

theorem Scans.enforces {test : Expression} (member : test ∈ predicates) (scans : Scans node test candidate) :
    Enforces reading node predicates candidate := by
  cases scans with
  | intro label more =>
    refine ⟨fun predicate solved => ⟨_, List.mem_cons_self, holds_answered solved⟩, fun _ _ solved => single_answered solved, ?_⟩
    intro constraint enforced
    rw [List.mem_singleton.mp enforced]
    exact ⟨_, member, fun row holds => holds_hasLabels.mp holds label List.mem_cons_self⟩

theorem Seeks.enforces {equality test : Expression} (equalityGiven : equality ∈ predicates) (testGiven : test ∈ predicates)
    (seeks : Seeks statistics node (equality, test) candidate) : Enforces reading node predicates candidate := by
  cases seeks with
  | @intro property constant _ label index more equates indexed =>
    constructor
    case solved =>
      intro predicate solved
      rcases List.mem_append.mp solved with labelled | last
      · exact ⟨.label label, List.mem_cons_self, holds_answered labelled⟩
      · rw [List.mem_singleton.mp last]
        exact ⟨.lookup property constant, List.mem_cons_of_mem _ List.mem_cons_self, equates.holds⟩
    case single =>
      intro element labels solved
      rcases List.mem_append.mp solved with labelled | last
      · exact single_answered labelled
      · exact absurd (List.mem_singleton.mp last).symm (equates.ne_hasLabels element labels)
    case asked =>
      intro constraint enforced
      rcases List.mem_cons.mp enforced with rfl | lookup
      · exact ⟨_, testGiven, fun row holds => holds_hasLabels.mp holds label List.mem_cons_self⟩
      · rw [List.mem_singleton.mp lookup]
        exact ⟨equality, equalityGiven, fun row => (equates.holds row).mp⟩

theorem enforces_of_standard (member : candidate ∈ standard node predicates statistics) :
    Enforces reading node predicates candidate := by
  obtain rfl | ⟨test, given, scans⟩ | ⟨equality, given, test, among, seeks⟩ := mem_standard member
  · exact ⟨fun _ solved => absurd solved List.not_mem_nil, fun _ _ solved => absurd solved List.not_mem_nil,
      fun _ enforced => absurd enforced List.not_mem_nil⟩
  · exact scans.enforces given
  · exact seeks.enforces given among

/-- Nothing is lost and nothing is added when the predicates that a candidate does not solve are left as filters above it. -/
theorem Enforces.produces_iff (enforces : Enforces reading node predicates candidate) {unsolved : List Expression}
    (split : (candidate.solved ++ unsolved).Perm predicates) (row : String → Value) :
    (candidate.operator.Produces reading (row node) ∧ ∀ predicate ∈ unsolved, predicate.Holds reading row) ↔
      ∀ predicate ∈ predicates, predicate.Holds reading row := by
  constructor
  · rintro ⟨produced, filtered⟩ predicate member
    rcases List.mem_append.mp (split.mem_iff.mpr member) with solved | left
    · obtain ⟨constraint, enforced, same⟩ := enforces.solved predicate solved
      exact (same row).mpr (produced constraint enforced)
    · exact filtered predicate left
  · intro holds
    refine ⟨fun constraint enforced => ?_, fun predicate left => holds predicate (split.subset (List.mem_append_right _ left))⟩
    obtain ⟨predicate, member, entails⟩ := enforces.asked constraint enforced
    exact entails row (holds predicate member)

end

/-- The standard leaf planner offers a scan of all nodes, a scan for every label test and a seek for every equality on a property
that is indexed for the label of a test. Each of them together with the predicates it leaves says what all the predicates say. -/
theorem standard_enforces (node : String) (predicates : List Expression) (statistics : Statistics ν) :
    (∃ scans seeks, standard node predicates statistics = ⟨.allNodesScan node, []⟩ :: scans ++ seeks ∧
      Enumerates (Scans node) predicates scans ∧ Enumerates (Seeks statistics node) (predicates ×ˢ predicates) seeks) ∧
    ∀ candidate ∈ standard node predicates statistics,
      candidate.operator.binds = [node] ∧ candidate.solved.Subperm predicates ∧
      ∀ {Value : Type} (reading : Interpretation Value), Enforces reading node predicates candidate ∧
        ∀ unsolved, (candidate.solved ++ unsolved).Perm predicates → ∀ row,
          (candidate.operator.Produces reading (row node) ∧ ∀ predicate ∈ unsolved, predicate.Holds reading row) ↔
            ∀ predicate ∈ predicates, predicate.Holds reading row := by
  refine ⟨⟨_, _, rfl, enumerates_scans node predicates, .product (enumerates_seeks statistics node predicates) predicates⟩, ?_⟩
  intro candidate member
  have sound := sound_of_standard member
  refine ⟨sound.binds, sound.distinct.subperm sound.subset, fun reading => ?_⟩
  have enforces : Enforces reading node predicates candidate := enforces_of_standard member
  exact ⟨enforces, fun _ split row => enforces.produces_iff split row⟩

/-- Nodes are numbers, and so is every property of theirs. -/
def numbers : Interpretation Literal where
  literal := id
  parameter := .text
  property element _ := element
  apply operator first second :=
    match operator, first, second with
    | .equal, .integer first, .integer second => .boolean (first == second)
    | _, _, _ => .null
  negate _ := .null
  hasLabel element label :=
    match element with
    | .integer number => if label = "Even" then number % 2 == 0 else label = "Positive" && 0 < number
    | _ => false
  hasType _ _ := false
  call _ _ := .null
  every _ _ := .null
  subquery _ _ := .null
  holds value := value = .boolean true
  holds_boolean truth := by simp
  equal_comm first second := by cases first <;> cases second <;> simp only [BEq.comm]

/-- A test of two labels, a label tested twice, and an equality written back to front. -/
def crowded : List Expression :=
  [.hasLabels "n" ["Even", "Positive"], .hasLabels "n" ["Even"], .equals (.literal (.integer 2)) (.property "n" "value"),
    .hasLabels "n" ["Even"]]

/-- The first index of a label and a property says whether a seek is unique. -/
def indexedTwice : Statistics Unit :=
  { Statistics.empty with indexes := [⟨"Even", "value", false⟩, ⟨"Positive", "value", false⟩, ⟨"Even", "value", true⟩] }

theorem crowded_enforced :
    (standard "n" crowded indexedTwice).map LeafCandidate.operator =
      .allNodesScan "n" :: List.replicate 3 (.labelScan "n" "Even") ++
        List.replicate 3 (.indexSeek "n" "Even" "value" (.literal (.integer 2)) false) ∧
    ∀ row, ((Leaf.indexSeek "n" "Even" "value" (.literal (.integer 2)) false).Produces numbers (row "n") ∧
      ∀ predicate ∈ [Expression.hasLabels "n" ["Even", "Positive"], .hasLabels "n" ["Even"]], predicate.Holds numbers row) ↔
        ∀ predicate ∈ crowded, predicate.Holds numbers row := by
  refine ⟨rfl, ?_⟩
  have member : ⟨.indexSeek "n" "Even" "value" (.literal (.integer 2)) false,
      [.hasLabels "n" ["Even"], .equals (.literal (.integer 2)) (.property "n" "value")]⟩ ∈ standard "n" crowded indexedTwice :=
    List.mem_of_getElem? (i := 5) rfl
  obtain ⟨-, -, enforces⟩ := (standard_enforces "n" crowded indexedTwice).2 _ member
  exact (enforces numbers).2 _ List.perm_middle

end LeafCandidate

end MatchPlanner
