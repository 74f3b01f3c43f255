import MatchPlanner.Proofs.Bounds
import MatchPlanner.Proofs.Equivalence

/-! Conjunctions taken apart and put together again. The atoms of a predicate read what it reads, run a subquery when it does and keep the
rows it keeps. Atoms are put together to the left, so a predicate is found again when its own ANDs are nested that way. -/

namespace MatchPlanner

namespace Expression

/-- An AND of two predicates. -/
def IsConjunction (expression : Expression) : Prop := ∃ left right, expression = .binary .and left right

/-- What a predicate is made of at the top: it is reached from the predicate through ANDs only. -/
inductive OnSpine : Expression → Expression → Prop where
  | whole (expression : Expression) : OnSpine expression expression
  | left {left right part : Expression} : OnSpine left part → OnSpine (.binary .and left right) part
  | right {left right part : Expression} : OnSpine right part → OnSpine (.binary .and left right) part

/-- No AND at the top of a predicate has an AND for its right operand. -/
def LeftNested (expression : Expression) : Prop :=
  ∀ left right, OnSpine expression (.binary .and left right) → ¬ right.IsConjunction

theorem isConjunction_binary (left right : Expression) : (Expression.binary .and left right).IsConjunction := ⟨left, right, rfl⟩

theorem not_isConjunction_iff {expression : Expression} :
    ¬ expression.IsConjunction ↔ ∀ left right, expression = .binary .and left right → False := by
  simp only [IsConjunction, not_exists]

/-! ## The spine of a predicate -/

theorem onSpine_conjunction {left right part : Expression} :
    OnSpine (.binary .and left right) part ↔ part = .binary .and left right ∨ OnSpine left part ∨ OnSpine right part := by
  constructor
  · intro onSpine
    cases onSpine with
    | whole => exact .inl rfl
    | left former => exact .inr (.inl former)
    | right latter => exact .inr (.inr latter)
  · intro reached
    rcases reached with rfl | former | latter
    · exact .whole _
    · exact .left former
    · exact .right latter

theorem onSpine_atom {atom part : Expression} (single : ¬ atom.IsConjunction) : OnSpine atom part ↔ part = atom := by
  constructor
  · intro onSpine
    cases onSpine with
    | whole => rfl
    | left | right => exact absurd (isConjunction_binary ..) single
  · intro same
    exact same ▸ .whole _

theorem leftNested_atom {atom : Expression} (single : ¬ atom.IsConjunction) : atom.LeftNested := by
  intro left right onSpine
  exact absurd ⟨left, right, ((onSpine_atom single).mp onSpine).symm⟩ single

theorem leftNested_conjunction {left right : Expression} :
    (Expression.binary .and left right).LeftNested ↔ left.LeftNested ∧ ¬ right.IsConjunction := by
  constructor
  · intro nested
    exact ⟨fun former latter onSpine => nested former latter (.left onSpine), nested left right (.whole _)⟩
  · intro ⟨nested, single⟩ former latter onSpine
    -- The right operand is an atom, so its spine goes no further.
    rcases onSpine_conjunction.mp onSpine with same | onLeft | onRight
    · cases same
      exact single
    · exact nested former latter onLeft
    · exact leftNested_atom single former latter onRight

/-! ## Taking apart -/

theorem conjuncts_atom {atom : Expression} (single : ¬ atom.IsConjunction) : atom.conjuncts = [atom] :=
  conjuncts.eq_2 _ (not_isConjunction_iff.mp single)

/-- The atoms are the parts of the spine that are no ANDs. -/
theorem mem_conjuncts {atom expression : Expression} :
    atom ∈ expression.conjuncts ↔ OnSpine expression atom ∧ ¬ atom.IsConjunction := by
  fun_induction conjuncts with
  | case1 left right former latter =>
    rw [List.mem_append, former, latter, onSpine_conjunction, ← or_and_right]
    -- The whole is on the spine as well, but it is an AND.
    refine and_congr_left fun single => (or_iff_right ?_).symm
    rintro rfl
    exact single (isConjunction_binary ..)
  | case2 whole other =>
    have single := not_isConjunction_iff.mpr other
    rw [List.mem_singleton, onSpine_atom single]
    exact ⟨fun same => ⟨same, same ▸ single⟩, And.left⟩

theorem dependenciesOf_conjuncts (expression : Expression) : dependenciesOf expression.conjuncts = expression.dependencies :=
  NameSet.ext fun _ => mem_dependenciesOf.trans (mem_dependencies_conjuncts expression)

theorem any_runsSubquery_conjuncts (expression : Expression) : expression.conjuncts.any runsSubquery = expression.runsSubquery := by
  fun_induction conjuncts with
  | case1 left right former latter => rw [List.any_append, former, latter, runsSubquery]
  | case2 atom other => rw [List.any_cons, List.any_nil, Bool.or_false]

/-! ## Putting together -/

theorem conjuncts_foldl (first : Expression) (rest : List Expression) :
    (rest.foldl (.binary .and) first).conjuncts = first.conjuncts ++ rest.flatMap conjuncts := by
  induction rest generalizing first with
  | nil => rw [List.foldl_nil, List.flatMap_nil, List.append_nil]
  | cons second rest further => rw [List.foldl_cons, further, conjuncts, List.flatMap_cons, List.append_assoc]

theorem leftNested_foldl {first : Expression} {rest : List Expression} (nested : first.LeftNested)
    (single : ∀ atom ∈ rest, ¬ atom.IsConjunction) : (rest.foldl (.binary .and) first).LeftNested := by
  induction rest generalizing first with
  | nil => exact nested
  | cons second rest further =>
    rw [List.forall_mem_cons] at single
    exact further (leftNested_conjunction.mpr ⟨nested, single.1⟩) single.2

/-- A predicate put together from atoms is nested to the left. -/
theorem leftNested_of_conjunction? {atoms : List Expression} {joined : Expression} (single : ∀ atom ∈ atoms, ¬ atom.IsConjunction)
    (joins : conjunction? atoms = some joined) : joined.LeftNested := by
  cases atoms with
  | nil => cases joins
  | cons first rest =>
    cases joins
    rw [List.forall_mem_cons] at single
    exact leftNested_foldl (leftNested_atom single.1) single.2

theorem conjunction?_concat {atoms : List Expression} {joined : Expression} (joins : conjunction? atoms = some joined)
    (last : Expression) : conjunction? (atoms ++ [last]) = some (.binary .and joined last) := by
  cases atoms with
  | nil => cases joins
  | cons first rest =>
    cases joins
    rw [List.cons_append, conjunction?, List.foldl_append, List.foldl_cons, List.foldl_nil]

theorem conjunction?_conjuncts {expression : Expression} (nested : expression.LeftNested) :
    conjunction? expression.conjuncts = some expression := by
  fun_induction conjuncts with
  | case1 left right former latter =>
    obtain ⟨nested, single⟩ := leftNested_conjunction.mp nested
    rw [conjuncts_atom single]
    exact conjunction?_concat (former nested) right
  | case2 atom other => rfl

/-- What is the same as a conjunction is one of the same operands. -/
theorem conjunction_of_same {left right other : Expression} (same : (Expression.binary .and left right).same other = true) :
    ∃ left' right', other = .binary .and left' right' ∧ left.same left' = true ∧ right.same right' = true := by
  cases other with
  | binary operator left' right' =>
    simp only [Expression.same, Bool.and_eq_true, beq_iff_eq] at same
    obtain ⟨⟨rfl, sameLeft⟩, sameRight⟩ := same
    exact ⟨left', right', rfl, sameLeft, sameRight⟩
  | _ => cases same

theorem isConjunction_of_same {first second : Expression} (same : first.same second = true) (conjunction : first.IsConjunction) :
    second.IsConjunction := by
  obtain ⟨left, right, rfl⟩ := conjunction
  obtain ⟨left', right', rfl, -⟩ := conjunction_of_same same
  exact isConjunction_binary left' right'

theorem leftNested_of_same {first second : Expression} (nested : first.LeftNested) (same : first.same second = true) :
    second.LeftNested := by
  fun_induction conjuncts first generalizing second with
  | case1 left right former latter =>
    obtain ⟨nested, single⟩ := leftNested_conjunction.mp nested
    obtain ⟨left', right', rfl, sameLeft, sameRight⟩ := conjunction_of_same same
    refine leftNested_conjunction.mpr ⟨former nested sameLeft, fun conjunction => single ?_⟩
    exact isConjunction_of_same (sameness.symm sameRight) conjunction
  | case2 atom other =>
    have single := not_isConjunction_iff.mpr other
    exact leftNested_atom fun conjunction => single (isConjunction_of_same (sameness.symm same) conjunction)

end Expression

/-! ## What is kept of the rows -/

namespace CostModel

variable (model : CostModel Rat) (statistics : Statistics Rat)

theorem selectivity_conjunction (left right : Expression) : model.selectivity statistics (.binary .and left right) =
    model.selectivity statistics left * model.selectivity statistics right := by
  obtain ⟨positive, small⟩ := model.selectivity_mem statistics left
  obtain ⟨positive', small'⟩ := model.selectivity_mem statistics right
  rw [selectivity]
  exact Quantity.clampToUnit_exact ⟨mul_nonneg positive positive', mul_le_one₀ small positive' small'⟩

theorem selectivityOfAll_append (first second : List Expression) : model.selectivityOfAll statistics (first ++ second) =
    model.selectivityOfAll statistics first * model.selectivityOfAll statistics second := by
  simp only [selectivityOfAll, Quantity.product_exact, List.map_append, List.prod_append]

theorem selectivityOfAll_conjuncts (expression : Expression) :
    model.selectivityOfAll statistics expression.conjuncts = model.selectivity statistics expression := by
  fun_induction Expression.conjuncts with
  | case1 left right former latter => rw [selectivityOfAll_append, former, latter, selectivity_conjunction]
  | case2 atom other => rw [selectivityOfAll, Quantity.product_exact, List.map_singleton, List.prod_singleton]

end CostModel

namespace Expression

/-- Splitting a predicate loses and invents nothing. There are atoms, and none is an AND; together they read what the predicate reads, run
a subquery if and only if it does, and keep as many rows. A predicate joined from a list falls apart into what the list falls apart
into. The atoms of a predicate are joined to the same predicate, in its form or to a query, if and only if it is nested to the left. -/
theorem conjuncts_preserve (expression : Expression) :
    (expression.conjuncts ≠ [] ∧ ∀ atom ∈ expression.conjuncts, ¬ atom.IsConjunction) ∧
    dependenciesOf expression.conjuncts = expression.dependencies ∧
    ((∃ atom ∈ expression.conjuncts, atom.runsSubquery = true) ↔ expression.runsSubquery = true) ∧
    (∀ (first : Expression) (rest : List Expression), ∃ joined, conjunction? (first :: rest) = some joined ∧
      joined.conjuncts = (first :: rest).flatMap conjuncts) ∧
    (∃ joined, conjunction? expression.conjuncts = some joined ∧ (joined = expression ↔ expression.LeftNested) ∧
      (joined.same expression = true ↔ expression.LeftNested)) ∧
    ∀ (model : CostModel Rat) (statistics : Statistics Rat),
      (expression.conjuncts.map (model.selectivity statistics)).prod = model.selectivity statistics expression := by
  have atoms : ∀ atom ∈ expression.conjuncts, ¬ atom.IsConjunction := fun atom member => (mem_conjuncts.mp member).2
  refine ⟨⟨expression.conjuncts_ne_nil, atoms⟩, dependenciesOf_conjuncts expression, ?subqueries, ?joined, ?rejoined, ?kept⟩
  case subqueries => rw [← List.any_eq_true, any_runsSubquery_conjuncts]
  case joined => exact fun first rest => ⟨_, rfl, conjuncts_foldl first rest⟩
  case rejoined =>
    obtain ⟨first, rest, parted⟩ := List.exists_cons_of_ne_nil expression.conjuncts_ne_nil
    have joins : conjunction? expression.conjuncts = some (rest.foldl (.binary .and) first) := by rw [parted, conjunction?]
    have nested := leftNested_of_conjunction? atoms joins
    have same_of_nested (again : expression.LeftNested) : rest.foldl (.binary .and) first = expression :=
      Option.some.inj (joins.symm.trans (conjunction?_conjuncts again))
    refine ⟨_, joins, ⟨fun same => same ▸ nested, same_of_nested⟩, leftNested_of_same nested, fun again => ?_⟩
    rw [same_of_nested again]
    exact same_refl expression
  case kept =>
    intro model statistics
    rw [← Quantity.product_exact]
    exact model.selectivityOfAll_conjuncts statistics expression

example : conjunction? (Expression.binary .and (.reference "a") (.binary .and (.reference "b") (.reference "c"))).conjuncts =
    some (.binary .and (.binary .and (.reference "a") (.reference "b")) (.reference "c")) := rfl

end Expression

end MatchPlanner
