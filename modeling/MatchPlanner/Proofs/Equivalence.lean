import Mathlib.Algebra.Order.Group.Multiset
import MatchPlanner.Expression.Basic

/-! Predicates that are the same to a query. They are told apart by form except for the sign of a zero, so lists of predicates
are compared as multisets of classes. -/

namespace MatchPlanner

def Binary64.unsigned (value : Binary64) : Binary64 := if value.significand = 0 then .zero false else value

theorem Binary64.same_iff {first second : Binary64} : first.same second = true ↔ first.unsigned = second.unsigned := by
  simp only [same, Bool.or_eq_true, Bool.and_eq_true, beq_iff_eq, unsigned]
  constructor
  · rintro (rfl | ⟨former, latter⟩)
    · rfl
    · rw [if_pos former, if_pos latter]
  · intro equal
    by_cases former : first.significand = 0 <;> by_cases latter : second.significand = 0
    · exact .inr ⟨former, latter⟩
    · rw [if_pos former, if_neg latter] at equal
      exact absurd (congrArg significand equal).symm latter
    · rw [if_neg former, if_pos latter] at equal
      exact absurd (congrArg significand equal) former
    · rw [if_neg former, if_neg latter] at equal
      exact .inl equal

def Literal.unsigned : Literal → Literal
  | .float value => .float value.unsigned
  | literal => literal

theorem Literal.same_iff {first second : Literal} : first.same second = true ↔ first.unsigned = second.unsigned := by
  cases first <;> cases second <;> simp [same, unsigned, Binary64.same_iff]

namespace Expression

mutual

def unsigned : Expression → Expression
  | .literal value => .literal value.unsigned
  | .binary operator left right => .binary operator (unsigned left) (unsigned right)
  | .negation operand => .negation (unsigned operand)
  | .call function arguments => .call function (unsignedAll arguments)
  | .every element list predicate => .every element (unsigned list) (unsigned predicate)
  | .reference name => .reference name
  | .property object name => .property object name
  | .parameter name => .parameter name
  | .hasLabels element labels => .hasLabels element labels
  | .hasTypes element types => .hasTypes element types
  | .subquery reads text => .subquery reads text

def unsignedAll : List Expression → List Expression
  | [] => []
  | first :: rest => unsigned first :: unsignedAll rest

end

mutual

theorem same_iff (first second : Expression) : first.same second = true ↔ first.unsigned = second.unsigned := by
  cases first with
  | literal value => cases second <;> simp [same, unsigned, Literal.same_iff]
  | binary operator left right => cases second <;> simp [same, unsigned, same_iff left, same_iff right, and_assoc]
  | negation operand => cases second <;> simp [same, unsigned, same_iff operand]
  | call function arguments => cases second <;> simp [same, unsigned, sameAll_iff arguments]
  | every element list predicate => cases second <;> simp [same, unsigned, same_iff list, same_iff predicate, and_assoc]
  | _ => cases second <;> simp [same, unsigned]

theorem sameAll_iff (first second : List Expression) : sameAll first second = true ↔ unsignedAll first = unsignedAll second := by
  cases first with
  | nil => cases second <;> simp [sameAll, unsignedAll]
  | cons head rest =>
    cases second with
    | nil => simp [sameAll, unsignedAll]
    | cons other others => simp [sameAll, unsignedAll, same_iff head other, sameAll_iff rest others]

end

def sameness : Setoid Expression where
  r first second := first.same second = true
  iseqv :=
    { refl := fun _ => (same_iff _ _).mpr rfl
      symm := fun equal => (same_iff _ _).mpr ((same_iff _ _).mp equal).symm
      trans := fun left right => (same_iff _ _).mpr (((same_iff _ _).mp left).trans ((same_iff _ _).mp right)) }

theorem same_refl (expression : Expression) : expression.same expression = true := sameness.refl expression

/-- What an expression is to a query. -/
def kind (expression : Expression) : Quotient sameness := Quotient.mk sameness expression

theorem kind_eq_iff {first second : Expression} : first.kind = second.kind ↔ first.same second = true := Quotient.eq

/-- The multiset of predicates in a list. -/
def classes (predicates : List Expression) : Multiset (Quotient sameness) := (predicates.map kind : List (Quotient sameness))

@[simp] theorem classes_nil : classes [] = 0 := rfl

@[simp] theorem classes_cons (first : Expression) (rest : List Expression) : classes (first :: rest) = first.kind ::ₘ classes rest := rfl

@[simp] theorem classes_append (first second : List Expression) : classes (first ++ second) = classes first + classes second := by
  simp only [classes, List.map_append, Multiset.coe_add]

theorem classes_le {first second : List Expression} (subperm : first.Subperm second) : classes first ≤ classes second :=
  Multiset.map_le_map (Multiset.coe_le.mpr subperm)

/-- How often a predicate occurs in a list. -/
def copies (predicate : Expression) (predicates : List Expression) : Nat := predicates.countP predicate.same

@[simp] theorem copies_append (predicate : Expression) (first second : List Expression) :
    predicate.copies (first ++ second) = predicate.copies first + predicate.copies second := List.countP_append

theorem copies_eq_zero {predicate : Expression} {predicates : List Expression}
    (absent : ∀ other ∈ predicates, predicate.same other = false) : predicate.copies predicates = 0 :=
  List.countP_eq_zero.mpr fun other member same => Bool.false_ne_true ((absent other member).symm.trans same)

open Classical in
theorem copies_eq_of_classes {predicate : Expression} {first second : List Expression} (equal : classes first = classes second) :
    predicate.copies first = predicate.copies second := by
  have counted : ∀ predicates : List Expression,
      predicate.copies predicates = (classes predicates).countP fun other => predicate.kind = other := by
    intro predicates
    rw [classes, Multiset.coe_countP, List.countP_map]
    apply List.countP_congr
    intro other _
    simp only [Function.comp_apply, kind_eq_iff, decide_eq_true_eq]
  rw [counted, counted, equal]

end Expression

/-! Predicates that are the same to a query read the same variables. -/

namespace Expression

mutual

theorem dependencies_unsigned (expression : Expression) : expression.unsigned.dependencies = expression.dependencies := by
  cases expression with
  | binary operator left right => simp only [unsigned, dependencies, dependencies_unsigned left, dependencies_unsigned right]
  | negation operand => simp only [unsigned, dependencies, dependencies_unsigned operand]
  | call function arguments => simp only [unsigned, dependencies, dependenciesOfAll_unsignedAll arguments]
  | every element list predicate =>
    simp only [unsigned, dependencies, dependencies_unsigned list, dependencies_unsigned predicate]
  | _ => rfl

theorem dependenciesOfAll_unsignedAll (expressions : List Expression) :
    dependenciesOfAll (unsignedAll expressions) = dependenciesOfAll expressions := by
  cases expressions with
  | nil => rfl
  | cons first rest =>
    simp only [unsignedAll, dependenciesOfAll, dependencies_unsigned first, dependenciesOfAll_unsignedAll rest]

end

mutual

theorem runsSubquery_unsigned (expression : Expression) : expression.unsigned.runsSubquery = expression.runsSubquery := by
  cases expression with
  | binary operator left right => simp only [unsigned, runsSubquery, runsSubquery_unsigned left, runsSubquery_unsigned right]
  | negation operand => simp only [unsigned, runsSubquery, runsSubquery_unsigned operand]
  | call function arguments => simp only [unsigned, runsSubquery, anyRunsSubquery_unsignedAll arguments]
  | every element list predicate =>
    simp only [unsigned, runsSubquery, runsSubquery_unsigned list, runsSubquery_unsigned predicate]
  | _ => rfl

theorem anyRunsSubquery_unsignedAll (expressions : List Expression) :
    anyRunsSubquery (unsignedAll expressions) = anyRunsSubquery expressions := by
  cases expressions with
  | nil => rfl
  | cons first rest =>
    simp only [unsignedAll, anyRunsSubquery, runsSubquery_unsigned first, anyRunsSubquery_unsignedAll rest]

end

variable {first second : Expression}

theorem dependencies_of_same (same : first.same second = true) : first.dependencies = second.dependencies := by
  rw [← dependencies_unsigned first, ← dependencies_unsigned second, (same_iff _ _).mp same]

theorem runsSubquery_of_same (same : first.same second = true) : first.runsSubquery = second.runsSubquery := by
  rw [← runsSubquery_unsigned first, ← runsSubquery_unsigned second, (same_iff _ _).mp same]

end Expression

end MatchPlanner
