import Mathlib.Logic.Function.Basic
import MatchPlanner.Expression.Basic

/-! What expressions mean. The planner moves predicates about without ever evaluating one; whether it may is judged here, by the
value an expression has in a row of a result. -/

namespace MatchPlanner

/-- How constants, properties and operators are read. What values are is left open, so a predicate may come to more than true and
false; of equality nothing is asked but that its sides may be exchanged. -/
structure Interpretation (Value : Type) where
  literal : Literal → Value
  parameter : String → Value
  property : Value → String → Value
  apply : BinaryOperator → Value → Value → Value
  negate : Value → Value
  hasLabel : Value → String → Bool
  hasType : Value → String → Bool
  call : String → List Value → Value
  every : Value → (Value → Value) → Value
  /-- A subquery is given the values it reads from outside in the order in which it lists them. -/
  subquery : String → List Value → Value
  holds : Value → Prop
  holds_boolean : ∀ truth, holds (literal (.boolean truth)) ↔ truth = true
  equal_comm : ∀ first second, holds (apply .equal first second) ↔ holds (apply .equal second first)

namespace Expression

variable {Value : Type}

mutual

/-- The value of an expression in a row, which gives every variable a value. An element has a list of labels when it has all of
them, and a list of types when it has one of them. -/
def value (reading : Interpretation Value) (row : String → Value) : Expression → Value
  | .reference name => row name
  | .property object name => reading.property (row object) name
  | .literal constant => reading.literal constant
  | .parameter name => reading.parameter name
  | .binary operator left right => reading.apply operator (value reading row left) (value reading row right)
  | .negation operand => reading.negate (value reading row operand)
  | .hasLabels element labels => reading.literal (.boolean (labels.all (reading.hasLabel (row element))))
  | .hasTypes element types => reading.literal (.boolean (types.any (reading.hasType (row element))))
  | .call function arguments => reading.call function (values reading row arguments)
  | .every element list predicate =>
    reading.every (value reading row list) fun member => value reading (Function.update row element member) predicate
  | .subquery reads text => reading.subquery text (reads.map row)

def values (reading : Interpretation Value) (row : String → Value) : List Expression → List Value
  | [] => []
  | first :: rest => value reading row first :: values reading row rest

end

/-- A row satisfies a predicate. -/
def Holds (reading : Interpretation Value) (row : String → Value) (predicate : Expression) : Prop :=
  reading.holds (predicate.value reading row)

variable {reading : Interpretation Value}

mutual

/-- An expression reads its dependencies and nothing else. -/
theorem value_congr {row other : String → Value} (expression : Expression)
    (agree : ∀ name ∈ expression.dependencies, row name = other name) :
    expression.value reading row = expression.value reading other := by
  cases expression with
  | literal | parameter => rfl
  | reference name => exact agree name (NameSet.mem_ofList.mpr List.mem_cons_self)
  | property object | hasLabels object | hasTypes object =>
    simp only [value, agree object (NameSet.mem_ofList.mpr List.mem_cons_self)]
  | binary operator left right =>
    simp only [dependencies, NameSet.mem_union] at agree
    rw [value, value, value_congr left fun name reads => agree name (.inl reads),
      value_congr right fun name reads => agree name (.inr reads)]
  | negation operand => exact congrArg reading.negate (value_congr operand agree)
  | call function arguments => exact congrArg (reading.call function) (values_congr arguments agree)
  | every element list predicate =>
    simp only [dependencies, NameSet.mem_union, NameSet.mem_erase] at agree
    rw [value, value, value_congr list fun name reads => agree name (.inl reads)]
    congr 1
    funext member
    refine value_congr predicate fun name reads => ?_
    by_cases bound : name = element
    · rw [bound, Function.update_self, Function.update_self]
    · rw [Function.update_of_ne bound, Function.update_of_ne bound]
      exact agree name (.inr ⟨reads, bound⟩)
  | subquery reads text =>
    simp only [dependencies, NameSet.mem_ofList] at agree
    exact congrArg (reading.subquery text) (List.map_congr_left agree)

theorem values_congr {row other : String → Value} (expressions : List Expression)
    (agree : ∀ name ∈ dependenciesOfAll expressions, row name = other name) :
    values reading row expressions = values reading other expressions := by
  cases expressions with
  | nil => rfl
  | cons first rest =>
    simp only [dependenciesOfAll, NameSet.mem_union] at agree
    rw [values, values, value_congr first fun name reads => agree name (.inl reads),
      values_congr rest fun name reads => agree name (.inr reads)]

end

end Expression

end MatchPlanner
