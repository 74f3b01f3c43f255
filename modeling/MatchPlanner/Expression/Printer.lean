import MatchPlanner.Expression.Basic
import MatchPlanner.Number.Decimal

/-! The text of a predicate as plans and messages show it. A logical operand is put in parentheses under every operator
but AND, whose operands need none among themselves. -/

namespace MatchPlanner

def BinaryOperator.symbol : BinaryOperator → String
  | .equal => "="
  | .notEqual => "<>"
  | .lessThan => "<"
  | .lessEqual => "<="
  | .greaterThan => ">"
  | .greaterEqual => ">="
  | .and => "AND"
  | .or => "OR"
  | .isIn => "IN"
  | .plus => "+"
  | .minus => "-"

def Literal.render : Literal → String
  | .text value => "'" ++ value ++ "'"
  | .integer value => toString value
  | .float value => (value.shortest .up).positional
  | .boolean true => "true"
  | .boolean false => "false"
  | .null => "NULL"

namespace Expression

def isLogical : Expression → Bool
  | .binary .and _ _ => true
  | .binary .or _ _ => true
  | _ => false

def parenthesized (needed : Bool) (text : String) : String := if needed then "(" ++ text ++ ")" else text

mutual

def render : Expression → String
  | .reference name => name
  | .property object name => object ++ "." ++ name
  | .literal value => value.render
  | .parameter name => "$" ++ name
  | .binary operator left right =>
    parenthesized (operator != .and && left.isLogical) (render left) ++ " " ++ operator.symbol ++ " " ++
      parenthesized (operator != .and && right.isLogical) (render right)
  | .negation operand => "NOT " ++ parenthesized operand.isLogical (render operand)
  | .hasLabels element labels => element ++ ":" ++ ":".intercalate labels
  | .hasTypes element types => element ++ ":" ++ "|".intercalate types
  | .call function arguments => function ++ "(" ++ ", ".intercalate (renderAll arguments) ++ ")"
  | .every element list predicate => "all(" ++ element ++ " IN " ++ render list ++ " WHERE " ++ render predicate ++ ")"
  | .subquery _ text => "EXISTS \x7b " ++ text ++ " \x7d"

def renderAll : List Expression → List String
  | [] => []
  | first :: rest => render first :: renderAll rest

end

end Expression

end MatchPlanner
