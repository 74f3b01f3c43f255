import MatchPlanner.Expression.Basic
import MatchPlanner.Json.Basic

/-! Predicates as JSON values. -/

namespace MatchPlanner

namespace Literal

def toJson : Literal → Json
  | .text value => .object [("String", .text value)]
  | .integer value => .object [("Integer", .ofInt value)]
  | .float value => .object [("Float", .ofBinary64 value)]
  | .boolean value => .object [("Boolean", .boolean value)]
  | .null => .text "Null"

def ofJson? (json : Json) : Option Literal := do
  match ← json.variant? with
  | ("String", some payload) => payload.text?.map .text
  | ("Integer", some payload) => payload.signed64?.map .integer
  | ("Float", some payload) => payload.binary64?.map .float
  | ("Boolean", some payload) => payload.boolean?.map .boolean
  | ("Null", payload) => (Json.unit? payload).map fun _ => .null
  | _ => none

end Literal

namespace BinaryOperator

def choices : List (String × BinaryOperator) :=
  [("Equal", .equal), ("NotEqual", .notEqual), ("LessThan", .lessThan), ("LessEqual", .lessEqual),
    ("GreaterThan", .greaterThan), ("GreaterEqual", .greaterEqual), ("And", .and), ("Or", .or), ("In", .isIn),
    ("Plus", .plus), ("Minus", .minus)]

def name : BinaryOperator → String
  | .equal => "Equal"
  | .notEqual => "NotEqual"
  | .lessThan => "LessThan"
  | .lessEqual => "LessEqual"
  | .greaterThan => "GreaterThan"
  | .greaterEqual => "GreaterEqual"
  | .and => "And"
  | .or => "Or"
  | .isIn => "In"
  | .plus => "Plus"
  | .minus => "Minus"

theorem choices_lookup_name (operator : BinaryOperator) : choices.lookup operator.name = some operator := by
  cases operator <;> decide

def toJson (operator : BinaryOperator) : Json := .text operator.name

def ofJson? : Json → Option BinaryOperator := Json.choice? choices

end BinaryOperator

namespace Expression

mutual

def toJson : Expression → Json
  | .reference name => .object [("Variable", .text name)]
  | .property object name => .object [("PropertyAccess", .object [("object", .text object), ("property", .text name)])]
  | .literal value => .object [("Literal", value.toJson)]
  | .parameter name => .object [("Parameter", .text name)]
  | .binary operator left right =>
    .object [("Binary", .object [("left", toJson left), ("operator", operator.toJson), ("right", toJson right)])]
  | .negation operand => .object [("Not", toJson operand)]
  | .hasLabels element labels => .object [("HasLabels", .object [("variable", .text element), ("labels", .ofTexts labels)])]
  | .hasTypes element types => .object [("HasTypes", .object [("variable", .text element), ("types", .ofTexts types)])]
  | .call function arguments =>
    .object [("FunctionCall", .object [("name", .text function), ("arguments", .array (toJsonAll arguments))])]
  | .every element list predicate =>
    .object [("AllIterable",
      .object [("variable", .text element), ("list", toJson list), ("predicate", toJson predicate)])]
  | .subquery reads text =>
    .object [("Subquery", .object [("outer_variables", .ofTexts reads), ("text", .text text)])]

def toJsonAll : List Expression → List Json
  | [] => []
  | first :: rest => toJson first :: toJsonAll rest

end

/-- Reads a value of at most `fuel` nested containers. -/
def readWithin : Nat → Json → Option Expression
  | 0, _ => none
  | fuel + 1, json => do
    match ← json.variant? with
    | ("Variable", some payload) => payload.text?.map .reference
    | ("PropertyAccess", some payload) =>
      match ← payload.record? ["object", "property"] with
      | [some object, some name] => return .property (← object.text?) (← name.text?)
      | _ => none
    | ("Literal", some payload) => (Literal.ofJson? payload).map .literal
    | ("Parameter", some payload) => payload.text?.map .parameter
    | ("Binary", some payload) =>
      match ← payload.record? ["left", "operator", "right"] with
      | [some left, some operator, some right] =>
        return .binary (← BinaryOperator.ofJson? operator) (← readWithin fuel left) (← readWithin fuel right)
      | _ => none
    | ("Not", some payload) => (readWithin fuel payload).map .negation
    | ("HasLabels", some payload) =>
      match ← payload.record? ["variable", "labels"] with
      | [some element, some labels] => return .hasLabels (← element.text?) (← labels.texts?)
      | _ => none
    | ("HasTypes", some payload) =>
      match ← payload.record? ["variable", "types"] with
      | [some element, some types] => return .hasTypes (← element.text?) (← types.texts?)
      | _ => none
    | ("FunctionCall", some payload) =>
      match ← payload.record? ["name", "arguments"] with
      | [some function, some arguments] => return .call (← function.text?) (← arguments.listOf? (readWithin fuel))
      | _ => none
    | ("AllIterable", some payload) =>
      match ← payload.record? ["variable", "list", "predicate"] with
      | [some element, some list, some predicate] =>
        return .every (← element.text?) (← readWithin fuel list) (← readWithin fuel predicate)
      | _ => none
    | ("Subquery", some payload) =>
      match ← payload.record? ["outer_variables", "text"] with
      | [some reads, some text] => return .subquery (← reads.texts?) (← text.text?)
      | _ => none
    | _ => none

def ofJson? (json : Json) : Option Expression := readWithin json.depth json

def listToJson (expressions : List Expression) : Json := .array (expressions.map toJson)

def listOfJson? : Json → Option (List Expression) := Json.listOf? ofJson?

end Expression

end MatchPlanner
