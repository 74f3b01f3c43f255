import MatchPlanner.NameSet
import MatchPlanner.Number.Binary64

/-! Predicates over the variables of a match. They are never evaluated here: the planner asks which variables a predicate
reads, splits conjunctions into atoms, and renames a variable when a predicate moves into another scope. -/

namespace MatchPlanner

inductive Literal where
  | text (value : String)
  | integer (value : Int)
  | float (value : Binary64)
  | boolean (value : Bool)
  | null

inductive BinaryOperator where
  | equal
  | notEqual
  | lessThan
  | lessEqual
  | greaterThan
  | greaterEqual
  | and
  | or
  | isIn
  | plus
  | minus
deriving DecidableEq

inductive Expression where
  | reference (name : String)
  | property (object name : String)
  | literal (value : Literal)
  | parameter (name : String)
  | binary (operator : BinaryOperator) (left right : Expression)
  | negation (operand : Expression)
  | hasLabels (element : String) (labels : List String)
  | hasTypes (element : String) (types : List String)
  | call (function : String) (arguments : List Expression)
  /-- The predicate holds for every member of the list, which it reads as `element`. -/
  | every (element : String) (list predicate : Expression)
  /-- A correlated subquery, opaque apart from the outer variables it reads. -/
  | subquery (reads : List String) (text : String)

/-- Equality as a query sees it: the two zeros are one value. -/
def Literal.same : Literal → Literal → Bool
  | .text first, .text second => first == second
  | .integer first, .integer second => first == second
  | .float first, .float second => first.same second
  | .boolean first, .boolean second => first == second
  | .null, .null => true
  | _, _ => false

namespace Expression

def equals (left right : Expression) : Expression := .binary .equal left right

def isMember (element list : Expression) : Expression := .binary .isIn element list

mutual

/-- The variables an expression reads from outside. -/
def dependencies : Expression → NameSet
  | .reference name => .ofList [name]
  | .property object _ => .ofList [object]
  | .literal _ => ∅
  | .parameter _ => ∅
  | .binary _ left right => dependencies left ∪ dependencies right
  | .negation operand => dependencies operand
  | .hasLabels element _ => .ofList [element]
  | .hasTypes element _ => .ofList [element]
  | .call _ arguments => dependenciesOfAll arguments
  | .every element list predicate => dependencies list ∪ (dependencies predicate).erase element
  | .subquery reads _ => .ofList reads

def dependenciesOfAll : List Expression → NameSet
  | [] => ∅
  | first :: rest => dependencies first ∪ dependenciesOfAll rest

end

/-- The atoms of a conjunction from left to right. -/
def conjuncts : Expression → List Expression
  | .binary .and left right => conjuncts left ++ conjuncts right
  | atom => [atom]

/-- The conjunction of the atoms, nested to the left. -/
def conjunction? : List Expression → Option Expression
  | [] => none
  | first :: rest => some (rest.foldl (.binary .and) first)

def renameName (old new name : String) : String := if name = old then new else name

mutual

/-- Puts the variable `new` in the place of every free occurrence of `old`. -/
def rename (old new : String) : Expression → Expression
  | .reference name => .reference (renameName old new name)
  | .property object name => .property (renameName old new object) name
  | .literal value => .literal value
  | .parameter name => .parameter name
  | .binary operator left right => .binary operator (rename old new left) (rename old new right)
  | .negation operand => .negation (rename old new operand)
  | .hasLabels element labels => .hasLabels (renameName old new element) labels
  | .hasTypes element types => .hasTypes (renameName old new element) types
  | .call function arguments => .call function (renameAll old new arguments)
  | .every element list predicate =>
    .every element (rename old new list) (if element = old then predicate else rename old new predicate)
  | .subquery reads text => .subquery (reads.map (renameName old new)) text

def renameAll (old new : String) : List Expression → List Expression
  | [] => []
  | first :: rest => rename old new first :: renameAll old new rest

end

mutual

def runsSubquery : Expression → Bool
  | .subquery _ _ => true
  | .binary _ left right => runsSubquery left || runsSubquery right
  | .negation operand => runsSubquery operand
  | .call _ arguments => anyRunsSubquery arguments
  | .every _ list predicate => runsSubquery list || runsSubquery predicate
  | _ => false

def anyRunsSubquery : List Expression → Bool
  | [] => false
  | first :: rest => runsSubquery first || anyRunsSubquery rest

end

mutual

/-- Equality of form, up to the equality of literals. -/
def same : Expression → Expression → Bool
  | .reference first, .reference second => first == second
  | .property object name, .property object' name' => object == object' && name == name'
  | .literal first, .literal second => first.same second
  | .parameter first, .parameter second => first == second
  | .binary operator left right, .binary operator' left' right' =>
    operator == operator' && same left left' && same right right'
  | .negation first, .negation second => same first second
  | .hasLabels element labels, .hasLabels element' labels' => element == element' && labels == labels'
  | .hasTypes element types, .hasTypes element' types' => element == element' && types == types'
  | .call function arguments, .call function' arguments' => function == function' && sameAll arguments arguments'
  | .every element list predicate, .every element' list' predicate' =>
    element == element' && same list list' && same predicate predicate'
  | .subquery reads text, .subquery reads' text' => reads == reads' && text == text'
  | _, _ => false

def sameAll : List Expression → List Expression → Bool
  | [], [] => true
  | first :: rest, first' :: rest' => same first first' && sameAll rest rest'
  | _, _ => false

end

/-- The free variables of several expressions together. -/
def dependenciesOf (expressions : List Expression) : NameSet := .unionOf (expressions.map dependencies)

end Expression

end MatchPlanner
