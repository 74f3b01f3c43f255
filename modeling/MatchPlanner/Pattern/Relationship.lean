import MatchPlanner.Error

/-! Relationship patterns: one hop, or a path of bounded length, between two named nodes. -/

namespace MatchPlanner

inductive Direction where
  | outgoing
  | incoming
  | both
deriving DecidableEq

def Direction.reversed : Direction → Direction
  | .outgoing => .incoming
  | .incoming => .outgoing
  | .both => .both

@[simp] theorem Direction.reversed_reversed (direction : Direction) : direction.reversed.reversed = direction := by
  cases direction <;> rfl

inductive UpperBound where
  | unlimited
  | limited (count : Nat)
deriving DecidableEq

def UpperBound.limit? : UpperBound → Option Nat
  | .unlimited => none
  | .limited count => some count

/-- How often a path step or a quantified pattern may repeat. -/
structure Repetition where
  least : Nat
  most : UpperBound
deriving DecidableEq

namespace Repetition

def oneOrMore : Repetition := ⟨1, .unlimited⟩

def zeroOrMore : Repetition := ⟨0, .unlimited⟩

def checked (range : Repetition) : Except PatternFault Repetition :=
  match range.most with
  | .unlimited => .ok range
  | .limited count => if count < range.least then .error (.reversedBounds count range.least) else .ok range

def render (range : Repetition) : String :=
  match range.most with
  | .unlimited => "\x7b" ++ toString range.least ++ ", \x7d"
  | .limited count => "\x7b" ++ toString range.least ++ ", " ++ toString count ++ "\x7d"

/-- The range as it stands inside the brackets of a variable-length relationship. -/
def suffix (range : Repetition) : String :=
  match range.most with
  | .unlimited => "*" ++ toString range.least ++ ".."
  | .limited count =>
    if count = range.least then "*" ++ toString count else "*" ++ toString range.least ++ ".." ++ toString count

end Repetition

inductive PatternLength where
  | simple
  | path (range : Repetition)
deriving DecidableEq

/-- The types a relationship may have; absent when it may have any. -/
abbrev TypeSet := Option NameSet

namespace TypeSet

def ofList (types : List String) : TypeSet := if types.isEmpty then none else some (.ofList types)

/-- Whether one relationship can belong to both. -/
def overlap : TypeSet → TypeSet → Bool
  | some first, some second => !first.disjoint second
  | _, _ => true

end TypeSet

structure PatternRelationship where
  name : String
  left : String
  right : String
  direction : Direction
  types : List String
  length : PatternLength
deriving DecidableEq

/-- The arrow between two nodes in the notation of patterns. -/
def renderArrow (relationship : String) (types : List String) (range : String) (direction : Direction) : String :=
  let types := if types.isEmpty then "" else ":" ++ "|".intercalate types
  let (head, tail) := match direction with
    | .outgoing => ("-", "->")
    | .incoming => ("<-", "-")
    | .both => ("-", "-")
  head ++ "[" ++ relationship ++ types ++ range ++ "]" ++ tail

def renderNode (name : String) : String := "(" ++ name ++ ")"

def renderStep (source relationship : String) (types : List String) (range : String) (direction : Direction) (target : String) :
    String :=
  renderNode source ++ renderArrow relationship types range direction ++ renderNode target

namespace PatternRelationship

/-- The endpoint opposite to a node. -/
def other? (relationship : PatternRelationship) (node : String) : Option String :=
  if node = relationship.left then some relationship.right
  else if node = relationship.right then some relationship.left
  else none

/-- The direction as seen when leaving from a node. -/
def directionFrom (relationship : PatternRelationship) (node : String) : Direction :=
  if node = relationship.left then relationship.direction else relationship.direction.reversed

def isPath (relationship : PatternRelationship) : Bool :=
  match relationship.length with
  | .simple => false
  | .path _ => true

def typeSet (relationship : PatternRelationship) : TypeSet := .ofList relationship.types

def render (relationship : PatternRelationship) : String :=
  let range := match relationship.length with
    | .simple => ""
    | .path range => range.suffix
  renderStep relationship.left relationship.name relationship.types range relationship.direction relationship.right

end PatternRelationship

end MatchPlanner
