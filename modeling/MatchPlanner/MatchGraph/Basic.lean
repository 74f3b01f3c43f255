import MatchPlanner.Pattern.Quantified

/-! One MATCH clause: its pattern nodes, the connections between them, its predicates, and what the surrounding query
contributes, namely the variables bound by earlier clauses and the variables read later. -/

namespace MatchPlanner

structure PatternNode where
  name : String
  labels : List String
deriving DecidableEq

inductive Connection where
  | relationship (pattern : PatternRelationship)
  | quantified (pattern : QuantifiedPattern)

namespace Connection

def left : Connection → String
  | .relationship pattern => pattern.left
  | .quantified pattern => pattern.left.outer

def right : Connection → String
  | .relationship pattern => pattern.right
  | .quantified pattern => pattern.right.outer

/-- The endpoint opposite to a node. -/
def other? (connection : Connection) (node : String) : Option String :=
  if node = connection.left then some connection.right
  else if node = connection.right then some connection.left
  else none

def isQuantified : Connection → Bool
  | .relationship _ => false
  | .quantified _ => true

/-- The variables a connection makes visible besides its endpoints. -/
def exposed : Connection → List String
  | .relationship pattern => [pattern.name]
  | .quantified pattern => pattern.groups

def render : Connection → String
  | .relationship pattern => pattern.render
  | .quantified pattern => pattern.render

end Connection

structure MatchGraph where
  nodes : List PatternNode
  connections : List Connection
  selections : List Expression
  /-- Variables bound by earlier clauses. -/
  arguments : NameSet
  /-- Variables read after this clause. -/
  required : NameSet
  /-- What follows reads distinct boundary nodes only. -/
  distinctEndpoints : Bool

namespace MatchGraph

def node? (graph : MatchGraph) (name : String) : Option PatternNode := graph.nodes.find? fun node => node.name == name

/-- One test for every label of every node. -/
def labelAtoms (graph : MatchGraph) : List Expression :=
  graph.nodes.flatMap fun node => node.labels.map fun label => .hasLabels node.name [label]

def whereAtoms (graph : MatchGraph) : List Expression := graph.selections.flatMap Expression.conjuncts

/-- All predicates of the clause in textual order, labels first. -/
def atoms (graph : MatchGraph) : List Expression := graph.labelAtoms ++ graph.whereAtoms

def nodeNames (graph : MatchGraph) : List String := graph.nodes.map PatternNode.name

def checkNodes (seen : List String) : List String → Except PatternFault Unit
  | [] => .ok ()
  | name :: rest => if name ∈ seen then .error (.nodeDeclaredTwice name) else checkNodes (name :: seen) rest

/-- Checks that exposed variables are new, and returns all those seen so far. -/
def checkExposed (nodes seen : List String) : List String → Except PatternFault (List String)
  | [] => .ok seen
  | name :: rest =>
    if name ∈ nodes ∨ name ∈ seen then .error (.boundTwice name) else checkExposed nodes (name :: seen) rest

def checkConnections (nodes seen : List String) : List Connection → Except PatternFault Unit
  | [] => .ok ()
  | connection :: rest =>
    if connection.left ∉ nodes then .error (.undeclaredNode connection.render connection.left)
    else if connection.right ∉ nodes then .error (.undeclaredNode connection.render connection.right)
    else do checkConnections nodes (← checkExposed nodes seen connection.exposed) rest

/-- Accepts a graph whose nodes are distinct and declared and whose variables are bound once. -/
def validate (graph : MatchGraph) : Except PlanningError Unit :=
  (do
    checkNodes [] graph.nodeNames
    checkConnections graph.nodeNames [] graph.connections : Except PatternFault Unit).mapError .malformedPattern

end MatchGraph

end MatchPlanner
