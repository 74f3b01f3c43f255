import MatchPlanner.MatchGraph.Basic

/-! The connected components of a match graph. Every node position carries a label; a connection gives the nodes at its two
ends one label, and what shares a label in the end is one component. -/

namespace MatchPlanner

/-- Nodes and connections that share no node with the rest, both in textual order. -/
structure Component where
  nodes : List String
  connections : List Nat
deriving DecidableEq

namespace Component

/-- Gives everything that is labelled like the second position the label of the first. -/
def merge (labels : List Nat) (first second : Nat) : List Nat :=
  match labels[first]?, labels[second]? with
  | some kept, some replaced => labels.map fun label => if label = replaced then kept else label
  | _, _ => labels

end Component

namespace MatchGraph

/-- Where a name is declared first. -/
def firstPosition? (graph : MatchGraph) (name : String) : Option Nat := graph.nodeNames.findIdx? fun other => other == name

/-- Where a name is declared last: connections attach there. -/
def lastPosition? (graph : MatchGraph) (name : String) : Option Nat :=
  (graph.nodeNames.reverse.findIdx? fun other => other == name).map fun index => graph.nodeNames.length - 1 - index

def connect (graph : MatchGraph) (labels : List Nat) (connection : Connection) : List Nat :=
  match graph.lastPosition? connection.left, graph.lastPosition? connection.right with
  | some first, some second => Component.merge labels first second
  | _, _ => labels

/-- The label of every node position. -/
def componentLabels (graph : MatchGraph) : List Nat :=
  graph.connections.foldl graph.connect (List.range graph.nodes.length)

/-- The label of the component that holds a connection. -/
def ownerLabel? (graph : MatchGraph) (connection : Connection) : Option Nat :=
  (graph.firstPosition? connection.left).bind fun position => graph.componentLabels[position]?

/-- The components in the order of their first nodes. -/
def components (graph : MatchGraph) : List Component :=
  let labels := graph.componentLabels
  labels.eraseDups.map fun label =>
    { nodes := ((graph.nodeNames.zip labels).filter fun node => node.2 == label).map Prod.fst
      connections := (graph.connections.zipIdx.filter fun indexed => graph.ownerLabel? indexed.1 == some label).map Prod.snd }

end MatchGraph

end MatchPlanner
