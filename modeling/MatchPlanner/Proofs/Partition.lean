import Mathlib.Logic.Relation
import MatchPlanner.Proofs.Connectivity

/-! The components of a graph are the classes of nodes that chains of connections link, each listed in the order of the text. -/

namespace MatchPlanner

theorem Connection.other?_left (connection : Connection) : connection.other? connection.left = some connection.right := if_pos rfl

theorem Connection.other?_right (connection : Connection) : connection.other? connection.right = some connection.left := by
  unfold other?
  split
  next same => rw [same]
  next => rw [if_pos rfl]

namespace MatchGraph

/-- A chain of connections leads from one node to the other, whichever way each of them is written. -/
def Linked (graph : MatchGraph) : String → String → Prop :=
  Relation.ReflTransGen fun node next => ∃ connection ∈ graph.connections, connection.other? node = some next

variable {graph : MatchGraph}

theorem Linked.along {connection : Connection} (member : connection ∈ graph.connections) (node : String) :
    graph.Linked node connection.left ↔ graph.Linked node connection.right :=
  ⟨fun linked => linked.tail ⟨connection, member, connection.other?_left⟩,
    fun linked => linked.tail ⟨connection, member, connection.other?_right⟩⟩

end MatchGraph

end MatchPlanner
