import MatchPlanner.MatchGraph.Basic

/-! Relationship uniqueness: two connections of one clause never bind the same relationship. Every pair of variables that
could clash yields an obligation; within one quantified pattern the loop itself keeps relationships apart. -/

namespace MatchPlanner

/-- Whether a variable holds one relationship or a list of them. -/
inductive RelationshipForm where
  | single
  | list
deriving DecidableEq

/-- A variable through which a connection exposes relationships. -/
structure RelationshipProducer where
  connection : Nat
  name : String
  form : RelationshipForm
  types : TypeSet
deriving DecidableEq

structure UniquenessObligation where
  first : RelationshipProducer
  second : RelationshipProducer
  predicate : Expression

namespace RelationshipProducer

/-- States that two producers share no relationship. -/
def distinctness (first second : RelationshipProducer) : Expression :=
  let one : Expression := .reference first.name
  let other : Expression := .reference second.name
  match first.form, second.form with
  | .single, .single => .negation (.equals one other)
  | .single, .list => .negation (.isMember one other)
  | .list, .single => .negation (.isMember other one)
  | .list, .list => .call "disjoint" [one, other]

def clashes (first second : RelationshipProducer) : Bool :=
  first.connection != second.connection && first.types.overlap second.types

end RelationshipProducer

namespace UniquenessObligation

def ofPair (first second : RelationshipProducer) : UniquenessObligation := ⟨first, second, first.distinctness second⟩

def involves (obligation : UniquenessObligation) (connection : Nat) : Bool :=
  obligation.first.connection == connection || obligation.second.connection == connection

/-- The producer that belongs to a connection. -/
def own? (obligation : UniquenessObligation) (connection : Nat) : Option RelationshipProducer :=
  if obligation.first.connection = connection then some obligation.first
  else if obligation.second.connection = connection then some obligation.second
  else none

/-- The producer on the other side of a connection. -/
def counterpart? (obligation : UniquenessObligation) (connection : Nat) : Option RelationshipProducer :=
  if obligation.first.connection = connection then some obligation.second
  else if obligation.second.connection = connection then some obligation.first
  else none

/-- The obligations between every producer and those after it. -/
def ofProducers : List RelationshipProducer → List UniquenessObligation
  | [] => []
  | first :: rest => (rest.filter first.clashes).map (ofPair first) ++ ofProducers rest

end UniquenessObligation

/-- The producers of the connection at an index. A relationship without a group exposes nothing. -/
def Connection.producers (index : Nat) : Connection → List RelationshipProducer
  | .relationship pattern => [⟨index, pattern.name, if pattern.isPath then .list else .single, pattern.typeSet⟩]
  | .quantified pattern =>
    pattern.relationships.filterMap fun relationship =>
      (pattern.relationshipGroup? relationship.name).map fun group => ⟨index, group, .list, relationship.typeSet⟩

namespace MatchGraph

def producers (graph : MatchGraph) : List RelationshipProducer :=
  graph.connections.zipIdx.flatMap fun (connection, index) => connection.producers index

def obligations (graph : MatchGraph) : List UniquenessObligation := UniquenessObligation.ofProducers graph.producers

end MatchGraph

end MatchPlanner
