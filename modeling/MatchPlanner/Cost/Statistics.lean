import MatchPlanner.Pattern.Relationship
import MatchPlanner.Quantity

/-! What is known about the data: counts of nodes and relationships, how selective properties are, and which properties
are indexed. -/

namespace MatchPlanner

structure IndexInfo where
  label : String
  property : String
  unique : Bool
deriving DecidableEq

structure Statistics (ν : Type) where
  totalNodes : Nat
  totalRelationships : Nat
  nodeCounts : List (String × Nat)
  relationshipCounts : List (String × Nat)
  propertySelectivity : List (String × ν)
  indexes : List IndexInfo

namespace Statistics

variable {ν : Type}

def empty : Statistics ν := ⟨0, 0, [], [], [], []⟩

def index? (statistics : Statistics ν) (label property : String) : Option IndexInfo :=
  statistics.indexes.find? fun index => index.label == label && index.property == property

variable [Quantity ν]

/-- The number of nodes, at least one so that it can divide. -/
def nodeTotal (statistics : Statistics ν) : ν := Quantity.ofNat (max statistics.totalNodes 1)

def relationshipTotal (statistics : Statistics ν) : ν := Quantity.ofNat (max statistics.totalRelationships 1)

def labelCount (statistics : Statistics ν) (label : String) : ν :=
  Quantity.ofNat ((statistics.nodeCounts.lookup label).getD 0)

def typeCount (statistics : Statistics ν) (type : String) : ν :=
  Quantity.ofNat ((statistics.relationshipCounts.lookup type).getD 0)

/-- The relationships of any of the types, and all relationships when no type is asked for. -/
def relationshipCount (statistics : Statistics ν) (types : List String) : ν :=
  if types.isEmpty then Quantity.ofNat statistics.totalRelationships
  else Quantity.sum (types.map statistics.typeCount)

/-- The relationships expected at one node. -/
def averageDegree (statistics : Statistics ν) (types : List String) (direction : Direction) : ν :=
  let degree := statistics.relationshipCount types / statistics.nodeTotal
  match direction with
  | .both => degree * Quantity.ofNat 2
  | _ => degree

end Statistics

end MatchPlanner
