import MatchPlanner.Cost.Statistics
import MatchPlanner.Plan.Basic

/-! The operators that can produce the nodes of one variable, each with the predicates it makes redundant. -/

namespace MatchPlanner

structure LeafCandidate where
  operator : Leaf
  solved : List Expression

/-- A label test of one node, by its first label. The scan of that label answers the whole test when there is no other. -/
structure LabelTest where
  label : String
  atom : Expression
  solved : List Expression

namespace LeafCandidate

/-- Reads `node.property = value` where the value reads no variable. -/
def lookupSide? (node : String) : Expression → Expression → Option (String × Expression)
  | .property object name, value => if object = node ∧ value.dependencies = ∅ then some (name, value) else none
  | _, _ => none

/-- The property and the value of an equality in either order. -/
def equality? (node : String) : Expression → Option (String × Expression)
  | .binary .equal left right => lookupSide? node left right <|> lookupSide? node right left
  | _ => none

def labelTest? (node : String) : Expression → Option LabelTest
  | .hasLabels element (label :: more) =>
    if element = node then
      let atom : Expression := .hasLabels element (label :: more)
      some ⟨label, atom, if more.isEmpty then [atom] else []⟩
    else none
  | _ => none

variable {ν : Type}

def seeks (statistics : Statistics ν) (node : String) (tests : List LabelTest) (predicate : Expression) :
    List LeafCandidate :=
  match equality? node predicate with
  | none => []
  | some (property, value) =>
    tests.filterMap fun test =>
      (statistics.index? test.label property).map fun index =>
        ⟨.indexSeek node test.label property value index.unique, test.solved ++ [predicate]⟩

/-- A scan of all nodes, a scan for every label test, and a seek for every equality on an indexed property. The predicates
are those that read the node alone. -/
def standard (node : String) (predicates : List Expression) (statistics : Statistics ν) : List LeafCandidate :=
  let tests := predicates.filterMap (labelTest? node)
  let scans := tests.map fun test => LeafCandidate.mk (.labelScan node test.label) test.solved
  ⟨.allNodesScan node, []⟩ :: scans ++ predicates.flatMap (seeks statistics node tests)

end LeafCandidate

end MatchPlanner
