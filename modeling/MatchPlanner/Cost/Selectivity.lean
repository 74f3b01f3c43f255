import MatchPlanner.Cost.Statistics

/-! The parameters of the cost model, and the fraction of rows a predicate keeps. -/

namespace MatchPlanner

structure CostModel (ν : Type) where
  cpuPerRow : ν
  expandPerRow : ν
  /-- The cost of a row that enters or probes a hash table. -/
  hashPerRow : ν
  indexSeek : ν
  /-- How many hops beyond its lower bound an unbounded repetition is estimated for. -/
  hopHorizon : Nat
  /-- For equality with a property that has no selectivity of its own. -/
  equalitySelectivity : ν
  uniquenessSelectivity : ν
  defaultSelectivity : ν

namespace CostModel

variable {ν : Type} [Quantity ν]

def standard : CostModel ν where
  cpuPerRow := Quantity.fraction 1 1000
  expandPerRow := Quantity.fraction 2 1000
  hashPerRow := Quantity.fraction 15 10000
  indexSeek := Quantity.fraction 5 1000
  hopHorizon := 4
  equalitySelectivity := Quantity.fraction 1 10
  uniquenessSelectivity := Quantity.fraction 99 100
  defaultSelectivity := Quantity.fraction 1 2

def propertySelectivity (model : CostModel ν) (statistics : Statistics ν) (property : String) : ν :=
  (statistics.propertySelectivity.lookup property).getD model.equalitySelectivity

/-- The names under which a relationship is checked against others. -/
def isUniquenessCheck (function : String) : Bool := function == "disjoint" || function == "isRepeatTrailUnique"

def equalitySelectivityOf (model : CostModel ν) (statistics : Statistics ν) : Expression → Expression → ν
  | .reference _, .reference _ => Quantity.one / statistics.nodeTotal
  | .property _ name, _ => model.propertySelectivity statistics name
  | _, .property _ name => model.propertySelectivity statistics name
  | _, _ => model.equalitySelectivity

/-- A negated comparison of two variables is a uniqueness check. -/
def isDistinctness : Expression → Bool
  | .binary .equal (.reference _) (.reference _) => true
  | .binary .isIn (.reference _) (.reference _) => true
  | _ => false

/-- The fraction of rows a predicate keeps. -/
def selectivity (model : CostModel ν) (statistics : Statistics ν) : Expression → ν
  | .hasLabels _ labels =>
    Quantity.clampToUnit (Quantity.product (labels.map fun label => statistics.labelCount label / statistics.nodeTotal))
  | .literal (.boolean true) => Quantity.clampToUnit Quantity.one
  | .literal (.boolean false) => Quantity.clampToUnit Quantity.zero
  | .binary .and left right =>
    Quantity.clampToUnit (selectivity model statistics left * selectivity model statistics right)
  | .binary .or left right =>
    let one := selectivity model statistics left
    let other := selectivity model statistics right
    Quantity.clampToUnit (one + other - one * other)
  | .binary .equal left right => Quantity.clampToUnit (model.equalitySelectivityOf statistics left right)
  | .binary .notEqual _ _ => Quantity.clampToUnit (Quantity.one - model.equalitySelectivity)
  | .negation operand =>
    Quantity.clampToUnit
      (if isDistinctness operand then model.uniquenessSelectivity
      else Quantity.one - selectivity model statistics operand)
  | .call function _ =>
    Quantity.clampToUnit (if isUniquenessCheck function then model.uniquenessSelectivity else model.defaultSelectivity)
  | _ => Quantity.clampToUnit model.defaultSelectivity

def selectivityOfAll (model : CostModel ν) (statistics : Statistics ν) (predicates : List Expression) : ν :=
  Quantity.product (predicates.map (model.selectivity statistics))

end CostModel

end MatchPlanner
