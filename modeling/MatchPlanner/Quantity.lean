import MatchPlanner.Number.Decimal

/-! The arithmetic of costs and row counts. The planner computes over any type with these operations, so the formulas can
be run in binary64 and studied in exact numbers. -/

namespace MatchPlanner

class Quantity (ν : Type) extends Add ν, Sub ν, Mul ν, Div ν where
  ofNat : Nat → ν
  power : ν → Nat → ν
  less : ν → ν → Bool
  equal : ν → ν → Bool
  /-- A total order that never contradicts `less`, for sorting. -/
  sortsBefore : ν → ν → Bool
  finite : ν → Bool
  text : ν → String
  fixed : Nat → ν → String

namespace Quantity

variable {ν : Type} [Quantity ν]

def zero : ν := ofNat 0

def one : ν := ofNat 1

/-- The fraction `numerator / denominator`; small whole numbers are exact, so it is rounded once. -/
def fraction (numerator denominator : Nat) : ν := ofNat numerator / ofNat denominator

def isNumber (value : ν) : Bool := equal value value

/-- The smaller of two numbers; a value that is not a number never wins against one. -/
def smaller (first second : ν) : ν :=
  if less second first then second else if isNumber first then first else second

/-- Moves a number into the unit interval and leaves a value that is not a number as it is. -/
def clampToUnit (value : ν) : ν :=
  let lower := if less value zero then zero else value
  if less one lower then one else lower

def product (values : List ν) : ν := values.foldl (· * ·) one

def sum (values : List ν) : ν := values.foldl (· + ·) zero

end Quantity

/-- The place of a binary64 number in the total order of sign and magnitude, where negative zero precedes zero. -/
private def binary64Rank (value : Float) : Int :=
  let word := value.toBits.toNat
  if word < Nat.pow 2 63 then Int.ofNat word else Int.ofNat (Nat.pow 2 63 - 1) - Int.ofNat word

private def binary64Text (value : Float) (render : Binary64 → String) : String :=
  match Binary64.ofFloat? value with
  | some exact => render exact
  | none => if value.isNaN then "NaN" else if value < 0 then "-inf" else "inf"

/-- One digit, a point, `places` digits and an exponent of ten. -/
def scientificText (places : Nat) (value : Float) : String := binary64Text value (Binary64.scientific places)

instance : Quantity Float where
  ofNat := Float.ofNat
  power base exponent := Float.pow base (Float.ofNat exponent)
  less first second := decide (first < second)
  equal first second := first == second
  sortsBefore first second := binary64Rank first ≤ binary64Rank second
  finite value := value.isFinite
  text value := binary64Text value fun exact => (exact.shortest .up).positional
  fixed places value := binary64Text value (Binary64.fixed places)

end MatchPlanner
