/-! Rounding a quotient to a whole number, and a positive quotient to a decimal grid. -/

namespace MatchPlanner

/-- Where a quotient that lies halfway between two whole numbers goes. -/
inductive HalfWay where
  | up
  | even
deriving DecidableEq

def HalfWay.roundsUp (tie : HalfWay) (below : Nat) : Bool :=
  match tie with
  | .up => true
  | .even => below % 2 == 1

/-- The whole number nearest to `numerator / denominator`. -/
def roundQuotient (tie : HalfWay) (numerator denominator : Nat) : Nat :=
  let below := numerator / denominator
  let rest := 2 * (numerator % denominator)
  if rest < denominator then below
  else if denominator < rest then below + 1
  else if tie.roundsUp below then below + 1
  else below

theorem roundQuotient_exact (tie : HalfWay) {whole denominator : Nat} (positive : 0 < denominator) :
    roundQuotient tie (whole * denominator) denominator = whole := by
  simp [roundQuotient, Nat.mul_div_cancel _ positive, positive]

/-- `base ^ exponent` when the exponent is not negative, and one otherwise. -/
def wholePower (base : Nat) (exponent : Int) : Nat := base.pow exponent.toNat

def decimalLength (value : Nat) : Nat := (Nat.toDigits 10 value).length

/-- The exponent of the leading decimal digit of a positive quotient. -/
def leadingExponent (numerator denominator : Nat) : Int :=
  if denominator ≤ numerator then (decimalLength (numerator / denominator) : Int) - 1
  else -(decimalLength ((denominator - 1) / numerator) : Int)

/-- The quotient counted in steps of `10 ^ exponent`, as a numerator and a denominator. -/
def scaledToGrid (numerator denominator : Nat) (exponent : Int) : Nat × Nat :=
  (numerator * wholePower 10 (-exponent), denominator * wholePower 10 exponent)

end MatchPlanner
