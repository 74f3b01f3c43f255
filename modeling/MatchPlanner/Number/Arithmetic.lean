import MatchPlanner.Number.Binary64
import MatchPlanner.Number.Rounding

/-! Products and quotients of binary64 numbers. Each is the exact result rounded to the nearest number, an exact half to the
even neighbour; a result beyond the largest finite number is none. -/

namespace MatchPlanner.Binary64

/-- The quotient of two whole numbers rounded to a significand of at most 53 bits. -/
def ofQuotient? (negative : Bool) (numerator denominator : Nat) : Option Binary64 :=
  if numerator = 0 then some (.zero negative)
  else
    let estimate : Int := Int.ofNat numerator.log2 - Int.ofNat denominator.log2 - 52
    let inUnits (exponent : Int) : Nat × Nat :=
      (numerator * wholePower 2 (-exponent), denominator * wholePower 2 exponent)
    let (scaled, unit) := inUnits estimate
    let exponent := max leastExponent (if scaled / unit < Nat.pow 2 52 then estimate - 1 else estimate)
    let (scaled, unit) := inUnits exponent
    let significand := roundQuotient .even scaled unit
    let (significand, exponent) :=
      if significand = Nat.pow 2 53 then (Nat.pow 2 52, exponent + 1) else (significand, exponent)
    if greatestExponent < exponent then none else some ⟨negative, significand, exponent⟩

def times? (first second : Binary64) : Option Binary64 :=
  let (numerator, denominator) := first.ratio
  let (otherNumerator, otherDenominator) := second.ratio
  ofQuotient? (first.negative != second.negative) (numerator * otherNumerator) (denominator * otherDenominator)

def over? (value divisor : Binary64) : Option Binary64 :=
  let (numerator, denominator) := value.ratio
  let (otherNumerator, otherDenominator) := divisor.ratio
  ofQuotient? (value.negative != divisor.negative) (numerator * otherDenominator) (denominator * otherNumerator)

end MatchPlanner.Binary64
