/-! Finite binary64 numbers as exact data: a sign, a significand and an exponent of two. Literals are read, compared and
printed, so this form is all they need, and proofs can see into it. -/

namespace MatchPlanner

/-- The number `significand · 2 ^ exponent`, negated when `negative`. Normal numbers have a significand of 53 bits, all
others the least exponent, so each number and each of the two zeros has one form. -/
structure Binary64 where
  negative : Bool
  significand : Nat
  exponent : Int
deriving DecidableEq, Repr

namespace Binary64

def leastExponent : Int := -1074

def greatestExponent : Int := 971

def zero (negative : Bool) : Binary64 := ⟨negative, 0, leastExponent⟩

/-- Equality of values: it differs from equality of forms on the two zeros alone. -/
def same (first second : Binary64) : Bool :=
  first == second || first.significand == 0 && second.significand == 0

theorem same_refl (value : Binary64) : value.same value = true := by simp [same]

theorem same_comm (first second : Binary64) : first.same second = second.same first := by
  simp only [same, BEq.comm (a := first), Bool.and_comm]

theorem same_trans {first second third : Binary64} (left : first.same second = true) (right : second.same third = true) :
    first.same third = true := by
  simp only [same, Bool.or_eq_true, beq_iff_eq, Bool.and_eq_true] at *
  grind

/-- Infinities and not-a-number have no finite form. -/
def ofBits? (bits : UInt64) : Option Binary64 :=
  let word := bits.toNat
  let negative : Bool := word / Nat.pow 2 63 == 1
  let field : Nat := word / Nat.pow 2 52 % 2048
  let fraction : Nat := word % Nat.pow 2 52
  if field = 2047 then none
  else if field = 0 then some ⟨negative, fraction, leastExponent⟩
  else some ⟨negative, Nat.pow 2 52 + fraction, Int.ofNat field - 1075⟩

def toBits (value : Binary64) : UInt64 :=
  let sign := if value.negative then Nat.pow 2 63 else 0
  let magnitude :=
    if value.significand < Nat.pow 2 52 then value.significand
    else (value.exponent + 1075).toNat * Nat.pow 2 52 + (value.significand - Nat.pow 2 52)
  UInt64.ofNat (sign + magnitude)

def ofFloat? (value : Float) : Option Binary64 := ofBits? value.toBits

def toFloat (value : Binary64) : Float := Float.ofBits value.toBits

/-- The magnitude as a quotient of two whole numbers. -/
def ratio (value : Binary64) : Nat × Nat :=
  (value.significand * Nat.pow 2 value.exponent.toNat, Nat.pow 2 (-value.exponent).toNat)

end Binary64

end MatchPlanner
