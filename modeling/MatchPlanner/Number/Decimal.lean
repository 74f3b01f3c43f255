import MatchPlanner.Number.Arithmetic

/-! Decimal numerals: reading one as a binary64 number, and writing a binary64 number with the fewest digits of which it is
the nearest. Both work on exact quotients of whole numbers. -/

namespace MatchPlanner

/-- The numeral `digits · 10 ^ exponent`, negated when `negative`. -/
structure Decimal where
  negative : Bool
  digits : Nat
  exponent : Int
deriving DecidableEq, Repr

namespace Decimal

/-- The greatest power of ten that is finite. -/
def greatestPower : Nat := 308

private def powerOfTen? (exponent : Nat) : Option Binary64 :=
  if exponent ≤ greatestPower then Binary64.ofQuotient? false (Nat.pow 10 exponent) 1 else none

/-- The number that arithmetic in binary64 finds: the digits rounded, then multiplied or divided by a rounded power of ten.
With few digits and a small power no step but the last rounds, so it is the nearest number; otherwise it can be a
neighbour of the nearest. A second division takes every numeral of up to 64 bits to zero. -/
def toBinary64? (value : Decimal) : Option Binary64 := do
  let digits ← Binary64.ofQuotient? value.negative value.digits 1
  if value.digits = 0 then return digits
  else if 0 ≤ value.exponent then digits.times? (← powerOfTen? value.exponent.toNat)
  else
    let shift := value.exponent.natAbs
    if shift ≤ greatestPower then digits.over? (← powerOfTen? shift)
    else if shift ≤ 2 * greatestPower then
      (← digits.over? (← powerOfTen? greatestPower)).over? (← powerOfTen? (shift - greatestPower))
    else return .zero value.negative

private def withoutZeros : Nat → Nat → Int → Nat × Int
  | 0, digits, exponent => (digits, exponent)
  | fuel + 1, digits, exponent =>
    if digits ≠ 0 ∧ digits % 10 = 0 then withoutZeros fuel (digits / 10) (exponent + 1) else (digits, exponent)

/-- The same number without zeros at its end. -/
def trimmed (value : Decimal) : Decimal :=
  let (digits, exponent) := withoutZeros (decimalLength value.digits) value.digits value.exponent
  ⟨value.negative, digits, exponent⟩

private def sign (value : Decimal) : String := if value.negative then "-" else ""

private def zeros (count : Nat) : String := String.ofList (List.replicate count '0')

/-- Digits with the point after the first `whole` of them, zeros filling the places that hold no digit. -/
private def placePoint (digits : String) (whole : Int) : String × String :=
  if whole ≤ 0 then ("0", zeros (-whole).toNat ++ digits)
  else if Int.ofNat digits.length ≤ whole then (digits ++ zeros (whole - Int.ofNat digits.length).toNat, "")
  else (String.ofList (digits.toList.take whole.toNat), String.ofList (digits.toList.drop whole.toNat))

private def parts (value : Decimal) : String × String :=
  if value.digits = 0 then ("0", "")
  else placePoint (toString value.digits) (Int.ofNat (decimalLength value.digits) + value.exponent)

/-- Positional text without an exponent; a whole number has no point. -/
def positional (value : Decimal) : String :=
  let (whole, fraction) := value.parts
  value.sign ++ whole ++ (if fraction = "" then "" else "." ++ fraction)

/-- Text that shows the number is not an integer: positional with a digit after the point from `1e-5` up to below
`1e16`, otherwise one leading digit and an exponent with its sign. -/
def literal (value : Decimal) : String :=
  let leading : Int := Int.ofNat (decimalLength value.digits) + value.exponent - 1
  if value.digits = 0 ∨ -5 ≤ leading ∧ leading < 16 then
    let (whole, fraction) := value.parts
    value.sign ++ whole ++ "." ++ (if fraction = "" then "0" else fraction)
  else
    let (first, rest) := placePoint (toString value.digits) 1
    let exponent := (if leading < 0 then "-" else "+") ++ toString leading.natAbs
    value.sign ++ first ++ (if rest = "" then "" else "." ++ rest) ++ "e" ++ exponent

end Decimal

namespace Binary64

/-- The reals that read back as the number reach a half unit to both sides, and only a quarter below a power of two. The
bounds are counted in quarter units; they belong to the interval when the significand is even. -/
private def readsBack (value : Binary64) (digits : Nat) (exponent : Int) : Bool :=
  let significand := value.significand
  let below :=
    if significand = Nat.pow 2 52 ∧ leastExponent < value.exponent then 4 * significand - 1 else 4 * significand - 2
  let above := 4 * significand + 2
  let quarter := value.exponent - 2
  let scale (count : Nat) : Nat := count * wholePower 2 quarter * wholePower 10 (-exponent)
  let candidate := digits * wholePower 10 exponent * wholePower 2 (-quarter)
  if significand % 2 = 0 then scale below ≤ candidate ∧ candidate ≤ scale above
  else scale below < candidate ∧ candidate < scale above

/-- The number's neighbours on the grid of multiples of `10 ^ exponent`, the nearer of those that read back. -/
private def onGrid (tie : HalfWay) (value : Binary64) (exponent : Int) : Option Nat :=
  let (numerator, denominator) := value.ratio
  let (numerator, denominator) := scaledToGrid numerator denominator exponent
  let below := numerator / denominator
  let nearest := roundQuotient tie numerator denominator
  let other := if nearest = below then below + 1 else below
  [nearest, other].find? fun digits => value.readsBack digits exponent

private def onGrids (tie : HalfWay) (value : Binary64) : Nat → Int → Option (Nat × Int)
  | 0, _ => none
  | fuel + 1, exponent =>
    match onGrid tie value exponent with
    | some digits => some (digits, exponent)
    | none => onGrids tie value fuel (exponent - 1)

/-- The fewest digits that read back as the number, and of those the nearest. Seventeen digits always do. -/
def shortest (tie : HalfWay) (value : Binary64) : Decimal :=
  if value.significand = 0 then ⟨value.negative, 0, 0⟩
  else
    let (numerator, denominator) := value.ratio
    match onGrids tie value 18 (leadingExponent numerator denominator) with
    | some (digits, exponent) => (Decimal.mk value.negative digits exponent).trimmed
    | none => ⟨value.negative, 0, 0⟩

private def padded (width : Nat) (digits : Nat) : String :=
  let text := toString digits
  String.ofList (List.replicate (width - text.length) '0') ++ text

/-- Positional text with exactly `places` digits after the point, an exact half going to the even neighbour. -/
def fixed (places : Nat) (value : Binary64) : String :=
  let (numerator, denominator) := value.ratio
  let unit := Nat.pow 10 places
  let steps := roundQuotient .even (numerator * unit) denominator
  let fraction := if places = 0 then "" else "." ++ padded places (steps % unit)
  (if value.negative then "-" else "") ++ toString (steps / unit) ++ fraction

/-- One digit, a point, exactly `places` digits and an exponent of ten, an exact half going to the even neighbour. -/
def scientific (places : Nat) (value : Binary64) : String :=
  let unit := Nat.pow 10 places
  let (steps, exponent) : Nat × Int :=
    if value.significand = 0 then (0, 0)
    else
      let (numerator, denominator) := value.ratio
      let leading := leadingExponent numerator denominator
      let (numerator, denominator) := scaledToGrid numerator denominator (leading - Int.ofNat places)
      let steps := roundQuotient .even numerator denominator
      if steps = 10 * unit then (unit, leading + 1) else (steps, leading)
  let fraction := if places = 0 then "" else "." ++ padded places (steps % unit)
  (if value.negative then "-" else "") ++ toString (steps / unit) ++ fraction ++ "e" ++ toString exponent

end Binary64

end MatchPlanner
