import MatchPlanner.Quantity

/-! Sums and products of equal factors, held below a ceiling beyond which plans no longer differ. -/

namespace MatchPlanner

variable {ν : Type} [Quantity ν]

def rowCeiling : ν := Quantity.ofNat 1000000000000000

/-- Holds a number below the ceiling; a value that is not a number stays visible. -/
def capped (value : ν) : ν := if Quantity.less rowCeiling value then rowCeiling else value

/-- The sum of `factor ^ k` for `k` from `first` to `last`, in closed form. -/
def series (factor : ν) (first last : Nat) : ν :=
  if last < first then Quantity.zero
  else
    let terms := last - first + 1
    if Quantity.equal factor Quantity.one then capped (Quantity.ofNat terms)
    else
      let leading := Quantity.power factor first
      if Quantity.equal leading Quantity.zero then Quantity.zero
      else capped (leading * (Quantity.one - Quantity.power factor terms) / (Quantity.one - factor))

/-- Multiplies `product` by `count` equal factors, a square for every binary digit of their number. There are at most as
many digits as factors. -/
def productBySquaring (product factor : ν) : Nat → Nat → ν
  | 0, _ => product
  | digits + 1, count =>
    let product := if count % 2 = 1 then product * factor else product
    if count < 2 then product else productBySquaring product (factor * factor) digits (count / 2)

/-- The product of `count` equal factors. Squaring rounds less often than multiplying one by one. -/
def repeatedProduct (factor : ν) (count : Nat) : ν := productBySquaring Quantity.one factor count count

end MatchPlanner
