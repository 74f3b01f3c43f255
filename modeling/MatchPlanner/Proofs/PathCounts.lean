import MatchPlanner.Proofs.Bounds

/-! What the estimate of a repetition adds up. Every count of hops has its number of paths, a power of the number of relationships
followed from one node, and the cost model adds up these powers, from the lower bound to the horizon, without going through them. Bounds
have 32 bits. So the sum is computed here a second time, with bounds that get lost in an operation whose result has no place in 32 bits,
and none is lost. -/

namespace MatchPlanner

/-- A whole number as a bound, unless it is below zero or above the greatest bound. -/
def bound? (value : Int) : Option Nat := if 0 ≤ value ∧ value ≤ greatestBound then some value.toNat else none

theorem bound?_natCast {value : Nat} (fits : value ≤ greatestBound) : bound? value = some value :=
  if_pos ⟨Int.natCast_nonneg value, Int.ofNat_le.mpr fits⟩

theorem bound?_sub {first last : Nat} (ordered : first ≤ last) (fits : last ≤ greatestBound) :
    bound? ((last : Int) - first) = some (last - first) := by
  rw [← Int.ofNat_sub ordered]
  exact bound?_natCast ((Nat.sub_le ..).trans fits)

/-- A sum that is put at the greatest bound when it is no bound itself. -/
theorem bound?_add_getD (first second : Nat) :
    (bound? ((first : Int) + second)).getD greatestBound = min (first + second) greatestBound := by
  rw [← Int.natCast_add]
  rcases Nat.le_total (first + second) greatestBound with fits | exceeds
  · rw [bound?_natCast fits, Option.getD_some, min_eq_left fits]
  · rw [min_eq_right exceeds]
    unfold bound?
    split
    next within => exact Nat.le_antisymm (Int.ofNat_le.mp within.2) exceeds
    next => rfl

variable {ν : Type}

namespace CostModel

/-- The largest repetition count worth estimating. The lower bound and the horizon are added with saturation. -/
def saturatedLimit (model : CostModel ν) (range : Repetition) : Nat :=
  let horizon := (bound? ((range.least : Int) + model.hopHorizon)).getD greatestBound
  match range.most with
  | .unlimited => horizon
  | .limited count => min count horizon

theorem saturatedLimit_eq (model : CostModel ν) (range : Repetition) : model.saturatedLimit range = model.hopLimit range := by
  obtain ⟨least, most⟩ := range
  cases most with
  | unlimited => exact bound?_add_getD ..
  | limited count => exact congrArg (min count) (bound?_add_getD ..)

theorem hopLimit_le (model : CostModel ν) (range : Repetition) : model.hopLimit range ≤ greatestBound := by
  unfold hopLimit
  cases range.most with
  | unlimited => exact Nat.min_le_right ..
  | limited count => exact (Nat.min_le_right ..).trans (Nat.min_le_right ..)

end CostModel

variable [Quantity ν]

/-- The sum of `factor ^ k` for `k` from `first` to `last`, unless the distance of the two overflows. There is one term more, but terms
are counted in the numbers of costs and not in those of bounds. -/
def series? (factor : ν) (first last : Nat) : Option ν :=
  if last < first then some Quantity.zero
  else
    (bound? ((last : Int) - first)).map fun distance =>
      let terms := distance + 1
      if Quantity.equal factor Quantity.one then capped (Quantity.ofNat terms)
      else
        let leading := Quantity.power factor first
        if Quantity.equal leading Quantity.zero then Quantity.zero
        else capped (leading * (Quantity.one - Quantity.power factor terms) / (Quantity.one - factor))

/-- Bounds are subtracted only when they are in order. -/
theorem series?_eq (factor : ν) (first : Nat) {last : Nat} (fits : last ≤ greatestBound) :
    series? factor first last = some (series factor first last) := by
  unfold series? series
  split
  · rfl
  next ordered =>
    rw [bound?_sub (Nat.le_of_not_lt ordered) fits]
    rfl

namespace CostModel

/-- The number of paths, unless an operation on bounds overflows. -/
def pathCount? (model : CostModel ν) (factor : ν) (range : Repetition) : Option ν :=
  series? factor range.least (model.saturatedLimit range)

theorem pathCount?_eq (model : CostModel ν) (factor : ν) (range : Repetition) :
    model.pathCount? factor range = some (model.pathCount factor range) := by
  rw [pathCount?, saturatedLimit_eq, series?_eq factor range.least (model.hopLimit_le range), pathCount]

/-- A series is the sum it stands for, held below the ceiling. So is the number of paths through a repetition, where the sum goes from the
lower bound to the upper one or to the horizon, whichever comes first. No operation on bounds overflows on the way there. -/
theorem pathCount_sums (model : CostModel Rat) (factor : Rat) :
    (∀ first last : Nat, series factor first last = min (∑ exponent ∈ Finset.Icc first last, factor ^ exponent) rowCeiling ∧
      (last < first → series factor first last = 0) ∧
      (last ≤ greatestBound → series? factor first last = some (series factor first last))) ∧
    (∀ least : Nat, model.pathCount factor ⟨least, .unlimited⟩ =
      min (∑ exponent ∈ Finset.Icc least (min (least + model.hopHorizon) greatestBound), factor ^ exponent) rowCeiling) ∧
    (∀ least count : Nat, model.pathCount factor ⟨least, .limited count⟩ =
      min (∑ exponent ∈ Finset.Icc least (min count (min (least + model.hopHorizon) greatestBound)), factor ^ exponent) rowCeiling) ∧
    ∀ range : Repetition, model.pathCount? factor range = some (model.pathCount factor range) := by
  refine ⟨fun first last => ⟨series_exact factor first last, fun empty => ?_, series?_eq factor first⟩,
    fun least => series_exact .., fun least count => series_exact .., model.pathCount?_eq factor⟩
  exact (if_pos empty).trans Quantity.zero_exact

/-- A range of all bounds has one term more than any bound can count, and from the greatest bound on the horizon is no further away. -/
theorem greatest_counted : 4294967295 ≤ greatestBound ∧ series? (1 : Rat) 0 4294967295 = some 4294967296 ∧
    (standard : CostModel Rat).pathCount? 1 ⟨4294967295, .unlimited⟩ = some 1 := by
  have fits : 4294967295 ≤ greatestBound := Nat.le_refl _
  have all : series (1 : Rat) 0 4294967295 = 4294967296 := by decide +kernel
  have last : (standard : CostModel Rat).pathCount 1 ⟨4294967295, .unlimited⟩ = 1 := by decide +kernel
  obtain ⟨sums, -, -, counts⟩ := pathCount_sums standard 1
  exact ⟨fits, all ▸ (sums 0 4294967295).2.2 fits, last ▸ counts ⟨4294967295, .unlimited⟩⟩

end CostModel

end MatchPlanner
