import Mathlib.Algebra.Field.GeomSum
import Mathlib.Algebra.Order.BigOperators.Group.Finset
import Mathlib.Algebra.Order.BigOperators.Ring.List
import Mathlib.Algebra.Order.Field.Rat
import MatchPlanner.Proofs.Selections

/-! Bounds on estimates, in exact numbers. Selectivities are fractions, sums of powers of a factor that is not negative are not negative
either, and every cost and every row count is held below the ceiling. So no operator costs less than the input it has to run first, and
the estimate of a plan is never refused. -/

namespace MatchPlanner

/-! The arithmetic of exact numbers. -/

namespace Quantity

theorem one_exact : (one : Rat) = 1 := Nat.cast_one

theorem zero_exact : (zero : Rat) = 0 := Nat.cast_zero

theorem power_exact (base : Rat) (exponent : Nat) : power base exponent = base ^ exponent := rfl

theorem less_iff {first second : Rat} : less first second = true ↔ first < second := decide_eq_true_iff

theorem equal_iff {first second : Rat} : equal first second = true ↔ first = second := decide_eq_true_iff

theorem smaller_exact (first second : Rat) : smaller first second = min first second := by
  have number : isNumber first = true := equal_iff.mpr rfl
  unfold smaller
  split
  next below => exact (min_eq_right (le_of_lt (less_iff.mp below))).symm
  next above => exact (min_eq_left (not_lt.mp fun below => above (less_iff.mpr below))).symm

theorem ofNat_nonneg (count : Nat) : 0 ≤ (ofNat count : Rat) := Nat.cast_nonneg count

theorem smaller_nonneg {first second : Rat} (former : 0 ≤ first) (latter : 0 ≤ second) : 0 ≤ smaller first second := by
  rw [smaller_exact]
  exact le_min former latter

/-- A number that is clamped lies in the unit interval. -/
theorem clampToUnit_mem (value : Rat) : 0 ≤ clampToUnit value ∧ clampToUnit value ≤ 1 := by
  simp only [clampToUnit, less_iff, one_exact, zero_exact]
  split
  · split
    · exact ⟨zero_le_one, le_refl 1⟩
    · exact ⟨le_refl 0, zero_le_one⟩
  next positive =>
    split
    · exact ⟨zero_le_one, le_refl 1⟩
    next small => exact ⟨not_lt.mp positive, not_lt.mp small⟩

/-- A fraction is there already. -/
theorem clampToUnit_exact {value : Rat} (fraction : 0 ≤ value ∧ value ≤ 1) : clampToUnit value = value := by
  simp only [clampToUnit, less_iff, one_exact, zero_exact]
  rw [if_neg (not_lt.mpr fraction.1), if_neg (not_lt.mpr fraction.2)]

theorem product_exact (values : List Rat) : product values = values.prod := by
  rw [List.prod_eq_foldl, product, one_exact]

/-- A product of fractions is a fraction. -/
theorem product_mem {values : List Rat} (fractions : ∀ value ∈ values, 0 ≤ value ∧ value ≤ 1) :
    0 ≤ product values ∧ product values ≤ 1 := by
  rw [product_exact]
  induction values with
  | nil => exact ⟨zero_le_one, le_refl 1⟩
  | cons value rest further =>
    obtain ⟨positive, small⟩ := fractions value List.mem_cons_self
    obtain ⟨nonnegative, bounded⟩ := further fun other member => fractions other (List.mem_cons_of_mem _ member)
    rw [List.prod_cons]
    exact ⟨mul_nonneg positive nonnegative, mul_le_one₀ small nonnegative bounded⟩

theorem sum_exact (values : List Rat) : sum values = values.sum := by
  rw [List.sum_eq_foldl, sum, zero_exact]

end Quantity

/-- Whether a number is one that a cost or a row count can be. -/
def IsAmount (value : Rat) : Prop := 0 ≤ value ∧ value ≤ rowCeiling

theorem rowCeiling_nonneg : (0 : Rat) ≤ rowCeiling := Quantity.ofNat_nonneg _

theorem capped_exact (value : Rat) : capped value = min value rowCeiling := by
  unfold capped
  split
  next beyond => exact (min_eq_right (le_of_lt (Quantity.less_iff.mp beyond))).symm
  next within => exact (min_eq_left (not_lt.mp fun beyond => within (Quantity.less_iff.mpr beyond))).symm

theorem isAmount_capped {value : Rat} (nonnegative : 0 ≤ value) : IsAmount (capped value) := by
  rw [capped_exact]
  exact ⟨le_min nonnegative rowCeiling_nonneg, min_le_right ..⟩

/-- Holding a number below the ceiling does not take it below an amount. -/
theorem le_capped {amount value : Rat} (bounded : amount ≤ rowCeiling) (less : amount ≤ value) : amount ≤ capped value := by
  rw [capped_exact]
  exact le_min less bounded

/-- Nor does it take anything up. -/
theorem capped_le (value : Rat) : capped value ≤ value := by
  rw [capped_exact]
  exact min_le_left ..

theorem productBySquaring_pos {product factor : Rat} (started : 0 < product) (positive : 0 < factor) (digits count : Nat) :
    0 < productBySquaring product factor digits count := by
  induction digits generalizing product factor count with
  | zero => exact started
  | succ digits further =>
    have multiplied : 0 < if count % 2 = 1 then product * factor else product := by
      split
      exacts [mul_pos started positive, started]
    unfold productBySquaring
    dsimp only
    split
    · exact multiplied
    · exact further multiplied (mul_pos positive positive) _

theorem repeatedProduct_pos {factor : Rat} (positive : 0 < factor) (count : Nat) : 0 < repeatedProduct factor count :=
  productBySquaring_pos (Quantity.one_exact ▸ one_pos) positive count count

/-! Sums of powers, from one exponent to another. -/

/-- The closed form, which divides by zero when the factor is one. -/
theorem sum_powers {factor : Rat} (other : factor ≠ 1) {first last : Nat} (ordered : first ≤ last) :
    ∑ exponent ∈ Finset.Icc first last, factor ^ exponent = factor ^ first * (1 - factor ^ (last - first + 1)) / (1 - factor) := by
  have reached : first + (last - first + 1) = last + 1 := by omega
  have closed := geom_sum_Ico' other (ordered.trans (Nat.le_add_right last 1))
  rw [Finset.Ico_add_one_right_eq_Icc] at closed
  rw [closed, mul_sub, mul_one, ← pow_add, reached]

/-- Every power of one counts for one. -/
theorem sum_powers_one {first last : Nat} (ordered : first ≤ last) :
    ∑ exponent ∈ Finset.Icc first last, (1 : Rat) ^ exponent = Quantity.ofNat (last - first + 1) := by
  have terms : (Finset.Icc first last).card = last - first + 1 := by rw [Nat.card_Icc]; omega
  simp only [one_pow, Finset.sum_const, nsmul_one, terms]
  rfl

/-- With one power all higher powers vanish. -/
theorem sum_powers_zero {factor : Rat} {first : Nat} (vanishes : factor ^ first = 0) (last : Nat) :
    ∑ exponent ∈ Finset.Icc first last, factor ^ exponent = 0 := by
  refine Finset.sum_eq_zero fun exponent member => ?_
  obtain ⟨further, rfl⟩ := Nat.exists_eq_add_of_le (Finset.mem_Icc.mp member).1
  rw [pow_add, vanishes, zero_mul]

/-- A series is the sum it stands for, held below the ceiling, whichever way it is computed. -/
theorem series_exact (factor : Rat) (first last : Nat) :
    series factor first last = min (∑ exponent ∈ Finset.Icc first last, factor ^ exponent) rowCeiling := by
  unfold series
  simp only [Quantity.equal_iff, Quantity.one_exact, Quantity.zero_exact, Quantity.power_exact]
  split
  next empty => rw [Finset.Icc_eq_empty_of_lt empty, Finset.sum_empty, min_eq_left rowCeiling_nonneg]
  next ordered =>
    have ordered : first ≤ last := not_lt.mp ordered
    split
    next one => rw [one, capped_exact, sum_powers_one ordered]
    next other =>
      split
      next vanishes => rw [sum_powers_zero vanishes, min_eq_left rowCeiling_nonneg]
      next => rw [capped_exact, sum_powers other ordered]

theorem series_nonneg {factor : Rat} (nonnegative : 0 ≤ factor) (first last : Nat) : 0 ≤ series factor first last := by
  rw [series_exact]
  exact le_min (Finset.sum_nonneg fun exponent _ => pow_nonneg nonnegative exponent) rowCeiling_nonneg

/-! Statistics and selectivities. -/

/-- No selectivity given for a property is negative. -/
def Statistics.Nonnegative (statistics : Statistics Rat) : Prop := ∀ entry ∈ statistics.propertySelectivity, 0 ≤ entry.2

namespace Statistics

variable (statistics : Statistics Rat)

theorem nodeTotal_pos : 0 < statistics.nodeTotal := by
  have counted : 0 < max statistics.totalNodes 1 := Nat.lt_of_lt_of_le Nat.one_pos (Nat.le_max_right ..)
  exact Nat.cast_pos.mpr counted

theorem relationshipCount_nonneg (types : List String) : 0 ≤ statistics.relationshipCount types := by
  unfold relationshipCount
  split
  · exact Quantity.ofNat_nonneg _
  · rw [Quantity.sum_exact]
    refine List.sum_nonneg fun count member => ?_
    obtain ⟨type, -, rfl⟩ := List.mem_map.mp member
    exact Quantity.ofNat_nonneg _

theorem averageDegree_nonneg (types : List String) (direction : Direction) : 0 ≤ statistics.averageDegree types direction := by
  have degree : 0 ≤ statistics.relationshipCount types / statistics.nodeTotal :=
    div_nonneg (statistics.relationshipCount_nonneg types) statistics.nodeTotal_pos.le
  cases direction with
  | both => exact mul_nonneg degree (Quantity.ofNat_nonneg 2)
  | outgoing | incoming => exact degree

end Statistics

/-- No parameter of the cost model is negative. -/
structure CostModel.Nonnegative (model : CostModel Rat) : Prop where
  cpuPerRow : 0 ≤ model.cpuPerRow
  expandPerRow : 0 ≤ model.expandPerRow
  hashPerRow : 0 ≤ model.hashPerRow
  indexSeek : 0 ≤ model.indexSeek
  equalitySelectivity : 0 ≤ model.equalitySelectivity
  uniquenessSelectivity : 0 ≤ model.uniquenessSelectivity
  defaultSelectivity : 0 ≤ model.defaultSelectivity

/-- The cost and the rows are amounts. -/
structure Estimate.Bounded (estimate : Estimate Rat) : Prop where
  cost : IsAmount estimate.cost
  rows : IsAmount estimate.rows

/-- An operator costs at least what its input costs, and its row count is not negative. -/
structure Estimate.Exceeds (estimate source : Estimate Rat) : Prop where
  cost : source.cost ≤ estimate.cost
  rows : 0 ≤ estimate.rows

/-- The inputs whose whole cost is part of the cost of a plan. What runs once for every row of another input is not among them. -/
def Plan.charged : Plan → List Plan
  | .leaf _ _ => []
  | .step _ _ input => [input]
  | .trail _ _ input _ => [input]
  | .join _ .cartesianProduct left _ => [left]
  | .join _ (.nodeHashJoin _) left right => [left, right]

namespace CostModel

variable {model : CostModel Rat} {statistics : Statistics Rat}

/-- The selectivity of a predicate is a fraction, whatever the parameters are. -/
theorem selectivity_mem (model : CostModel Rat) (statistics : Statistics Rat) (predicate : Expression) :
    0 ≤ model.selectivity statistics predicate ∧ model.selectivity statistics predicate ≤ 1 := by
  unfold selectivity
  split <;> exact Quantity.clampToUnit_mem _

theorem selectivityOfAll_mem (model : CostModel Rat) (statistics : Statistics Rat) (predicates : List Expression) :
    0 ≤ model.selectivityOfAll statistics predicates ∧ model.selectivityOfAll statistics predicates ≤ 1 := by
  refine Quantity.product_mem fun value member => ?_
  obtain ⟨predicate, -, rfl⟩ := List.mem_map.mp member
  exact model.selectivity_mem statistics predicate

theorem propertySelectivity_nonneg (sane : model.Nonnegative) (known : statistics.Nonnegative) (property : String) :
    0 ≤ model.propertySelectivity statistics property := by
  unfold propertySelectivity
  cases found : statistics.propertySelectivity.lookup property with
  | none => exact sane.equalitySelectivity
  | some value =>
    obtain ⟨before, after, same, -⟩ := List.lookup_eq_some_iff.mp found
    exact known (property, value) (same ▸ List.mem_append_right _ List.mem_cons_self)

theorem pathCount_nonneg (model : CostModel Rat) {factor : Rat} (nonnegative : 0 ≤ factor) (range : Repetition) :
    0 ≤ model.pathCount factor range := series_nonneg nonnegative _ _

theorem traversedDegree_nonneg (model : CostModel Rat) (statistics : Statistics Rat) (hop : Hop)
    (nodePredicates relationshipPredicates : List VariablePredicate) :
    0 ≤ model.traversedDegree statistics hop nodePredicates relationshipPredicates :=
  mul_nonneg (mul_nonneg (statistics.averageDegree_nonneg _ _) (model.selectivityOfAll_mem statistics _).1)
    (model.selectivityOfAll_mem statistics _).1

/-! One operator. -/

variable {source : Estimate Rat}

theorem pruningEstimate_exceeds (sane : model.Nonnegative) (bounded : source.Bounded) {degree discount : Rat} (range : Repetition)
    (traversed : 0 ≤ degree) (discounted : 0 ≤ discount) :
    (model.pruningEstimate statistics source degree range discount).Exceeds source := by
  have rows := bounded.rows.1
  have expands := sane.expandPerRow
  have reachable : 0 ≤ Quantity.smaller (model.pathCount degree range) statistics.nodeTotal :=
    Quantity.smaller_nonneg (model.pathCount_nonneg traversed range) statistics.nodeTotal_pos.le
  have explored : 0 ≤ Quantity.smaller (model.pathCount degree ⟨max range.least 1, range.most⟩) statistics.relationshipTotal :=
    Quantity.smaller_nonneg (model.pathCount_nonneg traversed _) (Quantity.ofNat_nonneg _)
  refine ⟨le_add_of_nonneg_right ?_, mul_nonneg rows reachable⟩
  exact mul_nonneg (mul_nonneg (mul_nonneg rows explored) expands) discounted

theorem leafEstimate_nonneg (sane : model.Nonnegative) (known : statistics.Nonnegative) (operator : Leaf) :
    0 ≤ (model.leafEstimate statistics operator).cost ∧ 0 ≤ (model.leafEstimate statistics operator).rows := by
  have cpu := sane.cpuPerRow
  have scanned (count : Nat) : 0 ≤ Quantity.ofNat count * model.cpuPerRow := mul_nonneg (Quantity.ofNat_nonneg count) cpu
  cases operator with
  | argument names => exact ⟨Quantity.ofNat_nonneg 0, Quantity.ofNat_nonneg 1⟩
  | allNodesScan node => exact ⟨scanned _, Quantity.ofNat_nonneg _⟩
  | labelScan node label => exact ⟨scanned _, Quantity.ofNat_nonneg _⟩
  | indexSeek node label property value unique =>
    have found : 0 ≤ if unique then Quantity.smaller (statistics.labelCount label) Quantity.one
        else statistics.labelCount label * model.propertySelectivity statistics property := by
      split
      · exact Quantity.smaller_nonneg (Quantity.ofNat_nonneg _) (Quantity.ofNat_nonneg 1)
      · exact mul_nonneg (Quantity.ofNat_nonneg _) (propertySelectivity_nonneg sane known property)
    exact ⟨add_nonneg sane.indexSeek (mul_nonneg found cpu), found⟩

theorem stepEstimate_exceeds (sane : model.Nonnegative) (bounded : source.Bounded) (operator : Step) :
    (model.stepEstimate statistics source operator).Exceeds source := by
  have rows := bounded.rows.1
  have cpu := sane.cpuPerRow
  have expands := sane.expandPerRow
  have total := statistics.nodeTotal_pos.le
  cases operator with
  | expand hop relationship mode =>
    have traversed : 0 ≤ source.rows * statistics.averageDegree hop.types hop.direction :=
      mul_nonneg rows (statistics.averageDegree_nonneg _ _)
    refine ⟨le_add_of_nonneg_right (mul_nonneg traversed expands), ?_⟩
    cases mode with
    | all => exact traversed
    | into => exact div_nonneg traversed total
  | varLengthExpand hop relationship range nodePredicates relationshipPredicates mode =>
    have degree := model.traversedDegree_nonneg statistics hop nodePredicates relationshipPredicates
    have found := mul_nonneg rows (model.pathCount_nonneg degree range)
    have explored := mul_nonneg rows (model.pathCount_nonneg degree ⟨max range.least 1, range.most⟩)
    cases mode with
    | all =>
      refine ⟨?_, found⟩
      exact le_add_of_le_of_nonneg (le_add_of_nonneg_right (mul_nonneg explored expands)) (mul_nonneg found cpu)
    | into =>
      have kept := div_nonneg found total
      refine ⟨?_, kept⟩
      exact le_add_of_le_of_nonneg (le_add_of_nonneg_right (mul_nonneg explored expands)) (mul_nonneg kept cpu)
  | pruningVarExpand hop least most nodePredicates relationshipPredicates =>
    exact pruningEstimate_exceeds sane bounded _ (model.traversedDegree_nonneg ..) (Quantity.ofNat_nonneg 1)
  | bfsPruningVarExpand hop includeStart most nodePredicates relationshipPredicates =>
    exact pruningEstimate_exceeds sane bounded _ (model.traversedDegree_nonneg ..)
      (div_nonneg (Quantity.ofNat_nonneg 9) (Quantity.ofNat_nonneg 10))
  | filter predicates =>
    refine ⟨le_add_of_nonneg_right ?_, mul_nonneg rows (model.selectivityOfAll_mem statistics predicates).1⟩
    exact mul_nonneg (mul_nonneg rows cpu) (Quantity.ofNat_nonneg _)
  | eager reasons => exact ⟨le_add_of_nonneg_right (mul_nonneg rows cpu), rows⟩

theorem trailEstimate_exceeds (sane : model.Nonnegative) (bounded : source.Bounded) {iteration : Estimate Rat}
    (inside : iteration.Bounded) (range : Repetition) : (model.trailEstimate source iteration range).Exceeds source := by
  have rows := bounded.rows.1
  have cpu := sane.cpuPerRow
  have repeated : 0 ≤ if model.hopLimit range = 0 then Quantity.zero else series iteration.rows 0 (model.hopLimit range - 1) := by
    split
    exacts [Quantity.ofNat_nonneg 0, series_nonneg inside.rows.1 _ _]
  have found := mul_nonneg rows (model.pathCount_nonneg inside.rows.1 range)
  refine ⟨le_add_of_le_of_nonneg (le_add_of_nonneg_right ?_) (mul_nonneg found cpu), found⟩
  exact mul_nonneg (mul_nonneg rows repeated) (add_nonneg inside.cost.1 cpu)

theorem joinEstimate_exceeds (sane : model.Nonnegative) (bounded : source.Bounded) {right : Estimate Rat} (beyond : right.Bounded)
    (operator : Join) : (model.joinEstimate statistics source right operator).Exceeds source := by
  have rows := mul_nonneg bounded.rows.1 beyond.rows.1
  cases operator with
  | cartesianProduct =>
    refine ⟨le_add_of_le_of_nonneg (le_add_of_nonneg_right ?_) (mul_nonneg rows sane.cpuPerRow), rows⟩
    exact mul_nonneg bounded.rows.1 beyond.cost.1
  | nodeHashJoin nodes =>
    refine ⟨le_add_of_le_of_nonneg (le_add_of_nonneg_right beyond.cost.1) ?_, ?_⟩
    · exact mul_nonneg (add_nonneg bounded.rows.1 beyond.rows.1) sane.hashPerRow
    · exact div_nonneg rows (repeatedProduct_pos statistics.nodeTotal_pos _).le

/-- A hash join reads both its inputs. -/
theorem hashJoin_reads_right (sane : model.Nonnegative) (bounded : source.Bounded) {right : Estimate Rat} (beyond : right.Bounded)
    (nodes : List String) : right.cost ≤ (model.joinEstimate statistics source right (.nodeHashJoin nodes)).cost :=
  le_add_of_le_of_nonneg (le_add_of_nonneg_left bounded.cost.1)
    (mul_nonneg (add_nonneg bounded.rows.1 beyond.rows.1) sane.hashPerRow)

/-! A whole plan. -/

theorem bounded_capped {estimate source : Estimate Rat} (bounded : source.Bounded) (exceeds : estimate.Exceeds source) :
    (cappedEstimate estimate).Bounded where
  cost := isAmount_capped (le_trans bounded.cost.1 exceeds.cost)
  rows := isAmount_capped exceeds.rows

theorem estimatePlan_bounded (sane : model.Nonnegative) (known : statistics.Nonnegative) (plan : Plan) :
    (model.estimatePlan statistics plan).Bounded := by
  induction plan with
  | leaf id operator =>
    have ⟨cost, rows⟩ := leafEstimate_nonneg sane known operator
    exact ⟨isAmount_capped cost, isAmount_capped rows⟩
  | step id operator input below => exact bounded_capped below (stepEstimate_exceeds sane below operator)
  | trail id parameters input inner below inside =>
    exact bounded_capped below (trailEstimate_exceeds sane below inside parameters.range)
  | join id operator left right below beyond => exact bounded_capped below (joinEstimate_exceeds sane below beyond operator)

/-- The cost of an input is never lost under the ceiling. -/
theorem cost_le_of_charged (sane : model.Nonnegative) (known : statistics.Nonnegative) {plan input : Plan}
    (charged : input ∈ plan.charged) : (model.estimatePlan statistics input).cost ≤ (model.estimatePlan statistics plan).cost := by
  have bounded := fun plan => estimatePlan_bounded sane known plan
  have held {estimate : Estimate Rat} (less : (model.estimatePlan statistics input).cost ≤ estimate.cost) :
      (model.estimatePlan statistics input).cost ≤ (cappedEstimate estimate).cost := le_capped (bounded input).cost.2 less
  cases plan with
  | leaf id operator => cases charged
  | step id operator below =>
    obtain rfl := List.mem_singleton.mp charged
    exact held (stepEstimate_exceeds sane (bounded _) operator).cost
  | trail id parameters below inner =>
    obtain rfl := List.mem_singleton.mp charged
    exact held (trailEstimate_exceeds sane (bounded _) (bounded inner) parameters.range).cost
  | join id operator left right =>
    cases operator with
    | cartesianProduct =>
      obtain rfl := List.mem_singleton.mp charged
      exact held (joinEstimate_exceeds sane (bounded _) (bounded right) .cartesianProduct).cost
    | nodeHashJoin nodes =>
      rcases List.mem_pair.mp charged with rfl | rfl
      · exact held (joinEstimate_exceeds sane (bounded _) (bounded right) (.nodeHashJoin nodes)).cost
      · exact held (hashJoin_reads_right sane (bounded left) (bounded _) nodes)

/-- A filter lets no more rows through than it reads. -/
theorem filter_rows_le (sane : model.Nonnegative) (known : statistics.Nonnegative) (id : PlanId) (predicates : List Expression)
    (input : Plan) : (model.estimatePlan statistics (.step id (.filter predicates) input)).rows ≤
      (model.estimatePlan statistics input).rows := by
  have rows := (estimatePlan_bounded sane known input).rows
  have fraction := model.selectivityOfAll_mem statistics predicates
  have kept : (model.estimatePlan statistics input).rows * model.selectivityOfAll statistics predicates ≤
      (model.estimatePlan statistics input).rows := mul_le_of_le_one_right rows.1 fraction.2
  exact (capped_le _).trans kept

theorem isValidAmount_of_isAmount {value : Rat} (amount : IsAmount value) : isValidAmount value = true := by
  have nonnegative : Quantity.less value Quantity.zero = false :=
    Bool.eq_false_iff.mpr fun negative => absurd (Quantity.less_iff.mp negative) (not_lt.mpr (Quantity.zero_exact ▸ amount.1))
  rw [isValidAmount, nonnegative]
  rfl

/-- No plan is refused an estimate. -/
theorem estimate_accepts (sane : model.Nonnegative) (known : statistics.Nonnegative) (plan : Plan) :
    model.estimate statistics plan = .ok (model.estimatePlan statistics plan) := by
  have bounded := estimatePlan_bounded sane known plan
  dsimp only [CostModel.estimate]
  rw [isValidAmount_of_isAmount bounded.cost, isValidAmount_of_isAmount bounded.rows]
  rfl

end CostModel

end MatchPlanner
