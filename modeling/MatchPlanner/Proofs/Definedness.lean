import MatchPlanner.Proofs.Bounds

/-! The cost model never divides by zero. It is run over numbers that get lost in a division by zero, and whatever is computed from a lost
number is lost as well. No estimate of any plan is lost, nor is any selectivity: there is at least one node to divide by, powers of the
number of nodes are positive, and the closed form of a sum of powers is left aside where the factor is one. -/

namespace MatchPlanner

/-- A number, unless a division by zero went into it. -/
def Checked : Type := Option Rat

namespace Checked

def of (value : Rat) : Checked := some value

instance : DecidableEq Checked := inferInstanceAs (DecidableEq (Option Rat))

/-- Comparisons pass a lost number on: none is less, and it is not taken for something other than a number, which the smaller of two
would leave out. -/
instance : Quantity Checked where
  add := Option.map₂ (· + ·)
  sub := Option.map₂ (· - ·)
  mul := Option.map₂ (· * ·)
  div first second := second.bind fun divisor => if divisor = 0 then none else first.map (· / divisor)
  ofNat count := some (Quantity.ofNat count)
  power base exponent := base.map (Quantity.power · exponent)
  less first second := (Option.map₂ Quantity.less first second).getD false
  equal first second := decide (first = second)
  sortsBefore first second := (Option.map₂ Quantity.sortsBefore first second).getD false
  finite := Option.isSome
  text value := (value.map Quantity.text).getD "lost"
  fixed places value := (value.map (Quantity.fixed places)).getD "lost"

variable (first second : Rat)

theorem zero_of : (Quantity.zero : Checked) = of Quantity.zero := rfl

theorem one_of : (Quantity.one : Checked) = of Quantity.one := rfl

theorem add_of : of first + of second = of (first + second) := rfl

theorem sub_of : of first - of second = of (first - second) := rfl

theorem mul_of : of first * of second = of (first * second) := rfl

theorem power_of (base : Rat) (exponent : Nat) : Quantity.power (of base) exponent = of (Quantity.power base exponent) := rfl

theorem less_of : Quantity.less (of first) (of second) = Quantity.less first second := rfl

theorem div_of {divisor : Rat} (nonzero : divisor ≠ 0) : of first / of divisor = of (first / divisor) := if_neg nonzero

theorem equal_of : Quantity.equal (of first) (of second) = Quantity.equal first second := by
  refine Bool.eq_iff_iff.mpr ?_
  rw [Quantity.equal_iff]
  exact decide_eq_true_iff.trans Option.some_inj

theorem smaller_of : Quantity.smaller (of first) (of second) = of (Quantity.smaller first second) := by
  rw [Quantity.smaller, Quantity.isNumber, less_of, equal_of]
  exact (apply_ite of ..).trans (congrArg (ite _ _) (apply_ite of ..)) |>.symm

theorem clampToUnit_of (value : Rat) : Quantity.clampToUnit (of value) = of (Quantity.clampToUnit value) := by
  have lower : (if Quantity.less (of value) Quantity.zero = true then Quantity.zero else of value) =
      of (if Quantity.less value Quantity.zero = true then Quantity.zero else value) := (apply_ite of ..).symm
  dsimp only [Quantity.clampToUnit]
  rw [lower, one_of, less_of]
  exact (apply_ite of ..).symm

theorem capped_of (value : Rat) : capped (of value) = of (capped value) := (apply_ite of ..).symm

theorem foldl_of (combine : Rat → Rat → Rat) (step : Checked → Checked → Checked)
    (alike : ∀ first second, step (of first) (of second) = of (combine first second)) (start : Rat) (values : List Rat) :
    (values.map of).foldl step (of start) = of (values.foldl combine start) := by
  induction values generalizing start with
  | nil => rfl
  | cons value rest further => rw [List.map_cons, List.foldl_cons, alike, further, List.foldl_cons]

theorem product_of (values : List Rat) : Quantity.product (values.map of) = of (Quantity.product values) :=
  foldl_of _ _ mul_of Quantity.one values

theorem sum_of (values : List Rat) : Quantity.sum (values.map of) = of (Quantity.sum values) :=
  foldl_of _ _ add_of Quantity.zero values

theorem productBySquaring_of (product factor : Rat) (digits count : Nat) :
    productBySquaring (of product) (of factor) digits count = of (productBySquaring product factor digits count) := by
  induction digits generalizing product factor count with
  | zero => rfl
  | succ digits further =>
    have multiplied : (if count % 2 = 1 then of product * of factor else of product) =
        of (if count % 2 = 1 then product * factor else product) := (apply_ite of ..).symm
    simp only [productBySquaring, multiplied]
    rw [mul_of, further]
    exact (apply_ite of ..).symm

theorem repeatedProduct_of (factor : Rat) (count : Nat) : repeatedProduct (of factor) count = of (repeatedProduct factor count) :=
  productBySquaring_of Quantity.one factor count count

/-- The only divisor that depends on a factor is not zero where it is used. -/
theorem series_of (factor : Rat) (first last : Nat) : series (of factor) first last = of (series factor first last) := by
  unfold series
  split
  · rfl
  next =>
    dsimp only
    rw [one_of, equal_of, power_of, zero_of, equal_of, power_of, sub_of, mul_of, sub_of]
    by_cases one : Quantity.equal factor Quantity.one = true
    · rw [if_pos one, if_pos one]
      exact capped_of _
    · have divisor : (Quantity.one : Rat) - factor ≠ 0 := fun zero => one (Quantity.equal_iff.mpr (sub_eq_zero.mp zero).symm)
      rw [if_neg one, if_neg one, div_of _ divisor, capped_of]
      exact (apply_ite of ..).symm

end Checked

open Checked

/-! The same parameters, statistics and estimates in numbers that can get lost. -/

def Statistics.checked (statistics : Statistics Rat) : Statistics Checked where
  totalNodes := statistics.totalNodes
  totalRelationships := statistics.totalRelationships
  nodeCounts := statistics.nodeCounts
  relationshipCounts := statistics.relationshipCounts
  propertySelectivity := statistics.propertySelectivity.map fun entry => (entry.1, of entry.2)
  indexes := statistics.indexes

def CostModel.checked (model : CostModel Rat) : CostModel Checked where
  cpuPerRow := of model.cpuPerRow
  expandPerRow := of model.expandPerRow
  hashPerRow := of model.hashPerRow
  indexSeek := of model.indexSeek
  hopHorizon := model.hopHorizon
  equalitySelectivity := of model.equalitySelectivity
  uniquenessSelectivity := of model.uniquenessSelectivity
  defaultSelectivity := of model.defaultSelectivity

def Estimate.checked (estimate : Estimate Rat) : Estimate Checked := ⟨of estimate.cost, of estimate.rows⟩

namespace Statistics

variable (statistics : Statistics Rat)

theorem nodeTotal_checked : statistics.checked.nodeTotal = of statistics.nodeTotal := rfl

/-- Dividing by the number of nodes loses nothing. -/
theorem div_nodeTotal (value : Rat) : of value / statistics.checked.nodeTotal = of (value / statistics.nodeTotal) :=
  div_of value statistics.nodeTotal_pos.ne'

theorem relationshipCount_checked (types : List String) :
    statistics.checked.relationshipCount types = of (statistics.relationshipCount types) := by
  have counts : types.map statistics.checked.typeCount = (types.map statistics.typeCount).map of := by
    rw [List.map_map]
    rfl
  unfold relationshipCount
  rw [counts, sum_of]
  exact (apply_ite of ..).symm

theorem averageDegree_checked (types : List String) (direction : Direction) :
    statistics.checked.averageDegree types direction = of (statistics.averageDegree types direction) := by
  unfold averageDegree
  rw [relationshipCount_checked, div_nodeTotal]
  cases direction <;> rfl

end Statistics

namespace CostModel

variable (model : CostModel Rat) (statistics : Statistics Rat)

theorem propertySelectivity_checked (property : String) :
    model.checked.propertySelectivity statistics.checked property = of (model.propertySelectivity statistics property) := by
  have lookup (entries : List (String × Rat)) :
      (entries.map fun entry => (entry.1, of entry.2)).lookup property = (entries.lookup property).map of := by
    induction entries with
    | nil => rfl
    | cons entry rest further =>
      rw [List.map_cons, List.lookup_cons, List.lookup_cons, further]
      cases property == entry.1 <;> rfl
  change ((statistics.propertySelectivity.map fun entry => (entry.1, of entry.2)).lookup property).getD _ = _
  rw [lookup, propertySelectivity]
  cases statistics.propertySelectivity.lookup property <;> rfl

theorem equalitySelectivityOf_checked (left right : Expression) :
    model.checked.equalitySelectivityOf statistics.checked left right = of (model.equalitySelectivityOf statistics left right) := by
  unfold equalitySelectivityOf
  split
  · exact statistics.div_nodeTotal Quantity.one
  · exact model.propertySelectivity_checked statistics _
  · exact model.propertySelectivity_checked statistics _
  · rfl

theorem selectivity_checked (predicate : Expression) :
    model.checked.selectivity statistics.checked predicate = of (model.selectivity statistics predicate) := by
  fun_induction selectivity model statistics predicate with
  | case1 element labels =>
    have fractions : (labels.map fun label => statistics.checked.labelCount label / statistics.checked.nodeTotal) =
        (labels.map fun label => statistics.labelCount label / statistics.nodeTotal).map of := by
      rw [List.map_map]
      exact List.map_congr_left fun label _ => statistics.div_nodeTotal _
    rw [selectivity, fractions, product_of, clampToUnit_of]
  | case2 | case3 => exact clampToUnit_of _
  | case4 left right former latter => rw [selectivity, former, latter, mul_of, clampToUnit_of]
  | case5 left right one other former latter => rw [selectivity, former, latter, add_of, mul_of, sub_of, clampToUnit_of]
  | case6 left right => rw [selectivity, equalitySelectivityOf_checked, clampToUnit_of]
  | case7 left right => exact clampToUnit_of _
  | case8 operand below =>
    rw [selectivity, below]
    exact (congrArg Quantity.clampToUnit (apply_ite of ..).symm).trans (clampToUnit_of _)
  | case9 function arguments => exact (congrArg Quantity.clampToUnit (apply_ite of ..).symm).trans (clampToUnit_of _)
  | case10 predicate =>
    rw [selectivity]
    · exact clampToUnit_of _
    all_goals assumption

theorem selectivityOfAll_checked (predicates : List Expression) :
    model.checked.selectivityOfAll statistics.checked predicates = of (model.selectivityOfAll statistics predicates) := by
  have fractions : predicates.map (model.checked.selectivity statistics.checked) =
      (predicates.map (model.selectivity statistics)).map of := by
    rw [List.map_map]
    exact List.map_congr_left fun predicate _ => model.selectivity_checked statistics predicate
  rw [selectivityOfAll, fractions, product_of]
  rfl

theorem pathCount_checked (factor : Rat) (range : Repetition) :
    model.checked.pathCount (of factor) range = of (model.pathCount factor range) := series_of factor _ _

theorem traversedDegree_checked (hop : Hop) (nodePredicates relationshipPredicates : List VariablePredicate) :
    model.checked.traversedDegree statistics.checked hop nodePredicates relationshipPredicates =
      of (model.traversedDegree statistics hop nodePredicates relationshipPredicates) := by
  rw [traversedDegree, Statistics.averageDegree_checked, selectivityOfAll_checked, selectivityOfAll_checked]
  rfl

theorem pruningEstimate_checked (source : Estimate Rat) (degree : Rat) (range : Repetition) (discount : Rat) :
    model.checked.pruningEstimate statistics.checked source.checked (of degree) range (of discount) =
      (model.pruningEstimate statistics source degree range discount).checked := by
  have total : statistics.checked.relationshipTotal = of statistics.relationshipTotal := rfl
  dsimp only [pruningEstimate]
  rw [pathCount_checked, pathCount_checked, Statistics.nodeTotal_checked, total, smaller_of, smaller_of]
  rfl

theorem leafEstimate_checked (operator : Leaf) :
    model.checked.leafEstimate statistics.checked operator = (model.leafEstimate statistics operator).checked := by
  cases operator with
  | argument names | allNodesScan node | labelScan node label => rfl
  | indexSeek node label property value unique =>
    have found : (if unique then Quantity.smaller (statistics.checked.labelCount label) Quantity.one
          else statistics.checked.labelCount label * model.checked.propertySelectivity statistics.checked property) =
        of (if unique then Quantity.smaller (statistics.labelCount label) Quantity.one
          else statistics.labelCount label * model.propertySelectivity statistics property) := by
      rw [propertySelectivity_checked]
      exact (congrArg₂ (ite _) (smaller_of ..) rfl).trans (apply_ite of ..).symm
    dsimp only [leafEstimate]
    rw [found]
    rfl

theorem stepEstimate_checked (source : Estimate Rat) (operator : Step) :
    model.checked.stepEstimate statistics.checked source.checked operator =
      (model.stepEstimate statistics source operator).checked := by
  cases operator with
  | expand hop relationship mode =>
    dsimp only [stepEstimate]
    rw [Statistics.averageDegree_checked]
    cases mode with
    | all => rfl
    | into => exact congrArg (Estimate.mk _) (statistics.div_nodeTotal _)
  | varLengthExpand hop relationship range nodePredicates relationshipPredicates mode =>
    dsimp only [stepEstimate]
    rw [traversedDegree_checked, pathCount_checked, pathCount_checked]
    cases mode with
    | all => rfl
    | into =>
      have kept : source.checked.rows * of (model.pathCount (model.traversedDegree statistics hop nodePredicates relationshipPredicates)
          range) / statistics.checked.nodeTotal = _ := statistics.div_nodeTotal _
      dsimp only
      rw [kept]
      rfl
  | pruningVarExpand hop least most nodePredicates relationshipPredicates =>
    dsimp only [stepEstimate]
    rw [traversedDegree_checked]
    exact model.pruningEstimate_checked statistics source _ _ _
  | bfsPruningVarExpand hop includeStart most nodePredicates relationshipPredicates =>
    have discount : (Quantity.fraction 9 10 : Checked) = of (Quantity.fraction 9 10) := div_of _ (by decide +kernel)
    dsimp only [stepEstimate]
    rw [traversedDegree_checked, discount]
    exact model.pruningEstimate_checked statistics source _ _ _
  | filter predicates =>
    dsimp only [stepEstimate]
    rw [selectivityOfAll_checked]
    rfl
  | eager reasons => rfl

theorem trailEstimate_checked (source iteration : Estimate Rat) (range : Repetition) :
    model.checked.trailEstimate source.checked iteration.checked range = (model.trailEstimate source iteration range).checked := by
  have repeated : (if model.checked.hopLimit range = 0 then Quantity.zero
        else series iteration.checked.rows 0 (model.checked.hopLimit range - 1)) =
      of (if model.hopLimit range = 0 then Quantity.zero else series iteration.rows 0 (model.hopLimit range - 1)) :=
    (congrArg (ite _ _) (series_of ..)).trans (apply_ite of ..).symm
  have found : model.checked.pathCount iteration.checked.rows range = of (model.pathCount iteration.rows range) :=
    model.pathCount_checked _ _
  dsimp only [trailEstimate]
  rw [repeated, found]
  rfl

theorem joinEstimate_checked (left right : Estimate Rat) (operator : Join) :
    model.checked.joinEstimate statistics.checked left.checked right.checked operator =
      (model.joinEstimate statistics left right operator).checked := by
  cases operator with
  | cartesianProduct => rfl
  | nodeHashJoin nodes =>
    dsimp only [joinEstimate]
    rw [Statistics.nodeTotal_checked, repeatedProduct_of]
    exact congrArg (Estimate.mk _) (div_of _ (repeatedProduct_pos statistics.nodeTotal_pos _).ne')

theorem cappedEstimate_checked (estimate : Estimate Rat) : cappedEstimate estimate.checked = (cappedEstimate estimate).checked :=
  congrArg₂ Estimate.mk (capped_of _) (capped_of _)

/-- No number is lost on the way to an estimate. -/
theorem estimatePlan_checked (plan : Plan) :
    model.checked.estimatePlan statistics.checked plan = (model.estimatePlan statistics plan).checked := by
  induction plan with
  | leaf id operator => rw [estimatePlan, leafEstimate_checked, cappedEstimate_checked, estimatePlan]
  | step id operator input below => rw [estimatePlan, below, stepEstimate_checked, cappedEstimate_checked, estimatePlan]
  | trail id parameters input inner below inside =>
    rw [estimatePlan, below, inside, trailEstimate_checked, cappedEstimate_checked, estimatePlan]
  | join id operator left right below beyond =>
    rw [estimatePlan, below, beyond, joinEstimate_checked, cappedEstimate_checked, estimatePlan]

variable {model statistics}

/-- Every plan has an estimate: nothing is divided by zero on the way to it, and its cost and its rows lie between zero and the ceiling.
It costs no less than the inputs it runs first, a filter keeps a fraction of its rows, and the fraction a predicate keeps is one. -/
theorem estimates_total (sane : model.Nonnegative) (known : statistics.Nonnegative) :
    (∀ plan : Plan, model.estimate statistics plan = .ok (model.estimatePlan statistics plan) ∧
      (model.estimatePlan statistics plan).Bounded ∧
      model.checked.estimatePlan statistics.checked plan = (model.estimatePlan statistics plan).checked ∧
      ∀ input ∈ plan.charged, (model.estimatePlan statistics input).cost ≤ (model.estimatePlan statistics plan).cost) ∧
    (∀ (id : PlanId) (predicates : List Expression) (input : Plan),
      (model.estimatePlan statistics (.step id (.filter predicates) input)).rows ≤ (model.estimatePlan statistics input).rows) ∧
    (∀ predicate : Expression, 0 ≤ model.selectivity statistics predicate ∧ model.selectivity statistics predicate ≤ 1 ∧
      model.checked.selectivity statistics.checked predicate = of (model.selectivity statistics predicate)) ∧
    ∀ (types : List String) (direction : Direction),
      statistics.checked.averageDegree types direction = of (statistics.averageDegree types direction) := by
  refine ⟨fun plan => ⟨estimate_accepts sane known plan, estimatePlan_bounded sane known plan,
    model.estimatePlan_checked statistics plan, fun input charged => cost_le_of_charged sane known charged⟩,
    filter_rows_le sane known, fun predicate => ?_, statistics.averageDegree_checked⟩
  have fraction := model.selectivity_mem statistics predicate
  exact ⟨fraction.1, fraction.2, model.selectivity_checked statistics predicate⟩

end CostModel

/-- A loop that has to be gone through more often than there are relationships. -/
def Plan.endless : Plan :=
  .trail ⟨3⟩ ⟨⟨4000000000, .limited 4294967295⟩, "a", "b", "n", "m", [], [], ["r"], [], [], false⟩ (.leaf ⟨2⟩ (.allNodesScan "a"))
    (.step ⟨1⟩ (.expand ⟨"n", "m", .both, ["R", "S"]⟩ "r" .all) (.leaf ⟨0⟩ (.argument ["n"])))

/-- Even so many repetitions have an estimate, which is what the scan costs at least. -/
theorem Plan.endless_estimated : (CostModel.standard : CostModel Rat).Nonnegative ∧ (Statistics.counts 40 60).Nonnegative ∧
    ∃ estimate, CostModel.standard.estimate (Statistics.counts 40 60) endless = .ok estimate ∧ estimate.Bounded ∧
      (CostModel.standard.estimatePlan (Statistics.counts 40 60) (.leaf ⟨2⟩ (.allNodesScan "a"))).cost ≤ estimate.cost := by
  have sane : (CostModel.standard : CostModel Rat).Nonnegative := by constructor <;> decide +kernel
  have known : (Statistics.counts 40 60).Nonnegative := fun _ impossible => absurd impossible List.not_mem_nil
  obtain ⟨estimated, bounded, -, charged⟩ := (CostModel.estimates_total sane known).1 endless
  exact ⟨sane, known, _, estimated, bounded, charged _ List.mem_cons_self⟩

end MatchPlanner
