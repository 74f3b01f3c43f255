import MatchPlanner.Proofs.Splicing
import MatchPlanner.Proofs.Undisturbed

/-! The tables of a run. Finishing an operator is the one action that gives away an id, and it enters the id into every table, unless the
estimator refuses the operator. A refusal ends the run or, when it concerns a single candidate, leaves the id without entries. So what is
recorded accounts for every id that was given away, those of dropped candidates included. -/

namespace MatchPlanner

/-- The ids entered into a table, the latest first. -/
def AttributeTable.ids {α : Type} (table : AttributeTable α) : List PlanId := table.entries.map Prod.fst

namespace AttributeTable

variable {α : Type} {table : AttributeTable α} {id : PlanId}

theorem get?_eq_none : table.get? id = none ↔ id ∉ table.ids := by
  rw [get?, List.lookup_eq_none_iff, ids, List.mem_map]
  constructor
  · rintro absent ⟨entry, member, rfl⟩
    have different := absent entry member
    rw [bne_self_eq_false] at different
    cases different
  · intro absent entry member
    exact bne_iff_ne.mpr fun same => absent ⟨entry, member, same.symm⟩

theorem count_cons_self (absent : table.get? id = none) (value : α) :
    (AttributeTable.mk ((id, value) :: table.entries)).ids.count id = 1 := by
  change (id :: table.ids).count id = 1
  rw [List.count_cons_self, List.count_eq_zero_of_not_mem (get?_eq_none.mp absent)]

theorem count_cons_of_ne {other : PlanId} (different : other ≠ id) (value : α) :
    (AttributeTable.mk ((id, value) :: table.entries)).ids.count other = table.ids.count other := by
  change (id :: table.ids).count other = table.ids.count other
  exact List.count_cons_of_ne (Ne.symm different)

end AttributeTable

variable {ν : Type}

/-- Nothing is recorded under the ids that are still to be given away. -/
def Arena.Tidy (arena : Arena ν) : Prop := ∀ id : PlanId, arena.allocated ≤ id.number → arena.Vacant id

/-- The next id is given away and entered into every table. -/
def Arena.enter (arena : Arena ν) (rows : ν) (solved : List Expression) (order : ProvidedOrder) : Arena ν where
  allocated := arena.allocated + 1
  freshNames := arena.freshNames
  cardinalities := ⟨(⟨arena.allocated⟩, rows) :: arena.cardinalities.entries⟩
  solvedPredicates := ⟨(⟨arena.allocated⟩, solved) :: arena.solvedPredicates.entries⟩
  providedOrders := ⟨(⟨arena.allocated⟩, order) :: arena.providedOrders.entries⟩

/-- Every table has one entry for an id. -/
structure Arena.Entered (arena : Arena ν) (id : PlanId) : Prop where
  cardinality : arena.cardinalities.ids.count id = 1
  solved : arena.solvedPredicates.ids.count id = 1
  order : arena.providedOrders.ids.count id = 1

/-- The operator that an id was given to was refused by the estimator, in a way that concerns no other candidate. -/
def Environment.Refuses (environment : Environment ν) (id : PlanId) : Prop :=
  ∃ operator error, operator.id = id ∧ environment.estimator operator environment.statistics = .error error ∧
    error.isCandidateLocal = true

/-- The tables account for the ids given away, and for no others. -/
structure Environment.Accounts (environment : Environment ν) (arena : Arena ν) : Prop where
  vacant : arena.Tidy
  entered : ∀ id : PlanId, id.number < arena.allocated → arena.Entered id ∨ arena.Vacant id ∧ environment.Refuses id

namespace Environment.Accounts

variable {environment : Environment ν} {arena : Arena ν}

theorem initial : environment.Accounts .empty where
  vacant _ _ := ⟨rfl, rfl, rfl⟩
  entered _ earlier := absurd earlier (Nat.not_lt_zero _)

/-- Made-up names are counted apart from the ids. -/
theorem renamed (accounts : environment.Accounts arena) (names : Nat) : environment.Accounts { arena with freshNames := names } where
  vacant id later := by
    obtain ⟨cardinality, solved, order⟩ := accounts.vacant id later
    exact ⟨cardinality, solved, order⟩
  entered id earlier := by
    obtain ⟨cardinality, solved, order⟩ | ⟨⟨cardinality, solved, order⟩, refused⟩ := accounts.entered id earlier
    · exact .inl ⟨cardinality, solved, order⟩
    · exact .inr ⟨⟨cardinality, solved, order⟩, refused⟩

/-- The next id is given away in vain. -/
theorem refuse (accounts : environment.Accounts arena) (refused : environment.Refuses ⟨arena.allocated⟩) :
    environment.Accounts { arena with allocated := arena.allocated + 1 } where
  vacant id later := by
    obtain ⟨cardinality, solved, order⟩ := accounts.vacant id (Nat.le_of_succ_le later)
    exact ⟨cardinality, solved, order⟩
  entered id earlier := by
    rcases Nat.lt_succ_iff_lt_or_eq.mp earlier with before | last
    · obtain ⟨cardinality, solved, order⟩ | ⟨⟨cardinality, solved, order⟩, refused⟩ := accounts.entered id before
      · exact .inl ⟨cardinality, solved, order⟩
      · exact .inr ⟨⟨cardinality, solved, order⟩, refused⟩
    · obtain rfl : id = ⟨arena.allocated⟩ := congrArg PlanId.mk last
      obtain ⟨cardinality, solved, order⟩ := accounts.vacant ⟨arena.allocated⟩ (Nat.le_refl _)
      exact .inr ⟨⟨cardinality, solved, order⟩, refused⟩

theorem enter (accounts : environment.Accounts arena) (rows : ν) (solved : List Expression) (order : ProvidedOrder) :
    environment.Accounts (arena.enter rows solved order) := by
  have next := accounts.vacant ⟨arena.allocated⟩ (Nat.le_refl arena.allocated)
  have vacant {id : PlanId} (different : id ≠ ⟨arena.allocated⟩) (vacant : arena.Vacant id) :
      (arena.enter rows solved order).Vacant id :=
    ⟨((AttributeTable.set_unset next.cardinality .cardinality rows).2 id different).trans vacant.cardinality,
      ((AttributeTable.set_unset next.solved .solvedPredicates solved).2 id different).trans vacant.solved,
      ((AttributeTable.set_unset next.order .providedOrder order).2 id different).trans vacant.order⟩
  refine ⟨fun id later => ?_, fun id earlier => ?_⟩
  · have different : id ≠ ⟨arena.allocated⟩ := by
      rintro rfl
      exact Nat.not_succ_le_self _ later
    exact vacant different (accounts.vacant id (Nat.le_of_succ_le later))
  · by_cases last : id = ⟨arena.allocated⟩
    · subst last
      exact .inl ⟨AttributeTable.count_cons_self next.cardinality rows, AttributeTable.count_cons_self next.solved solved,
        AttributeTable.count_cons_self next.order order⟩
    · have before : id.number < arena.allocated :=
        (Nat.lt_succ_iff_lt_or_eq.mp earlier).resolve_right fun same => last (congrArg PlanId.mk same)
      rcases accounts.entered id before with entered | ⟨empty, refused⟩
      · exact .inl ⟨(AttributeTable.count_cons_of_ne last rows).trans entered.cardinality,
          (AttributeTable.count_cons_of_ne last solved).trans entered.solved,
          (AttributeTable.count_cons_of_ne last order).trans entered.order⟩
      · exact .inr ⟨vacant last empty, refused⟩

end Environment.Accounts

/-! Finishing an operator. -/

namespace Planning

variable {β γ : Type} {first : Planning ν β} {next : β → Planning ν γ} {before middle : Session ν}

theorem bind_run_ok {value : β} (ran : first before = .ok value middle) : (first >>= next) before = next value middle := by
  change EStateM.bind first next before = _
  rw [EStateM.bind, ran]

theorem bind_run_error {error : PlanningError} (failed : first before = .error error middle) :
    (first >>= next) before = .error error middle := by
  change EStateM.bind first next before = _
  rw [EStateM.bind, failed]

end Planning

namespace Environment

open Planning

variable {environment : Environment ν} {operator : PlanId → Plan} {solved : List Expression} {before : Session ν}

/-- A refused operator leaves nothing but a gap in the ids. -/
theorem finish_refused {error : PlanningError}
    (estimated : environment.estimator (operator ⟨before.arena.allocated⟩) environment.statistics = .error error) :
    environment.finish operator solved before =
      .error error { before with arena := { before.arena with allocated := before.arena.allocated + 1 } } := by
  rw [finish, bind_run_ok (allocate_ok before), bind_run_error (estimate_error estimated _)]

/-- An operator that is estimated is entered under the next id. -/
theorem finish_entered (vacant : before.arena.Vacant ⟨before.arena.allocated⟩) (labelled : ∀ id, (operator id).id = id)
    {estimate : Estimate ν}
    (estimated : environment.estimator (operator ⟨before.arena.allocated⟩) environment.statistics = .ok estimate) :
    environment.finish operator solved before = .ok (operator ⟨before.arena.allocated⟩)
      { before with
        arena := before.arena.enter estimate.rows solved ((operator ⟨before.arena.allocated⟩).orderFrom before.arena.orderOf) } := by
  obtain ⟨rows, -⟩ := AttributeTable.set_unset vacant.cardinality .cardinality estimate.rows
  obtain ⟨predicates, -⟩ := AttributeTable.set_unset vacant.solved .solvedPredicates solved
  obtain ⟨order, -⟩ := AttributeTable.set_unset vacant.order .providedOrder
    ((operator ⟨before.arena.allocated⟩).orderFrom before.arena.orderOf)
  refine Eq.trans (bind_run_ok (allocate_ok before)) (Eq.trans (bind_run_ok (estimate_ok estimated _)) ?_)
  refine Eq.trans (bind_run_ok (get_ok _)) ?_
  rw [labelled]
  exact Eq.trans (bind_run_ok (setCardinality_ok rows)) (Eq.trans (bind_run_ok (setSolved_ok predicates)) (bind_run_ok (setOrder_ok order)))

end Environment

namespace Planning

variable {β γ : Type} {environment : Environment ν}

/-- Tables that account for the ids do so after a run as well, as long as it can go on. -/
def Accounted (environment : Environment ν) : EStateM.Result PlanningError (Session ν) β → Prop
  | .ok _ after => environment.Accounts after.arena
  | .error error after => error.isCandidateLocal = true → environment.Accounts after.arena

def Keeps (environment : Environment ν) (action : Planning ν β) : Prop :=
  ∀ before : Session ν, environment.Accounts before.arena → Accounted environment (action before)

theorem keeps_bind {first : Planning ν β} {next : β → Planning ν γ} (keeps : Keeps environment first)
    (further : ∀ value, Keeps environment (next value)) : Keeps environment (first >>= next) := by
  intro before accounts
  have outcome := keeps before accounts
  change Accounted environment (EStateM.bind first next before)
  unfold EStateM.bind
  cases ran : first before with
  | ok value middle =>
    rw [ran] at outcome
    exact further value middle outcome
  | error error middle =>
    rw [ran] at outcome
    exact outcome

theorem keeps_attempt {action : Planning ν β} (keeps : Keeps environment action) : Keeps environment (attempt action) := by
  intro before accounts
  have outcome := keeps before accounts
  rw [attempt_apply]
  cases ran : action before with
  | ok value after =>
    rw [ran] at outcome
    exact outcome
  | error error after =>
    rw [ran] at outcome
    simp only
    split
    next passed => exact outcome passed
    next => exact outcome

theorem keeps_finish (operator : PlanId → Plan) (solved : List Expression) (labelled : ∀ id, (operator id).id = id) :
    Keeps environment (environment.finish operator solved) := by
  intro before accounts
  have vacant := accounts.vacant ⟨before.arena.allocated⟩ (Nat.le_refl _)
  cases estimated : environment.estimator (operator ⟨before.arena.allocated⟩) environment.statistics with
  | error error =>
    rw [Environment.finish_refused estimated]
    exact fun passed => accounts.refuse ⟨_, error, labelled _, estimated, passed⟩
  | ok estimate =>
    rw [Environment.finish_entered vacant labelled estimated]
    exact accounts.enter _ _ _

/-- Whatever a planner does with its few actions, the tables account for the ids. -/
theorem Mirrors.keeps {stop : Prop} {action other : Planning ν β} (mirrors : Mirrors environment stop action other) :
    Keeps environment action := by
  induction mirrors with
  | pure value => exact fun _ accounts => accounts
  | throw error => exact fun _ accounts _ => accounts
  | bind _ _ former latter => exact keeps_bind former latter
  | attempt _ keeps => exact keeps_attempt keeps
  | freshName stem => exact fun _ accounts => accounts.renamed _
  | record phase description metadata => exact fun _ accounts => accounts
  | finish operator solved labelled => exact keeps_finish operator solved labelled
  | leafCandidates node predicates =>
    intro before accounts
    change Accounted environment
      (ofExcept (environment.leafPlanner (before.leafCalls + 1) node predicates environment.statistics) _)
    cases environment.leafPlanner (before.leafCalls + 1) node predicates environment.statistics with
    | ok leaves => exact accounts
    | error error => exact fun _ => accounts
  | check allowed =>
    intro before accounts
    rw [checkCancellation_apply]
    split
    · exact fun _ => accounts
    · exact accounts

end Planning

end MatchPlanner
