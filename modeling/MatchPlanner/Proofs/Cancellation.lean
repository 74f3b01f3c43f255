import MatchPlanner.Proofs.Connectivity
import MatchPlanner.Proofs.Threading
import MatchPlanner.Proofs.Undisturbed

/-! Cancellation. A request is made while the leaf planner is called and found at the next look at it. A run is looked at here with a note
of every component, every growth step and every further leg that begins, and the notes make no difference to it. Each note says how many
calls were made before, so it can be told which parts of a run began after the call during which it was cancelled. -/

namespace MatchPlanner

variable {ν : Type}

/-- Requests are counted as calls of the leaf planner go on, and none of them is forgotten. -/
structure Session.Hears (environment : Environment ν) (before after : Session ν) : Prop where
  calls : before.leafCalls ≤ after.leafCalls
  lasting : before.cancelled = true → after.cancelled = true
  requests : ∀ call, before.leafCalls < call → call ≤ after.leafCalls → environment.cancelsDuring call = true →
    after.cancelled = true

namespace Session.Hears

variable {environment : Environment ν} {first second third : Session ν}

/-- No call is made and no request is withdrawn. -/
theorem of_same (calls : second.leafCalls = first.leafCalls) (cancelled : second.cancelled = first.cancelled) :
    first.Hears environment second where
  calls := Nat.le_of_eq calls.symm
  lasting requested := cancelled.trans requested
  requests call later made := by omega

theorem trans (former : first.Hears environment second) (latter : second.Hears environment third) : first.Hears environment third where
  calls := Nat.le_trans former.calls latter.calls
  lasting requested := latter.lasting (former.lasting requested)
  requests call later made requested := by
    by_cases early : call ≤ second.leafCalls
    · exact latter.lasting (former.requests call later early requested)
    · exact latter.requests call (Nat.lt_of_not_le early) made requested

end Session.Hears

namespace Planning

variable {β γ : Type} {environment : Environment ν} {stop : Prop}

/-- The session in which a run ends, whether or not it returns a value. -/
def last : EStateM.Result PlanningError (Session ν) β → Session ν
  | .ok _ after => after
  | .error _ after => after

theorem last_bind (first : Planning ν β) (next : β → Planning ν γ) (before : Session ν) :
    last ((first >>= next) before) = match first before with
      | .ok value after => last (next value after)
      | .error _ after => after := by
  change last (EStateM.bind first next before) = _
  unfold EStateM.bind
  cases first before <;> rfl

/-- However the action ends, the session heeds what was requested on the way. -/
def Heeds (environment : Environment ν) (action : Planning ν β) : Prop :=
  ∀ before : Session ν, before.Hears environment (last (action before))

theorem heeds_pure (value : β) : Heeds environment (pure value) := fun _ => .of_same rfl rfl

theorem heeds_throw (error : PlanningError) : Heeds environment (throw error : Planning ν β) := fun _ => .of_same rfl rfl

theorem Heeds.bind {first : Planning ν β} {next : β → Planning ν γ} (heeds : Heeds environment first)
    (rest : ∀ value, Heeds environment (next value)) : Heeds environment (first >>= next) := by
  intro before
  have begun := heeds before
  rw [last_bind]
  cases ran : first before with
  | ok value middle =>
    rw [ran] at begun
    exact begun.trans (rest value middle)
  | error error middle =>
    rw [ran] at begun
    exact begun

theorem heeds_ofExcept (value : Except PlanningError β) : Heeds environment (ofExcept value) := by
  cases value with
  | ok result => exact heeds_pure result
  | error error => exact heeds_throw error

theorem Heeds.attempt {action : Planning ν β} (heeds : Heeds environment action) : Heeds environment (attempt action) := by
  intro before
  have tried := heeds before
  rw [attempt_apply]
  cases ran : action before with
  | ok value after =>
    rw [ran] at tried
    exact tried
  | error error after =>
    rw [ran] at tried
    simp only
    split <;> exact tried

theorem heeds_check : Heeds environment checkCancellation := by
  intro before
  rw [checkCancellation_apply]
  split <;> exact .of_same rfl rfl

theorem heeds_finish (operator : PlanId → Plan) (solved : List Expression) : Heeds environment (environment.finish operator solved) := by
  have writes {α : Type} (before : Session ν) (table : Except PlanningError α) (update : α → Arena ν) : before.Hears environment
      (last ((do set { before with arena := update (← ofExcept table) } : Planning ν PUnit) before)) := by
    cases table with
    | error error => exact .of_same rfl rfl
    | ok table => exact .of_same rfl rfl
  have rows (id : PlanId) (rows : ν) : Heeds environment (setCardinality id rows) := fun before =>
    writes before (before.arena.cardinalities.set .cardinality id rows) ({ before.arena with cardinalities := · })
  have predicates (id : PlanId) : Heeds environment (setSolved id solved) := fun before =>
    writes before (before.arena.solvedPredicates.set .solvedPredicates id solved) ({ before.arena with solvedPredicates := · })
  have orders (id : PlanId) (order : ProvidedOrder) : Heeds environment (setOrder id order) := fun before =>
    writes before (before.arena.providedOrders.set .providedOrder id order) ({ before.arena with providedOrders := · })
  have allocates : Heeds environment allocate := fun _ => .of_same rfl rfl
  have reads : Heeds environment get := fun _ => .of_same rfl rfl
  exact allocates.bind fun _ => (heeds_ofExcept _).bind fun _ => reads.bind fun _ => (rows _ _).bind fun _ =>
    (predicates _).bind fun _ => (orders _ _).bind fun _ => heeds_pure _

theorem heeds_leafCandidates (node : String) (predicates : List Expression) :
    Heeds environment (environment.leafCandidates node predicates) := by
  intro before
  have made : before.Hears environment { before with
      leafCalls := before.leafCalls + 1, cancelled := before.cancelled || environment.cancelsDuring (before.leafCalls + 1) } :=
    { calls := Nat.le_succ _
      lasting := fun requested => by rw [requested]; rfl
      requests := fun call later made requested => by
        obtain rfl : call = before.leafCalls + 1 := by
          change call ≤ before.leafCalls + 1 at made
          omega
        exact Bool.or_eq_true_iff.mpr (.inr requested) }
  exact made.trans (heeds_ofExcept (environment.leafPlanner (before.leafCalls + 1) node predicates environment.statistics) _)

theorem Mirrors.heeds {action other : Planning ν β} (mirrors : Mirrors environment stop action other) : Heeds environment action := by
  induction mirrors with
  | pure value => exact heeds_pure value
  | throw error => exact heeds_throw error
  | bind _ _ former latter => exact former.bind latter
  | attempt _ heeds => exact heeds.attempt
  | freshName stem => exact fun _ => .of_same rfl rfl
  | record phase description metadata => exact fun _ => .of_same rfl rfl
  | finish operator solved => exact heeds_finish operator solved
  | leafCandidates node predicates => exact heeds_leafCandidates node predicates
  | check => exact heeds_check

end Planning

/-! What a run begins. -/

/-- The parts of a run that a request for cancellation keeps from beginning. -/
inductive Move where
  | component
  | growth
  | join
deriving DecidableEq

/-- A part of a run, with the number of calls of the leaf planner made before it began. -/
structure Note where
  move : Move
  calls : Nat

structure Observation (ν : Type) where
  session : Session ν
  notes : List Note

/-- Planning with a note of every part that begins. -/
abbrev Observed (ν : Type) := EStateM PlanningError (Observation ν)

namespace Observed

variable {β : Type}

def observe (action : Planning ν β) : Observed ν β := fun before =>
  match action before.session with
  | .ok value after => .ok value { before with session := after }
  | .error error after => .error error { before with session := after }

def note (move : Move) : Observed ν Unit :=
  modify fun before => { before with notes := before.notes ++ [⟨move, before.session.leafCalls⟩] }

end Observed

namespace Environment

variable (environment : Environment ν)

open Observed

def notedLegs (root : Plan) (ledger : Ledger) : List (Candidate ν) → Observed ν (Plan × Ledger)
  | [] => return (root, ledger)
  | leg :: rest => do
    observe Planning.checkCancellation
    note .join
    let (combined, remaining) ← observe (environment.product root leg.plan ledger)
    observe (Planning.record .composition "Cartesian product of components" ⟨some combined.kind, [], none, none⟩)
    notedLegs combined remaining rest

variable [Quantity ν]

def notedGrow (graph : MatchGraph) (component : Component) : (rounds : Nat) → (steps : Nat) → (current : Candidate ν) →
    (remaining : List (Nat × Connection)) → Observed ν (Candidate ν × Nat)
  | 0, steps, current, _ => return (current, steps)
  | rounds + 1, steps, current, remaining => do
    if remaining.isEmpty then return (current, steps)
    if (steps + 1) % environment.config.checkInterval = 0 then observe Planning.checkCancellation
    note .growth
    let search ← observe (environment.cheapestGrowth graph current.plan current.remaining .none remaining)
    match search.best, search.failure with
    | some (index, connection, chosen), _ =>
      observe (Planning.record (growthPhase connection) chosen.description (.ofCandidate chosen))
      notedGrow graph component rounds (steps + 1) chosen (remaining.filter fun other => other.1 != index)
    | none, some error => throw error
    | none, none => throw (.internal (.detachedConnections component.nodes))

def notedComponent (graph : MatchGraph) (component : Component) (steps : Nat) (ledger : Ledger) :
    Observed ν (Candidate ν × Nat) := do
  let start ← observe (environment.chooseStart graph component ledger)
  observe (Planning.record .startSelection start.description (.ofCandidate start))
  let connections := connectionsAt graph component.connections
  let remaining := connections.filter fun other => some other.1 != start.connection
  environment.notedGrow graph component connections.length steps start remaining

def notedComponents (graph : MatchGraph) (steps : Nat) (ledger : Ledger) : List Component →
    Observed ν (List (Candidate ν) × Ledger)
  | [] => return ([], ledger)
  | component :: rest => do
    observe Planning.checkCancellation
    note .component
    let (planned, steps) ← environment.notedComponent graph component steps ledger
    let (others, remaining) ← notedComponents graph steps planned.remaining rest
    return (planned :: others, remaining)

def notedCombination (graph : MatchGraph) (planned : List (Candidate ν)) (ledger : Ledger) : Observed ν (Plan × Ledger) := do
  match planned.mergeSort fun first second => Quantity.sortsBefore first.estimate.cost second.estimate.cost with
  | [] =>
    if graph.arguments = ∅ then throw (.malformedPattern .noNodes)
    let start ← observe (environment.argumentStart graph ledger)
    return (start.plan, start.remaining)
  | first :: legs =>
    if graph.arguments.within first.plan.available then environment.notedLegs first.plan ledger legs
    else
      let argument ← observe (environment.argumentPlan graph)
      let (root, remaining) ← observe (environment.product argument first.plan ledger)
      environment.notedLegs root remaining legs

def notedComposition (graph : MatchGraph) : Observed ν Plan := do
  let components := graph.components
  observe (Planning.record .componentDiscovery (toString components.length ++ " components") .empty)
  let (planned, ledger) ← environment.notedComponents graph 0 (.ofGraph graph) components
  match ← environment.notedCombination graph planned ledger with
  | (root, []) => return root
  | (root, entry :: _) => throw (.unsolvablePredicate entry.predicate (missingFrom root.available entry.predicate))

/-- Planning a graph, with a note of every component, every growth step and every further leg that is begun. -/
def notedPlan (graph : MatchGraph) : Observed ν (PlannedQuery ν) := do
  observe (modify fun session => { session with arena := .empty, trace := [] })
  observe (Planning.ofExcept environment.config.validate)
  observe (Planning.ofExcept graph.validate)
  let root ← environment.notedComposition graph
  let estimate ← observe (environment.estimate root)
  observe (Planning.record .composition "final plan" ⟨some root.kind, [], some estimate.rows, some estimate.cost⟩)
  observe (planned root)

end Environment

/-! Notes make no difference. -/

namespace Observed

variable {β γ : Type}

/-- The outcome of a run without its notes. -/
def unnoted : EStateM.Result PlanningError (Observation ν) β → EStateM.Result PlanningError (Session ν) β
  | .ok value after => .ok value after.session
  | .error error after => .error error after.session

/-- The observed run is the other one with notes. -/
def Annotates (noted : Observed ν β) (action : Planning ν β) : Prop := ∀ before, unnoted (noted before) = action before.session

theorem annotates_observe (action : Planning ν β) : Annotates (observe action) action := by
  intro before
  unfold observe
  cases action before.session <;> rfl

theorem annotates_pure (value : β) : Annotates (ν := ν) (pure value) (pure value) := fun _ => rfl

theorem annotates_throw (error : PlanningError) : Annotates (ν := ν) (β := β) (throw error) (throw error) := fun _ => rfl

theorem Annotates.bind {noted : Observed ν β} {action : Planning ν β} {more : β → Observed ν γ} {next : β → Planning ν γ}
    (annotates : Annotates noted action) (rest : ∀ value, Annotates (more value) (next value)) :
    Annotates (noted >>= more) (action >>= next) := by
  intro before
  have same := annotates before
  change unnoted (EStateM.bind noted more before) = EStateM.bind action next before.session
  unfold EStateM.bind
  rw [← same]
  cases noted before with
  | ok value after => exact rest value after
  | error error after => rfl

theorem Annotates.note {noted : Observed ν β} {action : Planning ν β} (annotates : Annotates noted action) (move : Move) :
    Annotates (do note move; noted) action := fun before =>
  annotates { before with notes := before.notes ++ [⟨move, before.session.leafCalls⟩] }

theorem Annotates.ite {condition : Prop} [Decidable condition] {first second : Observed ν β} {former latter : Planning ν β}
    (holds : Annotates first former) (fails : Annotates second latter) :
    Annotates (if condition then first else second) (if condition then former else latter) := by
  split
  · exact holds
  · exact fails

end Observed

namespace Environment

open Observed

variable {environment : Environment ν}

theorem annotates_legs (root : Plan) (ledger : Ledger) (legs : List (Candidate ν)) :
    Annotates (environment.notedLegs root ledger legs) (environment.combineLegs root ledger legs) := by
  induction legs generalizing root ledger with
  | nil => exact annotates_pure (root, ledger)
  | cons leg rest further =>
    exact (annotates_observe _).bind fun _ => ((annotates_observe _).bind fun _ => (annotates_observe _).bind fun _ =>
      further _ _).note _

variable [Quantity ν]

theorem annotates_grow (graph : MatchGraph) (component : Component) (rounds steps : Nat) (current : Candidate ν)
    (remaining : List (Nat × Connection)) :
    Annotates (environment.notedGrow graph component rounds steps current remaining)
      (environment.grow graph component rounds steps current remaining) := by
  induction rounds generalizing steps current remaining with
  | zero => exact annotates_pure (current, steps)
  | succ rounds further =>
    unfold notedGrow grow
    refine .ite (annotates_pure _) (.ite ((annotates_observe _).bind fun _ => Annotates.note ?_ _) (Annotates.note ?_ _)) <;>
    · refine (annotates_observe _).bind fun search => ?_
      obtain ⟨best, failure⟩ := search
      cases best with
      | some found => exact (annotates_observe _).bind fun _ => further _ _ _
      | none => cases failure <;> exact annotates_throw _

theorem annotates_component (graph : MatchGraph) (component : Component) (steps : Nat) (ledger : Ledger) :
    Annotates (environment.notedComponent graph component steps ledger) (environment.planComponent graph component steps ledger) :=
  (annotates_observe _).bind fun _ => (annotates_observe _).bind fun _ => annotates_grow _ _ _ _ _ _

theorem annotates_components (graph : MatchGraph) (steps : Nat) (ledger : Ledger) (components : List Component) :
    Annotates (environment.notedComponents graph steps ledger components)
      (environment.planComponents graph steps ledger components) := by
  induction components generalizing steps ledger with
  | nil => exact annotates_pure ([], ledger)
  | cons component rest further =>
    exact (annotates_observe _).bind fun _ => ((annotates_component _ _ _ _).bind fun _ => (further _ _).bind fun _ =>
      annotates_pure _).note _

theorem annotates_combination (graph : MatchGraph) (planned : List (Candidate ν)) (ledger : Ledger) :
    Annotates (environment.notedCombination graph planned ledger) (environment.combine graph planned ledger) := by
  unfold notedCombination combine
  cases planned.mergeSort fun first second => Quantity.sortsBefore first.estimate.cost second.estimate.cost with
  | nil => exact .ite (annotates_throw _) ((annotates_observe _).bind fun _ => annotates_pure _)
  | cons first legs =>
    exact .ite (annotates_legs _ _ _)
      ((annotates_observe _).bind fun _ => (annotates_observe _).bind fun _ => annotates_legs _ _ _)

theorem annotates_composition (graph : MatchGraph) :
    Annotates (environment.notedComposition graph) (environment.compose graph) := by
  refine (annotates_observe _).bind fun _ => (annotates_components _ _ _ _).bind fun _ =>
    (annotates_combination _ _ _).bind fun ⟨root, remaining⟩ => ?_
  cases remaining with
  | nil => exact annotates_pure root
  | cons entry others => exact annotates_throw _

/-- Planning with notes is planning. -/
theorem annotates_plan (graph : MatchGraph) : Annotates (environment.notedPlan graph) (environment.plan graph) := by
  unfold plan planRoot
  simp only [bind_assoc, pure_bind]
  exact (annotates_observe _).bind fun _ => (annotates_observe _).bind fun _ => (annotates_observe _).bind fun _ =>
    (annotates_composition graph).bind fun _ => (annotates_observe _).bind fun _ => (annotates_observe _).bind fun _ =>
    annotates_observe _

end Environment

/-! What begins after a request. -/

/-- The growth steps that began after a call. -/
def lateSteps (call : Nat) (notes : List Note) : List Note :=
  notes.filter fun note => note.move == .growth && decide (call ≤ note.calls)

/-- During a call the run was or will be asked to stop. If it was, it knows; no component and no leg began since, and at most so many
growth steps. -/
structure Observation.Quiet (call steps : Nat) (observation : Observation ν) : Prop where
  heard : call ≤ observation.session.leafCalls → observation.session.cancelled = true
  past : ∀ note ∈ observation.notes, note.calls ≤ observation.session.leafCalls
  others : ∀ note ∈ observation.notes, note.move ≠ .growth → note.calls < call
  growth : (lateSteps call observation.notes).length ≤ steps

namespace Observation.Quiet

variable {environment : Environment ν} {call steps more : Nat} {observation : Observation ν}

theorem mono (quiet : observation.Quiet call steps) (least : steps ≤ more) : observation.Quiet call more :=
  { quiet with growth := Nat.le_trans quiet.growth least }

theorem hears (quiet : observation.Quiet call steps) (asked : environment.cancelsDuring call = true) {after : Session ν}
    (hears : observation.session.Hears environment after) : Observation.Quiet call steps { observation with session := after } where
  heard made := by
    by_cases early : call ≤ observation.session.leafCalls
    · exact hears.lasting (quiet.heard early)
    · exact hears.requests call (Nat.lt_of_not_le early) made asked
  past note member := Nat.le_trans (quiet.past note member) hears.calls
  others := quiet.others
  growth := quiet.growth

/-- A growth step begins. -/
theorem grow (quiet : observation.Quiet call steps) :
    Observation.Quiet call (steps + 1) { observation with notes := observation.notes ++ [⟨.growth, observation.session.leafCalls⟩] } where
  heard := quiet.heard
  past note member := by
    rcases List.mem_append.mp member with earlier | here
    · exact quiet.past note earlier
    · exact Nat.le_of_eq (congrArg Note.calls (List.mem_singleton.mp here))
  others note member other := by
    rcases List.mem_append.mp member with earlier | here
    · exact quiet.others note earlier other
    · exact absurd (congrArg Note.move (List.mem_singleton.mp here)) other
  growth := by
    rw [lateSteps, List.filter_append, List.length_append]
    exact Nat.add_le_add quiet.growth (List.length_filter_le _ _)

/-- Where a look at the request finds none, the call is still to be made, and so nothing is late yet, whatever begins. -/
theorem begin (quiet : observation.Quiet call steps) (unasked : observation.session.cancelled = false) (move : Move) :
    Observation.Quiet call 0 { observation with notes := observation.notes ++ [⟨move, observation.session.leafCalls⟩] } := by
  have early : observation.session.leafCalls < call := by
    refine Nat.lt_of_not_le fun late => ?_
    rw [quiet.heard late] at unasked
    cases unasked
  have before : ∀ note ∈ observation.notes ++ [⟨move, observation.session.leafCalls⟩], note.calls ≤ observation.session.leafCalls := by
    intro note member
    rcases List.mem_append.mp member with earlier | here
    · exact quiet.past note earlier
    · exact Nat.le_of_eq (congrArg Note.calls (List.mem_singleton.mp here))
  refine ⟨quiet.heard, before, fun note member _ => Nat.lt_of_le_of_lt (before note member) early, ?_⟩
  refine Nat.le_of_eq (List.length_eq_zero_iff.mpr (List.filter_eq_nil_iff.mpr fun note member late => ?_))
  have made := of_decide_eq_true (Bool.and_eq_true_iff.mp late).2
  have bound := before note member
  omega

end Observation.Quiet

namespace Observed

variable {β γ : Type} {environment : Environment ν} {call limit : Nat}

/-- As many late steps as before the action may become as many as said of its value, and never more than the limit. -/
def Keeps (call limit before : Nat) (action : Observed ν β) (after : β → Nat) : Prop :=
  ∀ observation : Observation ν, observation.Quiet call before →
    match action observation with
    | .ok value last => last.Quiet call (after value)
    | .error _ last => last.Quiet call limit

theorem keeps_pure {value : β} {before : Nat} {after : β → Nat} (least : before ≤ after value) :
    Keeps (ν := ν) call limit before (pure value) after := fun _ quiet => quiet.mono least

theorem keeps_throw {error : PlanningError} {before : Nat} {after : β → Nat} (least : before ≤ limit) :
    Keeps (ν := ν) call limit before (throw error) after := fun _ quiet => quiet.mono least

theorem Keeps.bind {before : Nat} {middle : β → Nat} {after : γ → Nat} {first : Observed ν β} {next : β → Observed ν γ}
    (keeps : Keeps call limit before first middle) (rest : ∀ value, Keeps call limit (middle value) (next value) after) :
    Keeps call limit before (first >>= next) after := by
  intro observation quiet
  have begun := keeps observation quiet
  change match EStateM.bind first next observation with | .ok .. => _ | .error .. => _
  unfold EStateM.bind
  cases ran : first observation with
  | ok value state =>
    rw [ran] at begun
    exact rest value state begun
  | error error state =>
    rw [ran] at begun
    exact begun

theorem Keeps.later {before more : Nat} {after : β → Nat} {action : Observed ν β} (least : before ≤ more)
    (keeps : Keeps call limit more action after) : Keeps call limit before action after :=
  fun observation quiet => keeps observation (quiet.mono least)

theorem Keeps.ite {condition : Prop} [Decidable condition] {before : Nat} {after : β → Nat} {first second : Observed ν β}
    (holds : condition → Keeps call limit before first after) (fails : ¬ condition → Keeps call limit before second after) :
    Keeps call limit before (if condition then first else second) after := by
  split
  next met => exact holds met
  next unmet => exact fails unmet

/-- An action that begins nothing. -/
theorem keeps_heeds {action : Planning ν β} (heeds : Planning.Heeds environment action)
    (asked : environment.cancelsDuring call = true) {before : Nat} (least : before ≤ limit) :
    Keeps call limit before (observe action) fun _ => before := by
  intro observation quiet
  have kept := quiet.hears asked (heeds observation.session)
  unfold observe
  cases ran : action observation.session with
  | ok value after =>
    rw [ran] at kept
    exact kept
  | error error after =>
    rw [ran] at kept
    exact kept.mono least

theorem keeps_observe {action other : Planning ν β} (mirrors : Planning.Mirrors environment False action other)
    (asked : environment.cancelsDuring call = true) {before : Nat} (least : before ≤ limit) :
    Keeps call limit before (observe action) fun _ => before := keeps_heeds mirrors.heeds asked least

/-- What a look at the request lets begin begins in time. -/
theorem keeps_checked {move : Move} {before : Nat} {after : β → Nat} {action : Observed ν β} (least : before ≤ limit)
    (keeps : Keeps call limit 0 action after) :
    Keeps call limit before (do observe Planning.checkCancellation; note move; action) after := by
  intro observation quiet
  have begun (state : Observation ν) : (do observe Planning.checkCancellation; note move; action : Observed ν β) state =
      EStateM.bind (observe Planning.checkCancellation) (fun _ => do note move; action) state := rfl
  rw [begun, EStateM.bind, observe, Planning.checkCancellation_apply]
  cases asked : observation.session.cancelled with
  | true => exact quiet.mono least
  | false => exact keeps _ (quiet.begin asked move)

theorem keeps_growth {before : Nat} {after : β → Nat} {action : Observed ν β} (keeps : Keeps call limit (before + 1) action after) :
    Keeps call limit before (do note .growth; action) after := fun _ quiet => keeps _ quiet.grow

end Observed

namespace Environment

open Observed Planning

variable {environment : Environment ν} {call limit : Nat}

theorem keeps_legs (asked : environment.cancelsDuring call = true) (root : Plan) (ledger : Ledger) (legs : List (Candidate ν)) :
    Keeps call limit limit (environment.notedLegs root ledger legs) fun _ => limit := by
  induction legs generalizing root ledger with
  | nil => exact keeps_pure (Nat.le_refl _)
  | cons leg rest further =>
    refine keeps_checked (Nat.le_refl _) (.later (Nat.zero_le limit) ?_)
    exact (keeps_observe (mirrors_product _ _ _) asked (Nat.le_refl _)).bind fun _ =>
      (keeps_observe (Mirrors.record _ _ _) asked (Nat.le_refl _)).bind fun _ => further _ _

variable [Quantity ν]

/-- Between two looks at the request there is one step less than the interval. -/
theorem next_mod {steps interval : Nat} (positive : 0 < interval) (unchecked : ¬ (steps + 1) % interval = 0) :
    steps % interval + 1 = (steps + 1) % interval := by
  have same := Nat.mod_add_mod steps interval 1
  have next : steps % interval + 1 ≤ interval := Nat.mod_lt steps positive
  rcases Nat.lt_or_eq_of_le next with less | equal
  · rw [← same, Nat.mod_eq_of_lt less]
  · rw [equal, Nat.mod_self] at same
    exact absurd same.symm unchecked

theorem keeps_grow (asked : environment.cancelsDuring call = true) (interval : 0 < environment.config.checkInterval)
    (graph : MatchGraph) (component : Component) (rounds steps : Nat) (current : Candidate ν) (remaining : List (Nat × Connection)) :
    Keeps call (environment.config.checkInterval - 1) (steps % environment.config.checkInterval)
      (environment.notedGrow graph component rounds steps current remaining)
      fun grown => grown.2 % environment.config.checkInterval := by
  have below (count : Nat) : count % environment.config.checkInterval ≤ environment.config.checkInterval - 1 :=
    Nat.le_sub_one_of_lt (Nat.mod_lt count interval)
  induction rounds generalizing steps current remaining with
  | zero => exact keeps_pure (Nat.le_refl _)
  | succ rounds further =>
    unfold notedGrow
    refine .ite (fun _ => keeps_pure (Nat.le_refl _)) fun _ => .ite
      (fun _ => keeps_checked (below _) (.later (Nat.zero_le ((steps + 1) % environment.config.checkInterval)) ?_))
      fun unchecked => keeps_growth (.later (Nat.le_of_eq (next_mod interval unchecked)) ?_)
    all_goals
      refine (keeps_observe (mirrors_cheapestGrowth _ _ _ _ _) asked (below _)).bind fun ⟨best, failure⟩ => ?_
      cases best with
      | some found =>
        exact (keeps_observe (Mirrors.record _ _ _) asked (below _)).bind fun _ => further _ _ _
      | none => cases failure <;> exact keeps_throw (below _)

theorem keeps_component (asked : environment.cancelsDuring call = true) (interval : 0 < environment.config.checkInterval)
    (graph : MatchGraph) (component : Component) (steps : Nat) (ledger : Ledger) :
    Keeps call (environment.config.checkInterval - 1) (steps % environment.config.checkInterval)
      (environment.notedComponent graph component steps ledger) fun planned => planned.2 % environment.config.checkInterval := by
  have below := Nat.le_sub_one_of_lt (Nat.mod_lt steps interval)
  exact (keeps_observe (mirrors_chooseStart _ _ _) asked below).bind fun _ =>
    (keeps_observe (Mirrors.record _ _ _) asked below).bind fun _ => keeps_grow asked interval _ _ _ _ _ _

theorem keeps_components (asked : environment.cancelsDuring call = true) (interval : 0 < environment.config.checkInterval)
    (graph : MatchGraph) (steps : Nat) (ledger : Ledger) (components : List Component) :
    Keeps call (environment.config.checkInterval - 1) (steps % environment.config.checkInterval)
      (environment.notedComponents graph steps ledger components) fun _ => environment.config.checkInterval - 1 := by
  induction components generalizing steps ledger with
  | nil => exact keeps_pure (Nat.le_sub_one_of_lt (Nat.mod_lt steps interval))
  | cons component rest further =>
    refine keeps_checked (Nat.le_sub_one_of_lt (Nat.mod_lt steps interval))
      (.later (Nat.zero_le (steps % environment.config.checkInterval)) ?_)
    exact (keeps_component asked interval _ _ _ _).bind fun _ => (further _ _).bind fun _ => keeps_pure (Nat.le_refl _)

theorem keeps_combination (asked : environment.cancelsDuring call = true) (graph : MatchGraph) (planned : List (Candidate ν))
    (ledger : Ledger) : Keeps call limit limit (environment.notedCombination graph planned ledger) fun _ => limit := by
  have least := Nat.le_refl limit
  unfold notedCombination
  split
  · exact .ite (fun _ => keeps_throw least) fun _ =>
      (keeps_observe (mirrors_argumentStart _ _) asked least).bind fun _ => keeps_pure least
  · exact .ite (fun _ => keeps_legs asked _ _ _) fun _ =>
      (keeps_observe (mirrors_argumentPlan _) asked least).bind fun _ =>
      (keeps_observe (mirrors_product _ _ _) asked least).bind fun _ => keeps_legs asked _ _ _

theorem keeps_composition (asked : environment.cancelsDuring call = true) (interval : 0 < environment.config.checkInterval)
    (graph : MatchGraph) : Keeps call (environment.config.checkInterval - 1) 0 (environment.notedComposition graph)
      fun _ => environment.config.checkInterval - 1 := by
  have start : 0 = 0 % environment.config.checkInterval := (Nat.zero_mod _).symm
  refine (keeps_observe (Mirrors.record _ _ _) asked (Nat.zero_le _)).bind fun _ => ?_
  rw [start]
  refine (keeps_components asked interval _ _ _ _).bind fun _ => (keeps_combination asked _ _ _).bind fun ⟨root, remaining⟩ => ?_
  cases remaining with
  | nil => exact keeps_pure (Nat.le_refl _)
  | cons entry others => exact keeps_throw (Nat.le_refl _)

theorem keeps_plan (asked : environment.cancelsDuring call = true) (interval : 0 < environment.config.checkInterval)
    (graph : MatchGraph) : Keeps call (environment.config.checkInterval - 1) 0 (environment.notedPlan graph)
      fun _ => environment.config.checkInterval - 1 := by
  have none := Nat.zero_le (environment.config.checkInterval - 1)
  have least := Nat.le_refl (environment.config.checkInterval - 1)
  have resets : Heeds environment (modify fun session => { session with arena := .empty, trace := [] } : Planning ν PUnit) :=
    fun _ => .of_same rfl rfl
  have returns (root : Plan) : Heeds environment (planned root : Planning ν (PlannedQuery ν)) := fun _ => .of_same rfl rfl
  exact (keeps_heeds resets asked none).bind fun _ => (keeps_heeds (heeds_ofExcept _) asked none).bind fun _ =>
    (keeps_heeds (heeds_ofExcept _) asked none).bind fun _ => (keeps_composition asked interval graph).bind fun root =>
    (keeps_observe (mirrors_estimate root) asked least).bind fun _ => (keeps_observe (Mirrors.record _ _ _) asked least).bind fun _ =>
    keeps_heeds (returns root) asked least

/-- The notes of a run. -/
def notes (environment : Environment ν) (graph : MatchGraph) (before : Session ν) : List Note :=
  match environment.notedPlan graph ⟨before, []⟩ with
  | .ok _ after => after.notes
  | .error _ after => after.notes

theorem notes_quiet (asked : environment.cancelsDuring call = true) (interval : 0 < environment.config.checkInterval)
    (graph : MatchGraph) {before : Session ν} (later : before.leafCalls < call) :
    (∀ note ∈ environment.notes graph before, note.move ≠ .growth → note.calls < call) ∧
      (lateSteps call (environment.notes graph before)).length < environment.config.checkInterval := by
  have quiet : Observation.Quiet call 0 (⟨before, []⟩ : Observation ν) :=
    ⟨fun made => absurd later (Nat.not_lt_of_le made), fun _ impossible => absurd impossible List.not_mem_nil,
      fun _ impossible => absurd impossible List.not_mem_nil, Nat.le_refl 0⟩
  have kept := keeps_plan asked interval graph _ quiet
  unfold notes
  cases ran : environment.notedPlan graph ⟨before, []⟩ with
  | ok query after =>
    rw [ran] at kept
    exact ⟨kept.others, Nat.lt_of_le_pred interval kept.growth⟩
  | error error after =>
    rw [ran] at kept
    exact ⟨kept.others, Nat.lt_of_le_pred interval kept.growth⟩

/-- A run that is cancelled before it begins is over before the first component. -/
theorem plan_cancelled {graph : MatchGraph} (configured : environment.config.validate = .ok ()) (valid : graph.validate = .ok ())
    (nodes : graph.nodes ≠ []) {before : Session ν} (asked : before.cancelled = true) :
    ∃ after, environment.plan graph before = .error .cancelled after ∧ after.leafCalls = before.leafCalls ∧
      after.arena.allocated = 0 := by
  obtain ⟨component, others, components⟩ := List.exists_cons_of_ne_nil (MatchGraph.components_ne_nil.mpr nodes)
  obtain ⟨arena, trace, calls, cancelled⟩ := before
  cases asked
  simp only [plan, planRoot, compose, configured, valid, components, planComponents]
  exact ⟨_, rfl, rfl, rfl⟩

/-- Cancelled beforehand, planning a graph ends at once. Cancelled during any call of the leaf planner, it begins no other component, no
other leg and fewer growth steps than the interval has; and if it gets to an end all the same, the end is the one it comes to when nobody
cancels it. -/
theorem plan_stops {graph : MatchGraph} (interval : 1 ≤ environment.config.checkInterval) (valid : graph.validate = .ok ())
    (nodes : graph.nodes ≠ []) (before : Session ν) :
    (before.cancelled = true → ∃ after, environment.plan graph before = .error .cancelled after ∧
      after.leafCalls = before.leafCalls ∧ after.arena.allocated = 0) ∧
    unnoted (environment.notedPlan graph ⟨before, []⟩) = environment.plan graph before ∧
    (∀ number, 1 ≤ number → environment.cancelsDuring (before.leafCalls + number) = true →
      (∀ note ∈ environment.notes graph before, note.move ≠ .growth → note.calls < before.leafCalls + number) ∧
      (lateSteps (before.leafCalls + number) (environment.notes graph before)).length < environment.config.checkInterval) ∧
    ((∃ after, environment.plan graph before = .error .cancelled after) ∨
      environment.undisturbed.plan graph before.undisturbed = uncancelled (environment.plan graph before)) := by
  have configured : environment.config.validate = .ok () := if_neg (Nat.one_le_iff_ne_zero.mp interval)
  refine ⟨plan_cancelled configured valid nodes, annotates_plan graph ⟨before, []⟩, fun number later asked => ?_, ?_⟩
  · exact notes_quiet asked interval graph (Nat.lt_add_of_pos_right later)
  · exact (agrees_plan graph before).imp_left And.right

end Environment

/-! A planner that looks at the request at every other step and is cancelled while it plans its first leaf. -/

def Environment.lingering : Environment Nat :=
  { counting with config := { PlannerConfig.standard with checkInterval := 2 }, cancelsDuring := (· == 1) }

/-- It takes one more step. -/
theorem MatchGraph.parallel_lingers : (parallel "g").validate = .ok () ∧ (parallel "g").nodes ≠ [] ∧
    1 ≤ Environment.lingering.config.checkInterval ∧ Environment.lingering.cancelsDuring 1 = true ∧
    (lateSteps 1 (Environment.lingering.notes (parallel "g") (.initial false))).length = 1 ∧
    (lateSteps 1 (Environment.lingering.notes (parallel "g") (.initial false))).length < 2 := by
  have valid : (parallel "g").validate = .ok () := rfl
  have nodes : (parallel "g").nodes ≠ [] := List.cons_ne_nil _ _
  have interval : 1 ≤ Environment.lingering.config.checkInterval := by decide
  have first : (Session.initial false : Session Nat).leafCalls + 1 = 1 := rfl
  have stopped := (Environment.plan_stops interval valid nodes (.initial false)).2.2.1 1 (Nat.le_refl 1)
  rw [first] at stopped
  exact ⟨valid, nodes, interval, rfl, by decide +kernel, (stopped rfl).2⟩

end MatchPlanner
