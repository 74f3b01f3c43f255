import MatchPlanner.Proofs.Alternatives
import MatchPlanner.Proofs.Splicing

/-! Placement inside a repetition. What is in scope only grows along the steps, so a predicate is taken out of what is pending at the first
step where it can be decided, and what is still pending at the end reads a variable that neither the repetition nor the plan below the
loop binds. -/

namespace MatchPlanner

open Planning

/-- The predicates that are ready after a step and were not before, in the order they are given in. -/
def newlyReady (before after : NameSet) (predicates : List Expression) : List Expression :=
  predicates.filter fun predicate => isReadyIn after predicate && !isReadyIn before predicate

/-- A repetition in which every predicate is filtered by right where all it reads is bound for the first time: above the argument, or
else above the step that binds the last of it, before the checks of that step. -/
inductive PlacedEarly (predicates : List Expression) (arguments : NameSet) (siblings : List RelationshipProducer) :
    List TrailStep → Plan → Prop where
  | argument {id : PlanId} {plan : Plan}
    (filtered : Filtered (.leaf id (.argument arguments.names)) (predicates.filter (isReadyIn arguments)) plan) :
    PlacedEarly predicates arguments siblings [] plan
  | step {taken : List TrailStep} {step : TrailStep} {id : PlanId} {mode : ExpansionMode} {input expanded plan : Plan}
    (below : PlacedEarly predicates arguments siblings taken input)
    (expands : expanded = .step id (.expand step.hop step.relationship mode) input)
    (filtered : Filtered expanded
      (newlyReady input.available expanded.available predicates ++ step.uniquenessChecks taken siblings) plan) :
    PlacedEarly predicates arguments siblings (taken ++ [step]) plan

section

variable {predicates : List Expression} {arguments : NameSet} {siblings : List RelationshipProducer} {taken steps : List TrailStep}
  {node start finish : String} {progress placed last : InnerProgress}

/-- A repetition up to a node, with every predicate placed that is ready there. -/
structure InnerProgress.Early (predicates : List Expression) (arguments : NameSet) (siblings : List RelationshipProducer)
    (taken : List TrailStep) (node : String) (progress : InnerProgress) : Prop where
  sound : progress.Sound arguments taken node
  placed : PlacedEarly predicates arguments siblings taken progress.plan
  pending : progress.pending = predicates.filter fun predicate => !isReadyIn progress.scope predicate

theorem InnerProgress.Sound.scope_eq (sound : progress.Sound arguments taken node) : progress.scope = progress.plan.available :=
  NameSet.ext sound.scope

theorem InnerPlaced.early {id : PlanId} {started : InnerProgress}
    (begun : InnerPlaced (.initial id arguments predicates) [] started) (given : start ∈ arguments) :
    started.Early predicates arguments siblings [] start where
  sound := InnerProgress.Sound.place (.initial given) begun fun _ impossible => absurd impossible List.not_mem_nil
  placed := .argument (by simpa [InnerProgress.initial] using begun.filtered)
  pending := by
    rw [begun.scope, begun.pending]
    rfl

/-- One step more. -/
theorem InnerProgress.Early.take {step : TrailStep} {id : PlanId}
    (early : progress.Early predicates arguments siblings taken step.hop.source)
    (expanded : InnerPlaced (progress.expand id step) (step.uniquenessChecks taken siblings) placed)
    (known : ∀ sibling ∈ siblings, sibling.name ∈ arguments) :
    placed.Early predicates arguments siblings (taken ++ [step]) step.hop.target := by
  have grown : (progress.expand id step).Sound arguments (taken ++ [step]) step.hop.target := early.sound.expand step
  have pending : (progress.expand id step).pending = predicates.filter fun predicate => !isReadyIn progress.scope predicate :=
    early.pending
  have filtered := expanded.filtered
  rw [pending, List.filter_filter, grown.scope_eq, early.sound.scope_eq] at filtered
  refine ⟨early.sound.take expanded known, .step early.placed rfl filtered, ?_⟩
  rw [expanded.pending, expanded.scope, pending]
  exact filter_unready (fun name inside => InnerProgress.mem_scope_expand.mpr (.inr (.inr inside))) _

/-- All steps. -/
theorem InnerSteps.early (stepped : InnerSteps siblings taken progress steps last) (walk : Walk start steps finish)
    (early : progress.Early predicates arguments siblings taken start) (known : ∀ sibling ∈ siblings, sibling.name ∈ arguments) :
    last.Early predicates arguments siblings (taken ++ steps) finish := by
  induction stepped generalizing start with
  | done =>
    cases walk
    rwa [List.append_nil]
  | step expanded _ further =>
    cases walk with
    | step onward => simpa using further onward (early.take expanded known)

end

/-! A planner that can always go on. -/

namespace Planning

variable {ν β γ : Type} {before : Session ν}

/-- The action returns a value and leaves the ids still to be given away vacant. -/
def Returns (before : Session ν) (action : Planning ν β) : Prop := ∃ value, Reaches before (fun after => after.arena.Tidy) action value

theorem returns_pure (tidy : before.arena.Tidy) (value : β) : Returns before (pure value) := ⟨value, reaches_pure tidy⟩

theorem Returns.bind {first : Planning ν β} {next : β → Planning ν γ} (returns : Returns before first)
    (rest : ∀ value middle, middle.arena.Tidy → Returns middle (next value)) : Returns before (first >>= next) := by
  obtain ⟨value, middle, ran, tidy⟩ := returns
  obtain ⟨result, after, finished, kept⟩ := rest value middle tidy
  exact ⟨result, after, (bind_run_ok ran).trans finished, kept⟩

end Planning

namespace Environment

variable {ν : Type} {environment : Environment ν} {before : Session ν}

section

variable (estimates : ∀ plan, ∃ estimate, environment.estimator plan environment.statistics = .ok estimate) (tidy : before.arena.Tidy)

include estimates tidy

theorem returns_finish (operator : PlanId → Plan) (labelled : ∀ id, (operator id).id = id) (solved : List Expression) :
    Returns before (environment.finish operator solved) := by
  obtain ⟨after, ran, spent⟩ := finish_reaches estimates labelled solved (tidy ⟨before.arena.allocated⟩ (Nat.le_refl _))
  refine ⟨_, after, ran, fun id later => spent.vacant id later (tidy id (Nat.le_trans ?_ later))⟩
  rw [spent.allocated]
  exact Nat.le_add_right _ _

theorem returns_filter (input : Plan) (predicates : List Expression) : Returns before (environment.filter input predicates) := by
  unfold Environment.filter
  split
  · exact returns_pure tidy input
  · exact returns_finish estimates tidy _ (fun _ => rfl) predicates

theorem returns_placeInner (progress : InnerProgress) (checks : List Expression) :
    Returns before (environment.placeInner progress checks) := by
  unfold placeInner
  exact (returns_filter estimates tidy _ _).bind fun _ _ tidy => returns_pure tidy _

omit tidy in
theorem returns_innerSteps (siblings : List RelationshipProducer) (earlier : List TrailStep) (progress : InnerProgress)
    (steps : List TrailStep) (before : Session ν) (tidy : before.arena.Tidy) :
    Returns before (environment.innerSteps siblings earlier progress steps) := by
  induction steps generalizing before earlier progress with
  | nil => exact returns_pure tidy progress
  | cons step rest further =>
    unfold innerSteps
    exact (returns_finish estimates tidy _ (fun _ => rfl) _).bind fun _ _ tidy => (returns_placeInner estimates tidy _ _).bind
      fun _ middle tidy => further _ _ middle tidy

/-- A repetition is planned to its end, where it fails if anything is still pending. -/
theorem innerPlan_ends (pattern : QuantifiedPattern) (classification : Classification) (bound : NameSet) (innerStart : String)
    (steps : List TrailStep) (siblings : List RelationshipProducer) :
    ∃ id started last after,
      InnerPlaced (.initial id (innerArguments pattern classification.innerPredicates bound innerStart siblings)
        classification.innerPredicates) [] started ∧
      InnerSteps siblings [] started steps last ∧
      environment.innerPlan pattern classification bound innerStart steps siblings before = match last.pending with
        | [] => .ok last.plan after
        | unsolved :: _ => .error (.unsolvablePredicate unsolved (missingFrom last.scope unsolved)) after := by
  obtain ⟨argument, first, argued, tidy⟩ := returns_finish estimates tidy (.leaf · (.argument
    (innerArguments pattern classification.innerPredicates bound innerStart siblings).names)) (fun _ => rfl) []
  obtain ⟨started, middle, begun, tidy⟩ := returns_placeInner estimates tidy ⟨argument,
    innerArguments pattern classification.innerPredicates bound innerStart siblings, classification.innerPredicates⟩ []
  obtain ⟨last, after, stepped, -⟩ := returns_innerSteps estimates siblings [] started steps middle tidy
  obtain ⟨id, rfl, -⟩ := (environment.yields_finish _ [] fun _ => rfl).result argued
  refine ⟨id, started, last, after, (yields_placeInner _ _).result begun, (yields_innerSteps _ _ _ _).result stepped, ?_⟩
  unfold innerPlan
  rw [bind_run_ok argued, bind_run_ok begun, bind_run_ok stepped]
  cases last.pending <;> rfl

end

end Environment

/-! Predicates that cannot be placed. -/

theorem isReadyIn_iff {scope : NameSet} {predicate : Expression} :
    isReadyIn scope predicate = true ↔ predicate.dependencies.filter (fun name => decide (name ∉ scope)) = ∅ := by
  rw [isReadyIn, NameSet.within_iff]
  constructor
  · refine fun ready => NameSet.ext fun name => iff_of_false (fun missing => ?_) (NameSet.not_mem_empty name)
    obtain ⟨reads, absent⟩ := NameSet.mem_filter.mp missing
    exact of_decide_eq_true absent (ready name reads)
  · intro empty name reads
    by_contra absent
    have missing : name ∈ predicate.dependencies.filter fun name => decide (name ∉ scope) :=
      NameSet.mem_filter.mpr ⟨reads, decide_eq_true absent⟩
    rw [empty] at missing
    exact NameSet.not_mem_empty name missing

namespace QuantifiedPattern

/-- What a predicate reads that is bound neither inside a repetition nor below the pattern. -/
def strangers (pattern : QuantifiedPattern) (bound : NameSet) (predicate : Expression) : NameSet :=
  predicate.dependencies.filter fun name => decide (name ∉ pattern.innerVariables) && decide (name ∉ bound)

/-- What has to hold inside one repetition: the selections, then what is taken over from the clause in its form for a single step. -/
def demands (pattern : QuantifiedPattern) (outer : List Expression) (bound : NameSet) : List Expression :=
  pattern.selectionAtoms ++ (pattern.classify outer bound).extracted.map ExtractedPredicate.perStep

theorem innerPredicates_eq (pattern : QuantifiedPattern) (outer : List Expression) (bound : NameSet) :
    (pattern.classify outer bound).innerPredicates = pattern.demands outer bound := by
  simp [Classification.innerPredicates, demands, classify, Function.comp_def]

variable {pattern : QuantifiedPattern} {bound : NameSet} {predicate : Expression}

theorem mem_strangers {name : String} : name ∈ pattern.strangers bound predicate ↔
    name ∈ predicate.dependencies ∧ name ∉ pattern.innerVariables ∧ name ∉ bound := by
  simp only [strangers, NameSet.mem_filter, Bool.and_eq_true, decide_eq_true_eq]

theorem strangers_eq_empty : pattern.strangers bound predicate = ∅ ↔
    ∀ name ∈ predicate.dependencies, name ∈ pattern.innerVariables ∨ name ∈ bound := by
  constructor
  · intro empty name reads
    by_contra neither
    have stranger := mem_strangers.mpr ⟨reads, not_or.mp neither⟩
    rw [empty] at stranger
    exact NameSet.not_mem_empty _ stranger
  · intro known
    refine NameSet.ext fun name => iff_of_false (fun stranger => ?_) (NameSet.not_mem_empty name)
    obtain ⟨reads, outside⟩ := mem_strangers.mp stranger
    exact not_or.mpr outside (known name reads)

end QuantifiedPattern

namespace Environment

variable {ν : Type} {environment : Environment ν}

/-- The plan of one repetition of a pattern, run in a direction. -/
def repetition (environment : Environment ν) (pattern : QuantifiedPattern) (outer : List Expression) (bound : NameSet)
    (siblings : List RelationshipProducer) (direction : TraversalDirection) : Planning ν Plan :=
  environment.innerPlan pattern (pattern.classify outer bound) bound (pattern.near direction).inner (pattern.steps direction) siblings

section

variable {pattern : QuantifiedPattern} {direction : TraversalDirection} {bound : NameSet} {siblings : List RelationshipProducer}
  {pending : List Expression} {id : PlanId} {started last : InnerProgress}

/-- At the end of a repetition a predicate lacks exactly its strangers. -/
theorem missingFrom_end (formed : pattern.WellFormed) (known : ∀ sibling ∈ siblings, sibling.name ∈ bound)
    (begun : InnerPlaced (.initial id (innerArguments pattern pending bound (pattern.near direction).inner siblings) pending) [] started)
    (stepped : InnerSteps siblings [] started (pattern.steps direction) last) {predicate : Expression} (member : predicate ∈ pending) :
    predicate.dependencies.filter (fun name => decide (name ∉ last.scope)) = pattern.strangers bound predicate := by
  refine NameSet.ext fun name => ?_
  rw [NameSet.mem_filter, decide_eq_true_eq, QuantifiedPattern.mem_strangers, stepped.mem_scope_end formed begun, not_or,
    mem_innerArguments]
  refine and_congr_right fun reads => ⟨fun ⟨given, inner⟩ => ⟨inner, fun below => given ?_⟩, fun ⟨inner, free⟩ => ⟨?_, inner⟩⟩
  · exact .inr (.inl ⟨Expression.mem_dependenciesOf.mpr ⟨predicate, member, reads⟩, inner, below⟩)
  · rintro (rfl | ⟨-, -, below⟩ | ⟨sibling, beside, rfl⟩)
    exacts [inner (formed.near_inner direction), free below, free (known sibling beside)]

/-- What is pending at the end of a repetition are the selections with strangers. -/
theorem pending_end (formed : pattern.WellFormed) (known : ∀ sibling ∈ siblings, sibling.name ∈ bound) {outer : List Expression}
    (begun : InnerPlaced (.initial id (innerArguments pattern (pattern.classify outer bound).innerPredicates bound
      (pattern.near direction).inner siblings) (pattern.classify outer bound).innerPredicates) [] started)
    (stepped : InnerSteps siblings [] started (pattern.steps direction) last) :
    last.pending = pattern.selectionAtoms.filter fun atom => decide (pattern.strangers bound atom ≠ ∅) := by
  have left : last.pending = (pattern.classify outer bound).innerPredicates.filter fun predicate =>
      decide (pattern.strangers bound predicate ≠ ∅) := by
    rw [stepped.left begun]
    refine List.filter_congr fun predicate member => ?_
    rw [← missingFrom_end formed known begun stepped member, Bool.eq_iff_iff, decide_eq_true_iff, Bool.not_eq_true', ne_eq,
      ← isReadyIn_iff, Bool.not_eq_true]
  have perStep : ((pattern.classify outer bound).extracted.map ExtractedPredicate.perStep).filter
      (fun predicate => decide (pattern.strangers bound predicate ≠ ∅)) = [] := by
    refine List.filter_eq_nil_iff.mpr fun predicate member => ?_
    obtain ⟨extracted, among, rfl⟩ := List.mem_map.mp member
    simpa using QuantifiedPattern.strangers_eq_empty.mpr (formed.perStep_reads among)
  rw [left, pattern.innerPredicates_eq, QuantifiedPattern.demands, List.filter_append, perStep, List.append_nil]

/-- Placement inside a repetition is complete, as early as can be and in order. It succeeds if and only if every selection reads inner
variables and what is bound below the pattern only; otherwise the first selection with a stranger is reported, with its strangers. -/
theorem repetition_places {draft : QuantifiedDraft} (built : draft.build = .ok pattern)
    (estimates : ∀ plan, ∃ estimate, environment.estimator plan environment.statistics = .ok estimate) (outer : List Expression)
    (known : ∀ sibling ∈ siblings, sibling.name ∈ bound) (direction : TraversalDirection) {before : Session ν}
    (tidy : before.arena.Tidy) :
    ((∃ plan after, environment.repetition pattern outer bound siblings direction before = .ok plan after) ↔
      ∀ atom ∈ pattern.selectionAtoms, ∀ name ∈ atom.dependencies, name ∈ pattern.innerVariables ∨ name ∈ bound) ∧
    (∀ plan after, environment.repetition pattern outer bound siblings direction before = .ok plan after →
      plan.filterPredicates.Perm
        (pattern.demands outer bound ++ TrailStep.generated siblings [] (pattern.steps direction)) ∧
      PlacedEarly (pattern.demands outer bound)
        (innerArguments pattern (pattern.demands outer bound) bound (pattern.near direction).inner siblings) siblings
        (pattern.steps direction) plan) ∧
    ∀ error after, environment.repetition pattern outer bound siblings direction before = .error error after →
      ∃ atom, pattern.selectionAtoms.find? (fun atom => decide (pattern.strangers bound atom ≠ ∅)) = some atom ∧
        error = .unsolvablePredicate atom (pattern.strangers bound atom).names := by
  have formed := QuantifiedDraft.build_ok built
  obtain ⟨id, started, last, after, begun, stepped, ends⟩ := innerPlan_ends estimates tidy pattern (pattern.classify outer bound) bound
    (pattern.near direction).inner (pattern.steps direction) siblings
  have pending := pending_end formed known begun stepped
  change environment.repetition pattern outer bound siblings direction before = _ at ends
  rw [ends]
  cases remains : last.pending with
  | nil =>
    rw [remains, eq_comm, List.filter_eq_nil_iff] at pending
    have placed : InnerBuilt _ _ _ _ last.plan := .built begun stepped remains
    have given : (pattern.near direction).inner ∈ innerArguments pattern (pattern.classify outer bound).innerPredicates bound
        (pattern.near direction).inner siblings := mem_innerArguments.mpr (.inl rfl)
    have early := stepped.early (formed.walk direction) (begun.early given) fun sibling member =>
      mem_innerArguments.mpr (.inr (.inr ⟨sibling, member, rfl⟩))
    rw [← pattern.innerPredicates_eq]
    refine ⟨iff_of_true ⟨_, _, rfl⟩ fun atom member => ?_, ?_, ?_⟩
    · exact QuantifiedPattern.strangers_eq_empty.mp (by simpa using pending atom member)
    · rintro plan _ ⟨⟩
      exact ⟨placed.filterPredicates, early.placed⟩
    · rintro error _ ⟨⟩
  | cons unsolved others =>
    have first : pattern.selectionAtoms.find? (fun atom => decide (pattern.strangers bound atom ≠ ∅)) = some unsolved := by
      rw [← List.head?_filter, ← pending, remains]
      rfl
    have member : unsolved ∈ (pattern.classify outer bound).innerPredicates := by
      rw [pattern.innerPredicates_eq]
      exact List.mem_append_left _ (List.mem_of_find?_eq_some first)
    refine ⟨iff_of_false ?_ fun all => ?_, ?_, ?_⟩
    · rintro ⟨plan, _, ⟨⟩⟩
    · have strange : pattern.strangers bound unsolved ≠ ∅ := by simpa using List.find?_some first
      exact strange (QuantifiedPattern.strangers_eq_empty.mpr (all unsolved (List.mem_of_find?_eq_some first)))
    · rintro plan _ ⟨⟩
    · rintro error _ ⟨⟩
      refine ⟨unsolved, first, ?_⟩
      rw [missingFrom, missingFrom_end formed known begun stepped member]

end

end Environment

/-! A repetition with a predicate for each of its nodes. -/

def RelationshipProducer.beside : RelationshipProducer := ⟨0, "q", .single, none⟩

namespace QuantifiedDraft

def selective : QuantifiedDraft where
  left := ⟨"a", "n"⟩
  right := ⟨"b", "o"⟩
  relationships := [⟨"r", "n", "m", .outgoing, ["R"], .simple⟩, ⟨"s", "m", "o", .incoming, ["S"], .simple⟩]
  repetition := .oneOrMore
  nodeGroupings := []
  relationshipGroupings := [⟨"r", "g"⟩, ⟨"s", "s"⟩]
  selections := [.equals (.property "o" "x") (.reference "z"), .equals (.property "n" "x") (.literal (.integer 1))]
  groupByName := false

/-- A predicate of the clause that holds for every member of a group. -/
def throughout : Expression := .every "y" (.reference "g") (.equals (.property "y" "p") (.reference "z"))

/-- Whether the predicates are placed depends on the one variable that they read from outside. -/
theorem selective_placed :
    (∃ plan after, Environment.counting.repetition selective.pattern [throughout] (.ofList ["a", "q", "z"]) [.beside] .forward
      (.initial false) = .ok plan after ∧ PlacedEarly (selective.pattern.demands [throughout] (.ofList ["a", "q", "z"]))
        (.ofList ["n", "q", "z"]) [.beside] (selective.pattern.steps .forward) plan) ∧
    ∃ after, Environment.counting.repetition selective.pattern [throughout] (.ofList ["a", "q"]) [.beside] .forward (.initial false) =
      .error (.unsolvablePredicate (.equals (.property "o" "x") (.reference "z")) ["z"]) after := by
  have estimates (plan : Plan) : ∃ estimate, Environment.counting.estimator plan Environment.counting.statistics = .ok estimate :=
    ⟨_, rfl⟩
  have built : selective.build = .ok selective.pattern := rfl
  have tidy : (Session.initial false : Session Nat).arena.Tidy := fun _ _ => ⟨rfl, rfl, rfl⟩
  constructor
  · obtain ⟨succeeds, places, -⟩ := Environment.repetition_places built estimates [throughout]
      (show ∀ sibling ∈ [RelationshipProducer.beside], sibling.name ∈ NameSet.ofList ["a", "q", "z"] by decide +kernel) .forward tidy
    obtain ⟨plan, after, ran⟩ := succeeds.mpr (by decide +kernel)
    exact ⟨plan, after, ran, (places plan after ran).2⟩
  · obtain ⟨succeeds, -, fails⟩ := Environment.repetition_places built estimates [throughout]
      (show ∀ sibling ∈ [RelationshipProducer.beside], sibling.name ∈ NameSet.ofList ["a", "q"] by decide +kernel) .forward tidy
    cases ran : Environment.counting.repetition selective.pattern [throughout] (.ofList ["a", "q"]) [.beside] .forward (.initial false) with
    | ok plan after => exact absurd (succeeds.mp ⟨plan, after, ran⟩) (by decide +kernel)
    | error error after =>
      obtain ⟨atom, ⟨⟩, rfl⟩ := fails error after ran
      exact ⟨after, rfl⟩

/-- A repetition is refused, although all its predicates can be placed, when the id of its argument has been written to before it was
given away. -/
theorem selective_refused :
    (∀ plan, ∃ estimate, Environment.counting.estimator plan Environment.counting.statistics = .ok estimate) ∧
    selective.build = .ok selective.pattern ∧
    (∀ atom ∈ selective.pattern.selectionAtoms, ∀ name ∈ atom.dependencies,
      name ∈ selective.pattern.innerVariables ∨ name ∈ NameSet.ofList ["a", "z"]) ∧
    ∃ after, Environment.counting.repetition selective.pattern [] (.ofList ["a", "z"]) [] .forward
      ⟨⟨1, 0, ⟨[(⟨1⟩, 5)]⟩, .empty, .empty⟩, [], 0, false⟩ = .error (.attributeAlreadySet .cardinality ⟨1⟩) after :=
  ⟨fun plan => ⟨_, rfl⟩, rfl, by decide +kernel, _, rfl⟩

end QuantifiedDraft

end MatchPlanner
