import Mathlib.Data.List.Chain
import MatchPlanner.Proofs.Repetition
import MatchPlanner.Proofs.Threading

/-! A loop may be run from either boundary. Which one is chosen decides how its parameters and the steps of one repetition are read
off the pattern, each on its own; here the two readings are compared with each other and with the pattern. -/

namespace MatchPlanner

/-- The same loop, entered where the other one is left. -/
def TrailParameters.reversed (parameters : TrailParameters) : TrailParameters :=
  { parameters with
    start := parameters.finish
    finish := parameters.start
    innerStart := parameters.innerEnd
    innerEnd := parameters.innerStart
    reversedGroups := !parameters.reversedGroups }

/-- A step takes a relationship from one of its ends to the other, in the direction in which it is seen from there. -/
structure TrailStep.Takes (step : TrailStep) (relationship : PatternRelationship) : Prop where
  name : step.relationship = relationship.name
  types : step.hop.types = relationship.types
  across : relationship.other? step.hop.source = some step.hop.target
  direction : step.hop.direction = relationship.directionFrom step.hop.source

/-- Steps that lead through one repetition of a loop. -/
structure TrailParameters.Traversed (parameters : TrailParameters) (steps : List TrailStep) : Prop where
  leaves : steps.head?.map (fun step => step.hop.source) = some parameters.innerStart
  meets : steps.IsChain fun former latter => former.hop.target = latter.hop.source
  arrives : steps.getLast?.map (fun step => step.hop.target) = some parameters.innerEnd

/-! The ends of a walk. -/

namespace Walk

variable {start finish : String} {steps : List TrailStep}

theorem leaves (walk : Walk start steps finish) : ∀ step ∈ steps.head?, step.hop.source = start := by
  cases walk with
  | done => simp
  | step further => simp

theorem meets (walk : Walk start steps finish) : steps.IsChain fun former latter => former.hop.target = latter.hop.source := by
  induction walk with
  | done => exact .nil
  | step further joined => exact joined.cons fun next first => (further.leaves next first).symm

theorem arrives (walk : Walk start steps finish) (some : steps ≠ []) :
    steps.getLast?.map (fun step => step.hop.target) = .some finish := by
  induction walk with
  | done => exact absurd rfl some
  | step further ends =>
    cases further with
    | done => rfl
    | step onward => exact ends (List.cons_ne_nil _ _)

end Walk

/-! The relationships that the steps take. -/

/-- A chain that visits no node twice has no relationship from a node to itself. -/
theorem Chain.apart {start finish : String} {relationships : List PatternRelationship}
    (chain : Chain start relationships finish) (distinct : (nodesAlong start relationships).Nodup) :
    ∀ relationship ∈ relationships, relationship.left ≠ relationship.right := by
  induction chain with
  | done => simp
  | step further apart =>
    obtain ⟨away, others⟩ := List.nodup_cons.mp distinct
    refine List.forall_mem_cons.mpr ⟨fun loop => away ?_, apart others⟩
    rw [loop]
    exact List.mem_cons_self

namespace QuantifiedPattern

variable {pattern : QuantifiedPattern}

theorem WellFormed.takes (formed : pattern.WellFormed) (direction : TraversalDirection) :
    ∀ step ∈ pattern.steps direction, ∃ relationship ∈ pattern.relationships, step.Takes relationship := by
  have apart := formed.chain.apart formed.distinctNodes
  intro step member
  cases direction with
  | forward =>
    obtain ⟨relationship, among, rfl⟩ := List.mem_map.mp member
    exact ⟨relationship, among, rfl, rfl, if_pos rfl, (if_pos rfl).symm⟩
  | reversed =>
    obtain ⟨original, inside, rfl⟩ := List.mem_map.mp member
    obtain ⟨relationship, among, rfl⟩ := List.mem_map.mp (List.mem_reverse.mp inside)
    have other : relationship.right ≠ relationship.left := (apart relationship among).symm
    exact ⟨relationship, among, rfl, rfl, (if_neg other).trans (if_pos rfl), (if_neg other).symm⟩

theorem WellFormed.steps_nonempty (formed : pattern.WellFormed) (direction : TraversalDirection) : pattern.steps direction ≠ [] := by
  have forward : pattern.forwardSteps ≠ [] := fun empty => formed.nonempty (List.map_eq_nil_iff.mp empty)
  cases direction with
  | forward => exact forward
  | reversed => exact fun empty => forward (List.reverse_eq_nil_iff.mp (List.map_eq_nil_iff.mp empty))

/-- The steps in either direction suit the parameters of every loop that runs in it. -/
theorem WellFormed.traversed (formed : pattern.WellFormed) (request : TrailRequest) (same : request.pattern = pattern)
    (finish : String) : (request.parameters finish).Traversed (pattern.steps request.direction) := by
  subst same
  have walk := formed.walk request.direction
  have some := formed.steps_nonempty request.direction
  refine ⟨?_, walk.meets, walk.arrives some⟩
  obtain ⟨first, head⟩ := Option.ne_none_iff_exists'.mp (mt List.head?_eq_none_iff.mp some)
  rw [head]
  exact congrArg Option.some (walk.leaves first head)

end QuantifiedPattern

/-! The parameters of the loop. -/

namespace TrailRequest

variable {ν : Type}

/-- A loop needs its near boundary and is free to bind its far one. -/
theorem build_unbound {request : TrailRequest} (near : request.near.outer ∈ request.bound) (far : request.far.outer ∉ request.bound)
    (session : Session ν) : request.build session = .ok (request.parameters request.far.outer, none) session := by
  unfold build
  rw [if_neg (not_not.mpr near), if_neg far]
  rfl

/-- Which siblings clash depends on which siblings are bound, and on nothing else that is. -/
theorem clashing_congr {request other : TrailRequest} (pattern : request.pattern = other.pattern)
    (siblings : request.siblings = other.siblings)
    (agree : ∀ sibling ∈ other.siblings, sibling.name ∈ request.bound ↔ sibling.name ∈ other.bound) :
    request.clashing = other.clashing := by
  unfold clashing
  rw [siblings, pattern]
  refine List.filter_congr fun sibling member => ?_
  rw [decide_eq_decide.mpr (agree sibling member)]

theorem parameters_reversed (pattern : QuantifiedPattern) {bound other : NameSet} (needed : NameSet)
    {siblings : List RelationshipProducer} (agree : ∀ sibling ∈ siblings, sibling.name ∈ bound ↔ sibling.name ∈ other) :
    ((TrailRequest.mk pattern .forward bound needed siblings).parameters pattern.right.outer).reversed =
      (TrailRequest.mk pattern .reversed other needed siblings).parameters pattern.left.outer := by
  have clashing : (TrailRequest.mk pattern .reversed other needed siblings).clashing =
      (TrailRequest.mk pattern .forward bound needed siblings).clashing :=
    clashing_congr rfl rfl fun sibling member => (agree sibling member).symm
  have bounds : (TrailRequest.mk pattern .reversed other needed siblings).boundNames =
      (TrailRequest.mk pattern .forward bound needed siblings).boundNames := by
    funext form
    rw [boundNames, boundNames, clashing]
  simp only [parameters, TrailParameters.reversed, bounds]
  rfl

end TrailRequest

namespace QuantifiedPattern

/-- Reversal law. Above either boundary alone the loop can be run away from it, and the two loops and their repetitions are the same
but for the end they begin at. -/
theorem reversal {ν : Type} {draft : QuantifiedDraft} {pattern : QuantifiedPattern} {bound other : NameSet} (needed : NameSet)
    (siblings : List RelationshipProducer) (session : Session ν) (built : draft.build = .ok pattern)
    (leftBound : pattern.left.outer ∈ bound) (rightFree : pattern.right.outer ∉ bound)
    (rightBound : pattern.right.outer ∈ other) (leftFree : pattern.left.outer ∉ other)
    (agree : ∀ sibling ∈ siblings, sibling.name ∈ bound ↔ sibling.name ∈ other) :
    (∃ parameters,
      TrailRequest.build ⟨pattern, .forward, bound, needed, siblings⟩ session = .ok (parameters, none) session ∧
      TrailRequest.build ⟨pattern, .reversed, other, needed, siblings⟩ session = .ok (parameters.reversed, none) session ∧
      parameters.Traversed (pattern.steps .forward) ∧ parameters.reversed.Traversed (pattern.steps .reversed)) ∧
    pattern.steps .reversed = (pattern.steps .forward).reverse.map TrailStep.reversed ∧
    ∀ direction, ∀ step ∈ pattern.steps direction, ∃ relationship ∈ pattern.relationships, step.Takes relationship := by
  have formed := QuantifiedDraft.build_ok built
  have turned := TrailRequest.parameters_reversed pattern needed agree
  refine ⟨⟨_, TrailRequest.build_unbound leftBound rightFree session, ?_, formed.traversed ⟨_, .forward, _, _, _⟩ rfl _, ?_⟩, rfl,
    formed.takes⟩
  · exact turned ▸ TrailRequest.build_unbound rightBound leftFree session
  · exact turned ▸ formed.traversed ⟨_, .reversed, _, _, _⟩ rfl _

end QuantifiedPattern

namespace QuantifiedDraft

/-- A repetition goes along one relationship and against the next. -/
def zigzag : QuantifiedDraft where
  left := ⟨"a", "n"⟩
  right := ⟨"b", "o"⟩
  relationships := [⟨"r", "n", "m", .outgoing, ["R"], .simple⟩, ⟨"s", "m", "o", .incoming, ["S"], .simple⟩]
  repetition := .oneOrMore
  nodeGroupings := [⟨"m", "g"⟩]
  relationshipGroupings := [⟨"r", "r"⟩, ⟨"s", "s"⟩]
  selections := []
  groupByName := false

/-- Of two patterns beside the loop one is bound, whichever boundary the loop is run from. -/
theorem zigzag_reversal :
    let siblings : List RelationshipProducer := [⟨0, "q", .single, none⟩, ⟨1, "u", .list, none⟩]
    zigzag.build = .ok zigzag.pattern ∧ ∃ parameters,
      TrailRequest.build ⟨zigzag.pattern, .forward, .ofList ["a", "q"], .ofList ["g"], siblings⟩ (Session.initial false : Session Nat) =
        .ok (parameters, none) (.initial false) ∧
      TrailRequest.build ⟨zigzag.pattern, .reversed, .ofList ["b", "q"], .ofList ["g"], siblings⟩ (Session.initial false : Session Nat) =
        .ok (parameters.reversed, none) (.initial false) ∧
      parameters.Traversed (zigzag.pattern.steps .forward) ∧ parameters.reversed.Traversed (zigzag.pattern.steps .reversed) := by
  intro siblings
  have built : zigzag.build = .ok zigzag.pattern := rfl
  have agree : ∀ sibling ∈ siblings, sibling.name ∈ NameSet.ofList ["a", "q"] ↔ sibling.name ∈ NameSet.ofList ["b", "q"] := by
    decide +kernel
  exact ⟨built, (QuantifiedPattern.reversal _ siblings _ built (by decide +kernel) (by decide +kernel) (by decide +kernel)
    (by decide +kernel) agree).1⟩

end QuantifiedDraft

end MatchPlanner
