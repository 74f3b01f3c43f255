import MatchPlanner.Quantified.GroupPredicate
import MatchPlanner.Quantified.Trail

/-! The plan of one repetition: an argument, then one expansion for every step. Each predicate is placed right after the step
that binds the last variable it reads, followed by the checks that keep relationships apart. -/

namespace MatchPlanner

namespace TrailStep

/-- The check that no earlier repetition used the relationship. -/
def repeatCheck (step : TrailStep) : Expression := .call "isRepeatTrailUnique" [.reference step.relationship]

/-- The checks against earlier steps of the same repetition. -/
def checksAgainstSteps (step : TrailStep) (earlier : List TrailStep) : List Expression :=
  (earlier.filter fun other => step.typeSet.overlap other.typeSet).map fun other =>
    .negation (.equals (.reference step.relationship) (.reference other.relationship))

def checkAgainst (step : TrailStep) (sibling : RelationshipProducer) : Expression :=
  match sibling.form with
  | .single => .negation (.equals (.reference step.relationship) (.reference sibling.name))
  | .list => .negation (.isMember (.reference step.relationship) (.reference sibling.name))

/-- The checks against relationships bound by other patterns. -/
def checksAgainstSiblings (step : TrailStep) (siblings : List RelationshipProducer) : List Expression :=
  (siblings.filter fun sibling => step.typeSet.overlap sibling.types).map step.checkAgainst

def uniquenessChecks (step : TrailStep) (earlier : List TrailStep) (siblings : List RelationshipProducer) : List Expression :=
  step.repeatCheck :: step.checksAgainstSteps earlier ++ step.checksAgainstSiblings siblings

end TrailStep

/-- Everything a predicate reads is in scope. -/
def isReadyIn (scope : NameSet) (predicate : Expression) : Bool := predicate.dependencies.within scope

def missingFrom (scope : NameSet) (predicate : Expression) : List String :=
  (predicate.dependencies.filter fun name => decide (name ∉ scope)).names

/-- A repetition that is planned up to some step. -/
structure InnerProgress where
  plan : Plan
  scope : NameSet
  pending : List Expression

namespace Environment

variable {ν : Type} (environment : Environment ν)

/-- Places what is ready in the scope, together with further checks. -/
def placeInner (progress : InnerProgress) (checks : List Expression) : Planning ν InnerProgress := do
  let (ready, pending) := progress.pending.partition (isReadyIn progress.scope)
  let plan ← environment.filter progress.plan (ready ++ checks)
  return ⟨plan, progress.scope, pending⟩

def innerSteps (siblings : List RelationshipProducer) (earlier : List TrailStep) (progress : InnerProgress) :
    List TrailStep → Planning ν InnerProgress
  | [] => pure progress
  | step :: rest => do
    let mode := if step.hop.target ∈ progress.scope then ExpansionMode.into else .all
    let expanded ← environment.finish (.step · (.expand step.hop step.relationship mode) progress.plan) []
    let scope := (progress.scope.insert step.relationship).insert step.hop.target
    let placed ← environment.placeInner ⟨expanded, scope, progress.pending⟩ (step.uniquenessChecks earlier siblings)
    innerSteps siblings (earlier ++ [step]) placed rest

/-- The variables an inner plan starts from: its first node, what its predicates read from outside, and its siblings. -/
def innerArguments (pattern : QuantifiedPattern) (pending : List Expression) (bound : NameSet) (innerStart : String)
    (siblings : List RelationshipProducer) : NameSet :=
  let reads := (Expression.dependenciesOf pending).filter fun name =>
    decide (name ∉ pattern.innerVariables) && decide (name ∈ bound)
  (reads.insert innerStart).insertAll (siblings.map RelationshipProducer.name)

def innerPlan (pattern : QuantifiedPattern) (classification : Classification) (bound : NameSet) (innerStart : String)
    (steps : List TrailStep) (siblings : List RelationshipProducer) : Planning ν Plan := do
  let pending := classification.innerPredicates
  let arguments := innerArguments pattern pending bound innerStart siblings
  let argument ← environment.finish (.leaf · (.argument arguments.names)) []
  let started ← environment.placeInner ⟨argument, arguments, pending⟩ []
  let final ← environment.innerSteps siblings [] started steps
  match final.pending with
  | [] => return final.plan
  | unsolved :: _ => throw (.unsolvablePredicate unsolved (missingFrom final.scope unsolved))

end Environment

end MatchPlanner
