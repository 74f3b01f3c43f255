import MatchPlanner.Plan.Basic

/-! Which predicates a quantified pattern can take over. Its own selections are sorted by the inner variable they read; a
predicate of the clause that holds for every member of a group becomes a predicate on a single step, and any other
predicate on a group has to wait for the whole path. -/

namespace MatchPlanner

/-- Where a selection could be evaluated inside one repetition. -/
inductive PredicateClass where
  | relationship (name : String)
  | node (name : String)
  | nonPushable
deriving DecidableEq

structure ClassifiedPredicate where
  predicate : Expression
  kind : PredicateClass

/-- A predicate of the clause in the form that holds for each member of a group. -/
structure ExtractedPredicate where
  atom : Expression
  kind : GroupKind
  singleton : String
  element : VariablePredicate

/-- The predicate over the inner variable of one repetition. -/
def ExtractedPredicate.perStep (extracted : ExtractedPredicate) : Expression :=
  extracted.element.predicate.rename extracted.element.element extracted.singleton

structure Classification where
  selections : List ClassifiedPredicate
  extracted : List ExtractedPredicate
  postFilters : List Expression

namespace QuantifiedPattern

def selectionAtoms (pattern : QuantifiedPattern) : List Expression := pattern.selections.flatMap Expression.conjuncts

def classifyAtom (pattern : QuantifiedPattern) (atom : Expression) : PredicateClass :=
  if atom.runsSubquery then .nonPushable
  else
    match (atom.dependencies.filter fun name => decide (name ∈ pattern.innerVariables)).names with
    | [name] => if name ∈ pattern.relationshipNames then .relationship name else .node name
    | _ => .nonPushable

/-- A predicate can be extracted when it ranges over a group of the pattern and otherwise reads bound variables only. -/
def extract? (pattern : QuantifiedPattern) (bound : NameSet) (atom : Expression) : Option ExtractedPredicate :=
  match atom with
  | .every element (.reference group) predicate =>
    match pattern.groupingOf? group with
    | some (kind, grouping) =>
      if !predicate.runsSubquery && (predicate.dependencies.erase element).within bound then
        some ⟨atom, kind, grouping.singleton, ⟨element, predicate⟩⟩
      else none
    | none => none
  | _ => none

/-- Sorts the selections of a pattern and the predicates of the clause that read a group of it. -/
def classify (pattern : QuantifiedPattern) (outer : List Expression) (bound : NameSet) : Classification where
  selections := pattern.selectionAtoms.map fun atom => ⟨atom, pattern.classifyAtom atom⟩
  extracted := outer.filterMap (pattern.extract? bound)
  postFilters := outer.filter fun atom => (pattern.extract? bound atom).isNone

end QuantifiedPattern

namespace Classification

def hasSelections (classification : Classification) : Bool := !classification.selections.isEmpty

def fitsRelationships (classification : Classification) : Bool :=
  classification.extracted.all fun extracted => extracted.kind == .relationship

def postFilterDependencies (classification : Classification) : NameSet := Expression.dependenciesOf classification.postFilters

/-- The predicates of the clause that the pattern takes over. -/
def solved (classification : Classification) : List Expression := classification.extracted.map ExtractedPredicate.atom

/-- What has to hold inside one repetition. -/
def innerPredicates (classification : Classification) : List Expression :=
  classification.selections.map ClassifiedPredicate.predicate ++ classification.extracted.map ExtractedPredicate.perStep

end Classification

end MatchPlanner
