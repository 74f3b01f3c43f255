import MatchPlanner.Proofs.Validity

/-! Which drafts become patterns. A draft is accepted exactly when what was said about it makes a well-formed pattern, and then the
pattern is what was said and no more. -/

namespace MatchPlanner

namespace DraftPart

def relationship? : DraftPart → Option PatternRelationship
  | .relationship pattern => some pattern
  | _ => none

def repetition? : DraftPart → Option Repetition
  | .repetition range => some range
  | _ => none

def nodeGrouping? : DraftPart → Option Grouping
  | .nodeGrouping grouping => some grouping
  | _ => none

def relationshipGrouping? : DraftPart → Option Grouping
  | .relationshipGrouping grouping => some grouping
  | _ => none

def selection? : DraftPart → Option Expression
  | .selection predicate => some predicate
  | _ => none

def isGroupByName : DraftPart → Bool
  | .groupByName => true
  | _ => false

end DraftPart

namespace QuantifiedDraft

/-- Parts of a kind are kept in the order in which they come, and of several repetitions the last one counts. -/
def gathered (draft : QuantifiedDraft) (parts : List DraftPart) : QuantifiedDraft where
  left := draft.left
  right := draft.right
  relationships := draft.relationships ++ parts.filterMap DraftPart.relationship?
  repetition := (parts.filterMap DraftPart.repetition?).getLastD draft.repetition
  nodeGroupings := draft.nodeGroupings ++ parts.filterMap DraftPart.nodeGrouping?
  relationshipGroupings := draft.relationshipGroupings ++ parts.filterMap DraftPart.relationshipGrouping?
  selections := draft.selections ++ parts.filterMap DraftPart.selection?
  groupByName := draft.groupByName || parts.any DraftPart.isGroupByName

theorem gathered_nil (draft : QuantifiedDraft) : draft.gathered [] = draft := by simp [gathered]

theorem gathered_cons (draft : QuantifiedDraft) (part : DraftPart) (rest : List DraftPart) :
    draft.gathered (part :: rest) = (draft.add part).gathered rest := by
  cases part <;>
    simp only [gathered, add, List.filterMap_cons, DraftPart.relationship?, DraftPart.repetition?, DraftPart.nodeGrouping?,
      DraftPart.relationshipGrouping?, DraftPart.selection?, DraftPart.isGroupByName, List.any_cons, List.getLastD_cons,
      List.append_assoc, List.singleton_append, Bool.false_or, Bool.true_or, Bool.or_true]

theorem foldl_add (draft : QuantifiedDraft) (parts : List DraftPart) : parts.foldl add draft = draft.gathered parts := by
  induction parts generalizing draft with
  | nil => exact draft.gathered_nil.symm
  | cons part rest further => rw [List.foldl_cons, further, gathered_cons]

/-- Acceptance law. A draft that is put together from parts becomes a pattern if and only if the pattern that the parts make is
well-formed; it becomes that pattern and no other, and a draft that is refused is refused as malformed. -/
theorem ofParts_accepted (left right : Boundary) (parts : List DraftPart) :
    (∀ pattern, (ofParts left right parts).build = .ok pattern ↔
      pattern.WellFormed ∧ pattern = ((started left right).gathered parts).completed) ∧
    ∀ error, (ofParts left right parts).build = .error error → ∃ fault, error = .malformedPattern fault := by
  rw [ofParts, foldl_add]
  refine ⟨fun pattern => build_eq_ok, fun error refused => ?_⟩
  unfold build at refused
  cases checked : ((started left right).gathered parts).checked with
  | error fault =>
    rw [checked] at refused
    cases refused
    exact ⟨fault, rfl⟩
  | ok pattern =>
    rw [checked] at refused
    cases refused

end QuantifiedDraft

end MatchPlanner
