import MatchPlanner.Planning.Session

/-! Eager barriers. Someone else finds out which operator reads what another one writes; here the reader is put below an
Eager, so that it has read everything before the write begins. -/

namespace MatchPlanner

/-- A conflict between an operator that reads and one that writes. -/
structure EagerRequest where
  reader : PlanId
  reason : EagerReason
deriving DecidableEq

def mergeReason (reasons : List EagerReason) (reason : EagerReason) : List EagerReason :=
  if reason ∈ reasons then reasons else reasons ++ [reason]

/-- The plan with the reason added to its root, when the root is an Eager right above the reader. -/
def EagerRequest.mergeAbove? (request : EagerRequest) : Plan → Option Plan
  | .step id (.eager reasons) input =>
    if input.id = request.reader then some (.step id (.eager (mergeReason reasons request.reason)) input) else none
  | _ => none

namespace Environment

variable {ν : Type} (environment : Environment ν)

/-- Puts a reader below an Eager of its own; a reader that is an Eager takes the reason itself. -/
def wrapReader (reader : Plan) (request : EagerRequest) : Planning ν Plan :=
  match reader with
  | .step id (.eager reasons) input => pure (.step id (.eager (mergeReason reasons request.reason)) input)
  | reader => environment.finish (.step · (.eager [request.reason]) reader) []

/-- The plan with its reader wrapped, when the reader is below the root. -/
def wrapBelow (request : EagerRequest) : Plan → Planning ν (Option Plan)
  | .leaf _ _ => pure none
  | .step id operator input =>
    match request.mergeAbove? (.step id operator input) with
    | some merged => pure (some merged)
    | none =>
      if input.id = request.reader then do
        return some (.step id operator (← environment.wrapReader input request))
      else do
        return (← wrapBelow request input).map (.step id operator)
  | .trail id parameters input inner =>
    if input.id = request.reader then do
      return some (.trail id parameters (← environment.wrapReader input request) inner)
    else do
      match ← wrapBelow request input with
      | some changed => return some (.trail id parameters changed inner)
      | none =>
        if inner.id = request.reader then
          return some (.trail id parameters input (← environment.wrapReader inner request))
        else return (← wrapBelow request inner).map (.trail id parameters input)
  | .join id operator left right =>
    if left.id = request.reader then do
      return some (.join id operator (← environment.wrapReader left request) right)
    else do
      match ← wrapBelow request left with
      | some changed => return some (.join id operator changed right)
      | none =>
        if right.id = request.reader then
          return some (.join id operator left (← environment.wrapReader right request))
        else return (← wrapBelow request right).map (.join id operator left)

/-- Places the barrier of one request. -/
def spliceEager (root : Plan) (request : EagerRequest) : Planning ν Plan := do
  if (root.find? request.reader).isNone then throw (.unknownPlanId request.reader)
  match request.mergeAbove? root with
  | some merged => return merged
  | none =>
    if root.id = request.reader then environment.wrapReader root request
    else
      match ← environment.wrapBelow request root with
      | some changed => return changed
      | none => throw (.internal (.unreachableReader request.reader))

/-- Places the barriers of all requests in order. -/
def spliceAll (root : Plan) (requests : List EagerRequest) : Planning ν Plan := requests.foldlM environment.spliceEager root

end Environment

end MatchPlanner
