import MatchPlanner.Expression.Printer
import MatchPlanner.Plan.Id
import MatchPlanner.Text.Quoted

/-! Why planning fails. There is no partial success: any of these ends the planning of the whole match. -/

namespace MatchPlanner

/-- How a pattern breaks the contract the planner relies on. -/
inductive PatternFault where
  | noRelationships
  | variableLength (relationship : String)
  | disconnected (relationship expected : String)
  | repeatedRelationship (relationship : String)
  | repeatedNode (node : String)
  | wrongEnd (reached expected : String)
  | reversedBounds (upper lower : Nat)
  | unknownGroupedNode (node : String)
  | unknownGroupedRelationship (relationship : String)
  | ungroupedRelationship (relationship : String)
  | repeatedGroup (group : String)
  | nodeDeclaredTwice (node : String)
  | undeclaredNode (connection node : String)
  | boundTwice (name : String)
  | noNodes
  | missingRelationship (pattern : String)
  | described (reason : String)

/-- What a correct caller never meets. -/
inductive InternalFault where
  | unboundStart (name : String)
  | unboundBoundaries (pattern : String)
  | noCandidate (pattern : String)
  | emptyComponent
  | detachedConnections (nodes : List String)
  | unreachableReader (reader : PlanId)
  | described (reason : String)

inductive ConfigFault where
  | zeroCheckInterval
  | unreadable
  | described (reason : String)

inductive PlanningError where
  | malformedPattern (fault : PatternFault)
  | unsolvablePredicate (predicate : Expression) (missing : List String)
  | estimation (reason : String)
  | leafPlanning (reason : String)
  | cancelled
  | attributeAlreadySet (table : AttributeKind) (id : PlanId)
  | unknownPlanId (id : PlanId)
  | invalidConfig (fault : ConfigFault)
  | serialization (reason : String)
  | internal (fault : InternalFault)

def PatternFault.message : PatternFault → String
  | .noRelationships => "quantified path pattern without relationships"
  | .variableLength relationship => "var-length relationship " ++ relationship ++ " inside a quantified path pattern"
  | .disconnected relationship expected =>
    "relationship chain is disconnected at " ++ relationship ++ ": expected to start at " ++ expected
  | .repeatedRelationship relationship => "relationship " ++ relationship ++ " appears twice in one repetition"
  | .repeatedNode node => "node " ++ node ++ " repeats inside the relationship chain"
  | .wrongEnd reached expected => "relationship chain ends at " ++ reached ++ " instead of " ++ expected
  | .reversedBounds upper lower =>
    "repetition upper bound " ++ toString upper ++ " is below lower bound " ++ toString lower
  | .unknownGroupedNode node => "node grouping refers to unknown inner node " ++ node
  | .unknownGroupedRelationship relationship =>
    "relationship grouping refers to unknown inner relationship " ++ relationship
  | .ungroupedRelationship relationship => "relationship " ++ relationship ++ " has no variable grouping"
  | .repeatedGroup group => "group variable " ++ group ++ " defined twice"
  | .nodeDeclaredTwice node => "node " ++ node ++ " declared twice"
  | .undeclaredNode connection node => "connection " ++ connection ++ " references undeclared node " ++ node
  | .boundTwice name => "variable " ++ name ++ " is bound by more than one pattern element"
  | .noNodes => "match graph has no nodes"
  | .missingRelationship pattern => pattern ++ " has no relationship"
  | .described reason => reason

def InternalFault.message : InternalFault → String
  | .unboundStart name => "trail start " ++ name ++ " is not bound by its input"
  | .unboundBoundaries pattern => "neither boundary of " ++ pattern ++ " is bound"
  | .noCandidate pattern => "no candidate plan for " ++ pattern
  | .emptyComponent => "empty connected component"
  | .detachedConnections nodes =>
    "no connection of component " ++ Text.quotedList nodes ++ " touches the bound variables"
  | .unreachableReader reader => "reader " ++ reader.render ++ " found but not reachable for splicing"
  | .described reason => reason

def ConfigFault.message : ConfigFault → String
  | .zeroCheckInterval => "cancellation_check_interval must be at least 1"
  | .unreadable => "not a configuration document"
  | .described reason => reason

namespace PlanningError

def message : PlanningError → String
  | .malformedPattern fault => "Malformed pattern: " ++ fault.message
  | .unsolvablePredicate predicate missing =>
    "Predicate `" ++ predicate.render ++ "` cannot be placed, unbound variables: " ++ Text.quotedList missing
  | .estimation reason => "Cost estimation failed: " ++ reason
  | .leafPlanning reason => "Leaf planning failed: " ++ reason
  | .cancelled => "Planning was cancelled"
  | .attributeAlreadySet table id => "Attribute `" ++ table.name ++ "` already set for plan " ++ id.render
  | .unknownPlanId id => "No plan with id " ++ id.render
  | .invalidConfig fault => "Invalid planner configuration: " ++ fault.message
  | .serialization reason => "Plan serialization failed: " ++ reason
  | .internal fault => "Internal planner error: " ++ fault.message

/-- A search over candidates may pass over such an error as long as another candidate succeeds. -/
def isCandidateLocal : PlanningError → Bool
  | .unsolvablePredicate _ _ => true
  | _ => false

end PlanningError

end MatchPlanner
