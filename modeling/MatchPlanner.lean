import MatchPlanner.Planner
import MatchPlanner.Cost.Serialization
import MatchPlanner.Json.Printer
import MatchPlanner.MatchGraph.Draft
import MatchPlanner.Plan.Sketch
import MatchPlanner.Planning.Serialization
import MatchPlanner.Proofs.Distinctness
import MatchPlanner.Proofs.Selections
import MatchPlanner.Proofs.Retention
import MatchPlanner.Proofs.Collapse
import MatchPlanner.Proofs.Capture
import MatchPlanner.Proofs.Failure
import MatchPlanner.Proofs.Barriers
import MatchPlanner.Proofs.Binding
import MatchPlanner.Proofs.Inheritance
import MatchPlanner.Proofs.Redundancy
import MatchPlanner.Proofs.Splicing
import MatchPlanner.Proofs.Packaging
import MatchPlanner.Proofs.Undisturbed
import MatchPlanner.Proofs.Cancellation
import MatchPlanner.Proofs.Alternatives
import MatchPlanner.Proofs.Registry
import MatchPlanner.Proofs.Records
import MatchPlanner.Proofs.Reversal
import MatchPlanner.Proofs.Recognition
import MatchPlanner.Proofs.Placement
import MatchPlanner.Proofs.Promptness
import MatchPlanner.Proofs.Renaming
import MatchPlanner.Proofs.Acceptance
import MatchPlanner.Proofs.Partition
import MatchPlanner.Proofs.Enforcement
import MatchPlanner.Proofs.Upkeep
import MatchPlanner.Proofs.Definedness
import MatchPlanner.Proofs.Rendering
import MatchPlanner.Proofs.Interchange
import MatchPlanner.Proofs.PathCounts
import MatchPlanner.Proofs.Conjunctions
