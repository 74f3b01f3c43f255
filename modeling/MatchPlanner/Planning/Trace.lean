import MatchPlanner.Plan.Printer
import MatchPlanner.Quantity

/-! The decisions of a planning run in the order they were made. -/

namespace MatchPlanner

inductive PlanningPhase where
  | componentDiscovery
  | startSelection
  | expansion
  | qppSelection
  | composition
  | eagerSplicing
deriving DecidableEq

namespace PlanningPhase

def all : List PlanningPhase :=
  [.componentDiscovery, .startSelection, .expansion, .qppSelection, .composition, .eagerSplicing]

def name : PlanningPhase → String
  | .componentDiscovery => "ComponentDiscovery"
  | .startSelection => "StartSelection"
  | .expansion => "Expansion"
  | .qppSelection => "QppSelection"
  | .composition => "Composition"
  | .eagerSplicing => "EagerSplicing"

end PlanningPhase

/-- Whole seconds and less than a second of nanoseconds. -/
structure Duration where
  seconds : Nat
  nanoseconds : Nat
deriving DecidableEq

namespace Duration

def zero : Duration := ⟨0, 0⟩

/-- Nanoseconds beyond a second are carried, unless the seconds then exceed 64 bits. -/
def ofParts? (seconds nanoseconds : Nat) : Option Duration :=
  let total := seconds + nanoseconds / 1000000000
  if total < Nat.pow 2 64 then some ⟨total, nanoseconds % 1000000000⟩ else none

def milliseconds {ν : Type} [Quantity ν] (duration : Duration) : ν :=
  (Quantity.ofNat duration.seconds + Quantity.ofNat duration.nanoseconds / Quantity.ofNat 1000000000) * Quantity.ofNat 1000

end Duration

structure TraceMetadata (ν : Type) where
  operator : Option OperatorKind
  scope : List String
  rows : Option ν
  cost : Option ν

def TraceMetadata.empty {ν : Type} : TraceMetadata ν := ⟨none, [], none, none⟩

structure TraceStep (ν : Type) where
  phase : PlanningPhase
  description : String
  duration : Duration
  metadata : TraceMetadata ν

structure PlanTrace (ν : Type) where
  steps : List (TraceStep ν)
  duration : Duration

namespace PlanTrace

variable {ν : Type}

def stepsIn (trace : PlanTrace ν) (phase : PlanningPhase) : List (TraceStep ν) :=
  trace.steps.filter fun step => step.phase == phase

variable [Quantity ν]

private def elapsed (duration : Duration) : String := Quantity.fixed (ν := ν) 3 duration.milliseconds ++ "ms"

private def stepLine (step : TraceStep ν) (number : Nat) : String :=
  let estimates := match step.metadata.rows, step.metadata.cost with
    | some rows, some cost => " → " ++ Quantity.fixed 1 rows ++ " rows, cost: " ++ Quantity.fixed 3 cost
    | _, _ => ""
  toString number ++ ". [" ++ step.phase.name ++ "] " ++ step.description ++ " (" ++ elapsed (ν := ν) step.duration ++ ")" ++
    estimates ++ "\n"

/-- A numbered line for every step and one for the total. -/
def render (trace : PlanTrace ν) : String :=
  "Planning Steps\n" ++ String.ofList (List.replicate 30 '-') ++ "\n" ++
    String.join ((trace.steps.zipIdx 1).map fun (step, number) => stepLine step number) ++
    "Total: " ++ elapsed (ν := ν) trace.duration ++ "\n"

end PlanTrace

end MatchPlanner
