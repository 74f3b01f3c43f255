import MatchPlanner.MatchGraph.Uniqueness

/-! The predicates of a clause that are still to be placed: label atoms, WHERE atoms, then uniqueness checks. A ledger holds
open entries only; solving a predicate takes its entry out. -/

namespace MatchPlanner

structure LedgerEntry where
  position : Nat
  predicate : Expression
  /-- The obligation a uniqueness check comes from. -/
  obligation : Option UniquenessObligation

abbrev Ledger := List LedgerEntry

namespace LedgerEntry

def dependencies (entry : LedgerEntry) : NameSet := entry.predicate.dependencies

def isAtom (entry : LedgerEntry) : Bool := entry.obligation.isNone

def isReady (bound : NameSet) (entry : LedgerEntry) : Bool := entry.dependencies.within bound

/-- An atom that reads one variable alone. -/
def isLocalTo (node : String) (entry : LedgerEntry) : Bool := entry.isAtom && entry.dependencies.names == [node]

/-- An atom that reads one of the variables. -/
def reads (names : NameSet) (entry : LedgerEntry) : Bool := entry.isAtom && !entry.dependencies.disjoint names

end LedgerEntry

namespace Ledger

def ofGraph (graph : MatchGraph) : Ledger :=
  let atoms := graph.atoms.map fun atom => (atom, none)
  let checks := graph.obligations.map fun obligation => (obligation.predicate, some obligation)
  (atoms ++ checks).zipIdx.map fun ((predicate, obligation), position) => ⟨position, predicate, obligation⟩

def predicates (ledger : Ledger) : List Expression := ledger.map LedgerEntry.predicate

/-- Takes out the first entry with each of the predicates, if there is one. -/
def solve (ledger : Ledger) (predicates : List Expression) : Ledger :=
  predicates.foldl (fun remaining predicate => remaining.eraseP fun entry => entry.predicate.same predicate) ledger

/-- Takes out the entries at the same positions. -/
def without (ledger discharged : Ledger) : Ledger :=
  ledger.filter fun entry => !(discharged.any fun other => other.position == entry.position)

end Ledger

end MatchPlanner
