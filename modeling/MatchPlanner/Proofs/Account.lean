import Mathlib.Algebra.Order.Group.Multiset
import Mathlib.Tactic.Abel
import MatchPlanner.Proofs.Operators

/-! What becomes of the entries of a ledger. An entry leaves the ledger when its predicate stands in a filter, when an operator
solves it, or when a loop takes over its check; every entry leaves it once. -/

namespace MatchPlanner

/-- The entries a plan answers for, by what became of them. -/
@[ext]
structure Account where
  filtered : Multiset LedgerEntry
  solved : Multiset LedgerEntry
  discharged : Multiset LedgerEntry

namespace Account

instance : Zero Account := ⟨⟨0, 0, 0⟩⟩

instance : Add Account := ⟨fun first second =>
  ⟨first.filtered + second.filtered, first.solved + second.solved, first.discharged + second.discharged⟩⟩

def entries (account : Account) : Multiset LedgerEntry := account.filtered + account.solved + account.discharged

@[simp] theorem filtered_zero : (0 : Account).filtered = 0 := rfl

@[simp] theorem solved_zero : (0 : Account).solved = 0 := rfl

@[simp] theorem discharged_zero : (0 : Account).discharged = 0 := rfl

@[simp] theorem filtered_add (first second : Account) : (first + second).filtered = first.filtered + second.filtered := rfl

@[simp] theorem solved_add (first second : Account) : (first + second).solved = first.solved + second.solved := rfl

@[simp] theorem discharged_add (first second : Account) :
    (first + second).discharged = first.discharged + second.discharged := rfl

@[simp] theorem entries_zero : (0 : Account).entries = 0 := rfl

@[simp] theorem entries_add (first second : Account) : (first + second).entries = first.entries + second.entries := by
  simp only [entries, filtered_add, solved_add, discharged_add]
  abel

instance : AddCommMonoid Account where
  add_assoc first second third := Account.ext (add_assoc ..) (add_assoc ..) (add_assoc ..)
  zero_add account := Account.ext (zero_add _) (zero_add _) (zero_add _)
  add_zero account := Account.ext (add_zero _) (add_zero _) (add_zero _)
  add_comm first second := Account.ext (add_comm ..) (add_comm ..) (add_comm ..)
  nsmul := nsmulRec

end Account

namespace Ledger

/-- The entries that solving some predicates takes out. -/
def taken (ledger : Ledger) : List Expression → Ledger
  | [] => []
  | predicate :: rest =>
    let solves := fun entry : LedgerEntry => entry.predicate.same predicate
    (List.find? solves ledger).toList ++ taken (List.eraseP solves ledger) rest

/-- The entries at the positions of others. -/
def shared (ledger others : Ledger) : Ledger := List.filter (fun entry => others.any fun other => other.position == entry.position) ledger

private theorem eraseP_split {α : Type} (found : α → Bool) (values : List α) :
    (values : Multiset α) = ((values.find? found).toList : List α) + (values.eraseP found : List α) := by
  cases searched : values.find? found with
  | none =>
    rw [List.eraseP_of_forall_not (by simpa using List.find?_eq_none.mp searched)]
    exact (zero_add _).symm
  | some value =>
    obtain ⟨hit, before, after, rfl, missed⟩ := List.find?_eq_some_iff_append.mp searched
    rw [List.eraseP_append_right _ (by simpa using missed), List.eraseP_cons_of_pos hit]
    exact Multiset.coe_eq_coe.mpr List.perm_middle

theorem solve_split (ledger : Ledger) (predicates : List Expression) :
    (ledger : Multiset LedgerEntry) = (ledger.solve predicates : Multiset LedgerEntry) + ledger.taken predicates := by
  induction predicates generalizing ledger with
  | nil => exact (add_zero _).symm
  | cons predicate rest further =>
    have split := eraseP_split (fun entry : LedgerEntry => entry.predicate.same predicate) ledger
    have later := further (ledger.eraseP fun entry => entry.predicate.same predicate)
    rw [split, later]
    simp only [solve, List.foldl_cons, taken, ← Multiset.coe_add]
    abel

theorem solve_sublist (ledger : Ledger) (predicates : List Expression) : (ledger.solve predicates).Sublist ledger := by
  induction predicates generalizing ledger with
  | nil => exact List.Sublist.refl _
  | cons predicate rest further => exact (further _).trans List.eraseP_sublist

theorem same_of_mem_taken {ledger : Ledger} {predicates : List Expression} {entry : LedgerEntry}
    (member : entry ∈ ledger.taken predicates) : ∃ predicate ∈ predicates, entry.predicate.same predicate = true := by
  induction predicates generalizing ledger with
  | nil => exact absurd member List.not_mem_nil
  | cons predicate rest further =>
    rcases List.mem_append.mp member with here | later
    · exact ⟨predicate, List.mem_cons_self, (List.find?_some (Option.mem_toList.mp here) :)⟩
    · obtain ⟨other, among, same⟩ := further later
      exact ⟨other, List.mem_cons_of_mem _ among, same⟩

theorem without_split (ledger others : Ledger) :
    (ledger : Multiset LedgerEntry) = (ledger.without others : Multiset LedgerEntry) + ledger.shared others := by
  apply Multiset.coe_eq_coe.mpr
  exact ((List.filter_append_perm _ ledger).symm.trans List.perm_append_comm)

theorem ready_split (ledger : Ledger) (bound : NameSet) :
    (ledger : Multiset LedgerEntry) = (ledger.waiting bound : Multiset LedgerEntry) + ledger.ready bound := by
  apply Multiset.coe_eq_coe.mpr
  exact ((List.filter_append_perm _ ledger).symm.trans List.perm_append_comm)

end Ledger

/-! The entries of a graph. -/

namespace MatchGraph

variable (graph : MatchGraph)

/-- A variable that is neither given from outside nor kept for the ends of loops. -/
def Owns (name : String) : Prop := name ∉ graph.arguments ∧ isReserved name = false

/-- A variable that the graph owns, of a connection that is still to be planned. -/
def Pending (done : List Nat) (name : String) : Prop :=
  graph.Owns name ∧ ∃ index connection, graph.connections[index]? = some connection ∧ index ∉ done ∧ name ∈ connection.exposed

theorem Pending.mono {graph : MatchGraph} {done later : List Nat} {name : String} (pending : graph.Pending later name)
    (more : done ⊆ later) : graph.Pending done name :=
  pending.imp_right fun ⟨index, connection, found, fresh, exposes⟩ =>
    ⟨index, connection, found, fun early => fresh (more early), exposes⟩

/-- The entry reads a variable that is still to be bound. -/
def Awaits (done : List Nat) (entry : LedgerEntry) : Prop := ∃ name ∈ entry.dependencies, graph.Pending done name

end MatchGraph

/-- Nothing has been taken out too early when these connections are planned. -/
structure Ledger.Open (graph : MatchGraph) (done : List Nat) (ledger : Ledger) : Prop where
  known : List.Sublist ledger (Ledger.ofGraph graph)
  awaiting : ∀ entry ∈ Ledger.ofGraph graph, graph.Awaits done entry → entry ∈ ledger

namespace Ledger

variable {graph : MatchGraph}

theorem mem_ofGraph {entry : LedgerEntry} (member : entry ∈ Ledger.ofGraph graph) :
    (entry.obligation = none ∧ entry.predicate ∈ graph.atoms) ∨
      ∃ obligation ∈ graph.obligations, entry.obligation = some obligation ∧ entry.predicate = obligation.predicate := by
  obtain ⟨⟨⟨predicate, obligation⟩, position⟩, indexed, rfl⟩ := List.mem_map.mp member
  rcases List.mem_append.mp (List.fst_mem_of_mem_zipIdx indexed) with atom | check
  · obtain ⟨atom, among, same⟩ := List.mem_map.mp atom
    cases same
    exact .inl ⟨rfl, among⟩
  · obtain ⟨found, among, same⟩ := List.mem_map.mp check
    cases same
    exact .inr ⟨found, among, rfl, rfl⟩

theorem ofGraph_positions (graph : MatchGraph) : ((Ledger.ofGraph graph).map LedgerEntry.position).Nodup := by
  unfold ofGraph
  rw [List.map_map]
  change (List.map Prod.snd _).Nodup
  rw [List.zipIdx_map_snd]
  exact List.nodup_range'

theorem ofGraph_nodup (graph : MatchGraph) : (Ledger.ofGraph graph).Nodup := (ofGraph_positions graph).of_map _

theorem eq_of_position {first second : LedgerEntry} (former : first ∈ Ledger.ofGraph graph) (latter : second ∈ Ledger.ofGraph graph)
    (same : first.position = second.position) : first = second :=
  List.inj_on_of_nodup_map (ofGraph_positions graph) former latter same

theorem Open.all (graph : MatchGraph) (done : List Nat) : Ledger.Open graph done (.ofGraph graph) :=
  ⟨.refl _, fun _ member _ => member⟩

/-- Taking out what waits for nothing keeps a ledger open, also when more has been planned since. -/
theorem Open.shrink {before after : Ledger} {done later : List Nat} {out : Ledger} (opened : Ledger.Open graph done before)
    (sublist : after.Sublist before) (split : (before : Multiset LedgerEntry) = after + out) (more : done ⊆ later)
    (settled : ∀ entry ∈ out, ¬ graph.Awaits later entry) : Ledger.Open graph later after := by
  refine ⟨sublist.trans opened.known, fun entry member awaits => ?_⟩
  have earlier : graph.Awaits done entry := awaits.imp fun _ ⟨reads, pending⟩ => ⟨reads, pending.mono more⟩
  have present : entry ∈ (before : Multiset LedgerEntry) := opened.awaiting entry member earlier
  rw [split, Multiset.mem_add] at present
  exact present.resolve_right fun taken => settled entry taken awaits

end Ledger

end MatchPlanner
