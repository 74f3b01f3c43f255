/-! A finite set of names, kept as its strictly increasing list. Sets with the same members are equal, and every
listing comes out in the order of code points. -/

namespace MatchPlanner

structure NameSet where
  names : List String
  increasing : names.Pairwise (· < ·)
deriving DecidableEq

namespace NameSet

instance : EmptyCollection NameSet := ⟨⟨[], .nil⟩⟩

instance : Membership String NameSet := ⟨fun set name => name ∈ set.names⟩

instance (name : String) (set : NameSet) : Decidable (name ∈ set) := inferInstanceAs (Decidable (name ∈ set.names))

private def place (name : String) : List String → List String
  | [] => [name]
  | first :: rest => if name < first then name :: first :: rest else if name = first then first :: rest else first :: place name rest

private theorem mem_place {other name : String} {names : List String} : other ∈ place name names ↔ other = name ∨ other ∈ names := by
  induction names with
  | nil => simp [place]
  | cons first rest step =>
    simp only [place]
    split
    · simp
    · split
      · next same => simp [same]
      · simp only [List.mem_cons, step]
        grind

private theorem place_increasing (name : String) {names : List String} (increasing : names.Pairwise (· < ·)) :
    (place name names).Pairwise (· < ·) := by
  induction names with
  | nil => simp [place]
  | cons first rest step =>
    rw [List.pairwise_cons] at increasing
    simp only [place]
    split
    · next less =>
      refine List.pairwise_cons.mpr ⟨?_, List.pairwise_cons.mpr increasing⟩
      intro other member
      rcases List.mem_cons.mp member with rfl | member
      · exact less
      · exact String.lt_trans less (increasing.1 other member)
    · split
      · exact List.pairwise_cons.mpr increasing
      · refine List.pairwise_cons.mpr ⟨?_, step increasing.2⟩
        intro other member
        rcases mem_place.mp member with rfl | member
        · grind
        · exact increasing.1 other member

def insert (set : NameSet) (name : String) : NameSet := ⟨place name set.names, place_increasing name set.increasing⟩

def insertAll (set : NameSet) (names : List String) : NameSet := names.foldl insert set

def ofList (names : List String) : NameSet := (∅ : NameSet).insertAll names

def erase (set : NameSet) (name : String) : NameSet := ⟨set.names.filter (· != name), set.increasing.filter _⟩

def filter (set : NameSet) (keep : String → Bool) : NameSet := ⟨set.names.filter keep, set.increasing.filter _⟩

instance : Union NameSet := ⟨fun first second => first.insertAll second.names⟩

instance (set : NameSet) (holds : String → Prop) [DecidablePred holds] : Decidable (∀ name ∈ set, holds name) :=
  inferInstanceAs (Decidable (∀ name ∈ set.names, holds name))

/-- Every member of the first set belongs to the second. -/
def within (first second : NameSet) : Bool := first.names.all fun name => decide (name ∈ second)

def disjoint (first second : NameSet) : Bool := first.names.all fun name => decide (name ∉ second)

def unionOf (sets : List NameSet) : NameSet := sets.foldl (· ∪ ·) ∅

@[simp] theorem mem_names {name : String} {set : NameSet} : name ∈ set.names ↔ name ∈ set := Iff.rfl

@[simp] theorem not_mem_empty (name : String) : name ∉ (∅ : NameSet) := List.not_mem_nil

@[simp] theorem mem_insert {other name : String} {set : NameSet} : other ∈ set.insert name ↔ other = name ∨ other ∈ set := mem_place

@[simp] theorem mem_insertAll {other : String} {set : NameSet} {names : List String} :
    other ∈ set.insertAll names ↔ other ∈ set ∨ other ∈ names := by
  induction names generalizing set with
  | nil => simp [insertAll]
  | cons first rest step =>
    have unfolded : set.insertAll (first :: rest) = (set.insert first).insertAll rest := rfl
    rw [unfolded, step, mem_insert, List.mem_cons]
    grind

@[simp] theorem mem_ofList {name : String} {names : List String} : name ∈ ofList names ↔ name ∈ names := by
  simp [ofList]

@[simp] theorem mem_union {name : String} {first second : NameSet} : name ∈ first ∪ second ↔ name ∈ first ∨ name ∈ second :=
  mem_insertAll

@[simp] theorem mem_erase {other name : String} {set : NameSet} : other ∈ set.erase name ↔ other ∈ set ∧ other ≠ name := by
  simp only [← mem_names, erase, List.mem_filter, bne_iff_ne, ne_eq]

@[simp] theorem mem_filter {name : String} {set : NameSet} {keep : String → Bool} :
    name ∈ set.filter keep ↔ name ∈ set ∧ keep name = true := by
  simp only [← mem_names, filter, List.mem_filter]

theorem within_iff {first second : NameSet} : first.within second = true ↔ ∀ name ∈ first, name ∈ second := by
  simp [within]

theorem disjoint_iff {first second : NameSet} : first.disjoint second = true ↔ ∀ name ∈ first, name ∉ second := by
  simp [disjoint]

/-- Increasing lists with the same members are the same list. -/
theorem ext {first second : NameSet} (same : ∀ name, name ∈ first ↔ name ∈ second) : first = second := by
  obtain ⟨names, increasing⟩ := first
  obtain ⟨others, ordered⟩ := second
  congr 1
  change ∀ name, name ∈ names ↔ name ∈ others at same
  induction names generalizing others with
  | nil => exact (List.eq_nil_iff_forall_not_mem.mpr fun name member => by simpa using (same name).mpr member).symm
  | cons smallest rest step =>
    cases others with
    | nil => exact absurd ((same smallest).mp List.mem_cons_self) List.not_mem_nil
    | cons least remaining =>
      rw [List.pairwise_cons] at increasing ordered
      have agree : smallest = least := by
        have forward := (same smallest).mp List.mem_cons_self
        have backward := (same least).mpr List.mem_cons_self
        grind
      subst agree
      congr 1
      refine step increasing.2 remaining ordered.2 fun name => ?_
      have both := same name
      grind

end NameSet

end MatchPlanner
