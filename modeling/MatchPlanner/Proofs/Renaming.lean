import MatchPlanner.Proofs.Meaning
import MatchPlanner.Proofs.Threading

/-! Renaming a variable. A predicate on the members of a group becomes one on a single step by renaming alone, so what renaming does
to the variables a predicate reads, and to its meaning, decides whether the step is filtered as the clause asks. -/

namespace MatchPlanner

namespace Expression

mutual

/-- No free occurrence of `old` stands where `new` is bound, so that `new` can be put in its place. -/
def FreeFor (old new : String) : Expression → Prop
  | .binary _ left right => FreeFor old new left ∧ FreeFor old new right
  | .negation operand => FreeFor old new operand
  | .call _ arguments => FreeForAll old new arguments
  | .every element list predicate =>
    FreeFor old new list ∧ (element = old ∨ FreeFor old new predicate ∧ (element = new → old ∉ predicate.dependencies))
  | .reference _ | .property _ _ | .literal _ | .parameter _ | .hasLabels _ _ | .hasTypes _ _ | .subquery _ _ => True

def FreeForAll (old new : String) : List Expression → Prop
  | [] => True
  | first :: rest => FreeFor old new first ∧ FreeForAll old new rest

end

variable {old new : String}

mutual

/-- A name that an expression does not read is not there to be replaced. -/
theorem rename_of_unread (expression : Expression) (unread : old ∉ expression.dependencies) :
    expression.rename old new = expression := by
  cases expression with
  | literal | parameter => rfl
  | reference | property | hasLabels | hasTypes =>
    simp only [dependencies, NameSet.mem_ofList, List.mem_singleton] at unread
    rw [rename, renameName, if_neg (Ne.symm unread)]
  | binary operator left right =>
    simp only [dependencies, NameSet.mem_union, not_or] at unread
    rw [rename, rename_of_unread left unread.1, rename_of_unread right unread.2]
  | negation operand => exact congrArg Expression.negation (rename_of_unread operand unread)
  | call function arguments => exact congrArg (Expression.call function) (renameAll_of_unread arguments unread)
  | every element list predicate =>
    simp only [dependencies, NameSet.mem_union, NameSet.mem_erase, not_or, not_and_not_right] at unread
    rw [rename, rename_of_unread list unread.1]
    split
    · rfl
    next other => rw [rename_of_unread predicate fun reads => other (unread.2 reads).symm]
  | subquery reads text =>
    simp only [dependencies, NameSet.mem_ofList] at unread
    have kept : ∀ name ∈ reads, renameName old new name = name := by
      rintro name member
      rw [renameName, if_neg]
      rintro rfl
      exact unread member
    rw [rename, List.map_congr_left kept, List.map_id']

theorem renameAll_of_unread (expressions : List Expression) (unread : old ∉ dependenciesOfAll expressions) :
    renameAll old new expressions = expressions := by
  cases expressions with
  | nil => rfl
  | cons first rest =>
    simp only [dependenciesOfAll, NameSet.mem_union, not_or] at unread
    rw [renameAll, rename_of_unread first unread.1, renameAll_of_unread rest unread.2]

end

theorem eq_renameName_iff {name other : String} :
    name = renameName old new other ↔ name = other ∧ name ≠ old ∨ name = new ∧ old = other := by
  unfold renameName
  split <;> grind

mutual

/-- Where nothing is captured, the new name takes the place of the old one among the variables read. -/
theorem mem_dependencies_rename_iff {name : String} (expression : Expression) (free : expression.FreeFor old new) :
    name ∈ (expression.rename old new).dependencies ↔
      name ∈ expression.dependencies ∧ name ≠ old ∨ name = new ∧ old ∈ expression.dependencies := by
  cases expression with
  | literal | parameter => simp [rename, dependencies]
  | reference | property | hasLabels | hasTypes =>
    simp only [rename, dependencies, NameSet.mem_ofList, List.mem_singleton]
    exact eq_renameName_iff
  | binary operator left right =>
    simp only [rename, dependencies, NameSet.mem_union, mem_dependencies_rename_iff left free.1,
      mem_dependencies_rename_iff right free.2]
    grind
  | negation operand => exact mem_dependencies_rename_iff operand free
  | call function arguments => exact mem_dependenciesOfAll_renameAll_iff arguments free
  | every element list predicate =>
    simp only [rename, dependencies, NameSet.mem_union, NameSet.mem_erase, mem_dependencies_rename_iff list free.1]
    split
    next shadowed =>
      -- Below its own binder the old name is another variable, and it stays.
      grind
    next =>
      obtain ⟨inside, uncaptured⟩ := free.2.resolve_left ‹_›
      rw [mem_dependencies_rename_iff predicate inside]
      grind
  | subquery reads text =>
    simp only [rename, dependencies, NameSet.mem_ofList, List.mem_map, @eq_comm _ _ name, eq_renameName_iff]
    grind

theorem mem_dependenciesOfAll_renameAll_iff {name : String} (expressions : List Expression) (free : FreeForAll old new expressions) :
    name ∈ dependenciesOfAll (renameAll old new expressions) ↔
      name ∈ dependenciesOfAll expressions ∧ name ≠ old ∨ name = new ∧ old ∈ dependenciesOfAll expressions := by
  cases expressions with
  | nil => simp [renameAll, dependenciesOfAll]
  | cons first rest =>
    simp only [renameAll, dependenciesOfAll, NameSet.mem_union, mem_dependencies_rename_iff first free.1,
      mem_dependenciesOfAll_renameAll_iff rest free.2]
    grind

end

variable {Value : Type} {reading : Interpretation Value}

theorem row_renameName (row : String → Value) (name : String) :
    row (renameName old new name) = Function.update row old (row new) name := by
  unfold renameName
  split
  next same => rw [same, Function.update_self]
  next different => rw [Function.update_of_ne different]

mutual

/-- Where nothing is captured, the renamed expression means what the expression means when the old name stands for the value of the
new one. -/
theorem value_rename {row : String → Value} (expression : Expression) (free : expression.FreeFor old new) :
    (expression.rename old new).value reading row = expression.value reading (Function.update row old (row new)) := by
  cases expression with
  | literal | parameter => rfl
  | reference | property | hasLabels | hasTypes => simp only [rename, value, row_renameName row]
  | binary operator left right => rw [rename, value, value, value_rename left free.1, value_rename right free.2]
  | negation operand => exact congrArg reading.negate (value_rename operand free)
  | call function arguments => exact congrArg (reading.call function) (values_renameAll arguments free)
  | every element list predicate =>
    rw [rename, value, value, value_rename list free.1]
    congr 1
    funext member
    split
    next shadowed => rw [shadowed, Function.update_idem]
    next other =>
      obtain ⟨inside, uncaptured⟩ := free.2.resolve_left other
      rw [Function.update_comm (Ne.symm other)]
      by_cases bound : element = new
      · rw [rename_of_unread predicate (uncaptured bound)]
        refine value_congr predicate fun name reads => ?_
        have different : name ≠ old := by
          rintro rfl
          exact uncaptured bound reads
        rw [Function.update_of_ne different]
      · rw [value_rename predicate inside, Function.update_of_ne (Ne.symm bound)]
  | subquery reads text =>
    rw [rename, value, value, List.map_map]
    exact congrArg (reading.subquery text) (List.map_congr_left fun name _ => row_renameName row name)

theorem values_renameAll {row : String → Value} (expressions : List Expression) (free : FreeForAll old new expressions) :
    values reading row (renameAll old new expressions) = values reading (Function.update row old (row new)) expressions := by
  cases expressions with
  | nil => rfl
  | cons first rest => rw [renameAll, values, values, value_rename first free.1, values_renameAll rest free.2]

end

end Expression

/-- The form for a single step is the predicate on the members of the group with the inner variable for the iteration variable. -/
theorem QuantifiedPattern.perStep_of_extract? {pattern : QuantifiedPattern} {bound : NameSet} {element : String}
    {list predicate : Expression} {extracted : ExtractedPredicate}
    (found : pattern.extract? bound (.every element list predicate) = some extracted) :
    extracted.perStep = predicate.rename element extracted.singleton := by
  unfold extract? at found
  split at found
  next same =>
    cases same
    split at found
    · split at found
      · cases found
        rfl
      · cases found
    · cases found
  next => cases found

namespace Expression

/-- Renaming law. A name that is not read is left alone. Where the new name is free for the old one, it takes its place among the
variables read and in the meaning of the expression, and a predicate for a single step reads the inner variable in the place of the
iteration variable. -/
theorem rename_substitutes (expression : Expression) (old new : String) :
    (old ∉ expression.dependencies → expression.rename old new = expression) ∧
    (expression.FreeFor old new →
      (old ∈ expression.dependencies →
        (expression.rename old new).dependencies = (expression.dependencies.erase old).insert new) ∧
      (∀ {Value : Type} (reading : Interpretation Value) (row : String → Value),
        (expression.rename old new).value reading row = expression.value reading (Function.update row old (row new))) ∧
      ∀ (pattern : QuantifiedPattern) (bound : NameSet) (list : Expression) (extracted : ExtractedPredicate),
        pattern.extract? bound (.every old list expression) = some extracted → extracted.singleton = new →
          extracted.perStep.dependencies = if old ∈ expression.dependencies then (expression.dependencies.erase old).insert new
            else expression.dependencies.erase old) := by
  refine ⟨rename_of_unread expression, fun free => ⟨fun read => ?_, fun _ _ => value_rename expression free, ?_⟩⟩
  · refine NameSet.ext fun name => ?_
    rw [mem_dependencies_rename_iff expression free, NameSet.mem_insert, NameSet.mem_erase]
    grind
  · rintro pattern bound list extracted found rfl
    refine NameSet.ext fun name => ?_
    rw [QuantifiedPattern.perStep_of_extract? found, mem_dependencies_rename_iff expression free]
    split <;> simp only [NameSet.mem_insert, NameSet.mem_erase] <;> grind

/-- Every member of `a.q`, read under a name of choice, agrees with `x`. -/
def agreeing (binder : String) : Expression :=
  .every binder (.property "a" "q") (.equals (.property "x" "s") (.property binder "s"))

/-- The members are read as `y`, so the relationship `r` of the step can be put in the place of `x`. -/
theorem agreeing_substituted : (agreeing "y").FreeFor "x" "r" ∧ "x" ∈ (agreeing "y").dependencies ∧
    ((agreeing "y").rename "x" "r").dependencies = .ofList ["a", "r"] ∧
    ∃ extracted, QuantifiedDraft.short.pattern.extract? (.ofList ["a"]) (.every "x" (.reference "r") (agreeing "y")) = some extracted ∧
      extracted.perStep.dependencies = .ofList ["a", "r"] := by
  have free : (agreeing "y").FreeFor "x" "r" := by simp [agreeing, FreeFor, equals]
  have read : "x" ∈ (agreeing "y").dependencies := by decide +kernel
  obtain ⟨renamed, -, perStep⟩ := (rename_substitutes (agreeing "y") "x" "r").2 free
  obtain ⟨extracted, found, single⟩ : ∃ extracted, QuantifiedDraft.short.pattern.extract? (.ofList ["a"])
      (.every "x" (.reference "r") (agreeing "y")) = some extracted ∧ extracted.singleton = "r" := ⟨_, rfl, rfl⟩
  exact ⟨free, read, (renamed read).trans (by decide +kernel), extracted, found,
    (perStep _ _ _ extracted found single).trans (by decide +kernel)⟩

/-- When the members are read as `r`, the relationship of the step is captured in the place of `x`. -/
theorem agreeing_captured : QuantifiedDraft.short.build = .ok QuantifiedDraft.short.pattern ∧ "x" ∈ (agreeing "r").dependencies ∧
    ((agreeing "r").rename "x" "r").dependencies ≠ ((agreeing "r").dependencies.erase "x").insert "r" ∧
    ∃ extracted, QuantifiedDraft.short.pattern.extract? (.ofList ["a"]) (.every "x" (.reference "r") (agreeing "r")) = some extracted ∧
      extracted.singleton = "r" ∧ "r" ∉ extracted.perStep.dependencies := by
  refine ⟨rfl, ?_, ?_, _, rfl, rfl, ?_⟩ <;> decide +kernel

end Expression

end MatchPlanner
