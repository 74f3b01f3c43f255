import MatchPlanner.Expression.Printer
import MatchPlanner.Proofs.Meaning

/-! What the text of a predicate tells about it. Groups are shown by parentheses around AND and OR alone, so a comparison, a sum
or a negation under an operator that is neither leaves no trace of where it ends. A reader that takes a text apart again finds
the predicate up to that, and up to the order in which ANDs are grouped. -/

namespace MatchPlanner

/-- An operator other than AND and OR. -/
def BinaryOperator.IsTight (operator : BinaryOperator) : Prop := operator ≠ .and ∧ operator ≠ .or

theorem BinaryOperator.isTight_or (operator : BinaryOperator) : operator.IsTight ∨ operator = .and ∨ operator = .or := by
  by_cases tight : operator.IsTight
  · exact .inl tight
  · exact .inr (by simpa [IsTight, or_iff_not_imp_left] using tight)

namespace Expression

/-- A name that is one word of a text, and no keyword. -/
structure IsIdentifier (name : String) : Prop where
  nonempty : name ≠ ""
  unbroken : ∀ letter ∈ name.toList, letter ≠ ' ' ∧ letter ≠ '(' ∧ letter ≠ ')'
  not_negation : name ≠ "NOT"
  not_operator : ∀ operator : BinaryOperator, name ≠ operator.symbol

/-- An expression of variables, negations and operators. -/
inductive Plain : Expression → Prop where
  | reference {name : String} (identifier : IsIdentifier name) : Plain (.reference name)
  | binary (operator : BinaryOperator) {left right : Expression} (plain : Plain left) (plain' : Plain right) :
    Plain (.binary operator left right)
  | negation {operand : Expression} (plain : Plain operand) : Plain (.negation operand)

/-- The two expressions are one up to the grouping of ANDs. A `loose` comparison forgets also how operators other than AND and OR
are grouped among themselves and under a negation. -/
inductive Regroups (loose : Bool) : Expression → Expression → Prop where
  | refl (expression : Expression) : Regroups loose expression expression
  | symm {first second : Expression} : Regroups loose first second → Regroups loose second first
  | trans {first second third : Expression} :
    Regroups loose first second → Regroups loose second third → Regroups loose first third
  | binary (operator : BinaryOperator) {left left' right right' : Expression} :
    Regroups loose left left' → Regroups loose right right' →
      Regroups loose (.binary operator left right) (.binary operator left' right')
  | negation {operand operand' : Expression} :
    Regroups loose operand operand' → Regroups loose (.negation operand) (.negation operand')
  | conjunction (first second third : Expression) :
    Regroups loose (.binary .and (.binary .and first second) third) (.binary .and first (.binary .and second third))
  | chain {operator operator' : BinaryOperator} (first second third : Expression) :
    loose = true → operator.IsTight → operator'.IsTight →
      Regroups loose (.binary operator' (.binary operator first second) third)
        (.binary operator first (.binary operator' second third))
  | negated {operator : BinaryOperator} (left right : Expression) :
    loose = true → operator.IsTight →
      Regroups loose (.binary operator (.negation left) right) (.negation (.binary operator left right))

/-- What stays together in a text under every operator but AND: a variable, or a predicate that gets parentheses there. -/
def IsUnit : Expression → Prop
  | .reference _ => True
  | expression => expression.isLogical = true

/-- Operators other than AND and OR have units for operands. -/
def Clear : Expression → Prop
  | .binary operator left right => Clear left ∧ Clear right ∧ (operator.IsTight → left.IsUnit ∧ right.IsUnit)
  | .negation operand => Clear operand
  | _ => True

/-! ## Regrouped expressions have one text -/

variable {loose : Bool}

theorem isLogical_of_tight {operator : BinaryOperator} (tight : operator.IsTight) (left right : Expression) :
    (Expression.binary operator left right).isLogical = false := by
  obtain ⟨not_and, not_or⟩ := tight
  cases operator <;> first | rfl | contradiction

theorem isLogical_binary (operator : BinaryOperator) (left right left' right' : Expression) :
    (Expression.binary operator left right).isLogical = (Expression.binary operator left' right').isLogical := by
  cases operator <;> rfl

/-- The text of an operand of a negation, or of an operator other than AND. -/
def nested (operand : Expression) : String := parenthesized operand.isLogical operand.render

theorem render_conjunction (left right : Expression) :
    (Expression.binary .and left right).render = left.render ++ " AND " ++ right.render := by
  simp [render, parenthesized, BinaryOperator.symbol, String.append_assoc]

theorem render_binary {operator : BinaryOperator} (not_and : operator ≠ .and) (left right : Expression) :
    (Expression.binary operator left right).render = left.nested ++ " " ++ operator.symbol ++ " " ++ right.nested := by
  have parted : (operator != .and) = true := bne_iff_ne.mpr not_and
  simp only [render, nested, parted, Bool.true_and]

theorem nested_binary {operator : BinaryOperator} (tight : operator.IsTight) (left right : Expression) :
    (Expression.binary operator left right).nested = left.nested ++ " " ++ operator.symbol ++ " " ++ right.nested := by
  rw [nested, isLogical_of_tight tight, ← render_binary tight.1]
  rfl

theorem Regroups.render_eq {first second : Expression} (regroups : Regroups loose first second) :
    first.isLogical = second.isLogical ∧ first.render = second.render := by
  induction regroups with
  | refl => exact ⟨rfl, rfl⟩
  | symm _ same => exact ⟨same.1.symm, same.2.symm⟩
  | trans _ _ same same' => exact ⟨same.1.trans same'.1, same.2.trans same'.2⟩
  | binary operator _ _ same same' =>
    refine ⟨isLogical_binary .., ?_⟩
    simp only [render, same.1, same.2, same'.1, same'.2]
  | negation _ same =>
    refine ⟨rfl, ?_⟩
    simp only [render, same.1, same.2]
  | conjunction first second third =>
    refine ⟨rfl, ?_⟩
    simp only [render_conjunction, String.append_assoc]
  | chain first second third _ tight tight' =>
    refine ⟨by rw [isLogical_of_tight tight, isLogical_of_tight tight'], ?_⟩
    simp only [render_binary tight.1, render_binary tight'.1, nested_binary tight, nested_binary tight', String.append_assoc]
  | negated left right _ tight =>
    refine ⟨isLogical_of_tight tight .., ?_⟩
    have negation (operand : Expression) : (Expression.negation operand).render = "NOT " ++ operand.nested := rfl
    have alone : (Expression.negation left).nested = "NOT " ++ left.nested := rfl
    simp only [render_binary tight.1, negation, alone, nested_binary tight, String.append_assoc]

/-! ## The words of a text -/

/-- A word of a text, or what stands between two parentheses. -/
inductive Piece where
  | word (text : String)
  | group (inner : List Piece)

/-- A reader within a text: the letters of the word it is in, the pieces since the last parenthesis that is still open, and the
pieces before each of these. -/
structure Reader where
  word : List Char
  pieces : List Piece
  enclosing : List (List Piece)

namespace Reader

def flush (reader : Reader) : Reader :=
  if reader.word = [] then reader
  else { reader with word := [], pieces := reader.pieces ++ [.word (String.ofList reader.word)] }

def step (reader : Reader) (letter : Char) : Reader :=
  if letter = ' ' then reader.flush
  else if letter = '(' then ⟨[], [], reader.flush.pieces :: reader.enclosing⟩
  else if letter = ')' then
    match reader.enclosing with
    | [] => reader.flush
    | outer :: further => ⟨[], outer ++ [.group reader.flush.pieces], further⟩
  else { reader with word := reader.word ++ [letter] }

end Reader

/-- Wherever a word may begin, a reader finds these pieces in the text. -/
def Reads (text : String) (pieces : List Piece) : Prop :=
  ∀ before enclosing,
    (text.toList.foldl Reader.step ⟨[], before, enclosing⟩).flush = ⟨[], before ++ pieces, enclosing⟩

theorem Reads.unique {text : String} {pieces pieces' : List Piece} (reads : Reads text pieces) (reads' : Reads text pieces') :
    pieces = pieces' := by
  have same := (reads [] []).symm.trans (reads' [] [])
  simpa using congrArg Reader.pieces same

theorem foldl_word (letters : List Char) (unbroken : ∀ letter ∈ letters, letter ≠ ' ' ∧ letter ≠ '(' ∧ letter ≠ ')')
    (reader : Reader) : letters.foldl Reader.step reader = { reader with word := reader.word ++ letters } := by
  induction letters generalizing reader with
  | nil => simp
  | cons letter letters hypothesis =>
    obtain ⟨blank, opening, closing⟩ := unbroken letter List.mem_cons_self
    rw [List.foldl_cons, hypothesis fun other member => unbroken other (List.mem_cons_of_mem _ member)]
    simp [Reader.step, blank, opening, closing]

theorem reads_word {text : String} (nonempty : text ≠ "")
    (unbroken : ∀ letter ∈ text.toList, letter ≠ ' ' ∧ letter ≠ '(' ∧ letter ≠ ')') : Reads text [.word text] := by
  intro before enclosing
  rw [foldl_word _ unbroken]
  simp [Reader.flush, nonempty]

theorem reads_symbol (operator : BinaryOperator) : Reads operator.symbol [.word operator.symbol] := by
  apply reads_word <;> cases operator <;> simp [BinaryOperator.symbol]

theorem Reads.spaced {text text' : String} {pieces pieces' : List Piece} (reads : Reads text pieces)
    (reads' : Reads text' pieces') : Reads (text ++ " " ++ text') (pieces ++ pieces') := by
  intro before enclosing
  have blank (reader : Reader) : reader.step ' ' = reader.flush := rfl
  simp only [String.toList_append, List.foldl_append, show " ".toList = [' '] from rfl, List.foldl_cons, List.foldl_nil, blank]
  rw [reads, reads', List.append_assoc]

/-- The pieces of a text that may stand in parentheses. -/
def enclosed (needed : Bool) (pieces : List Piece) : List Piece := if needed then [.group pieces] else pieces

theorem Reads.parenthesized {text : String} {pieces : List Piece} (reads : Reads text pieces) (needed : Bool) :
    Reads (parenthesized needed text) (enclosed needed pieces) := by
  cases needed with
  | false => exact reads
  | true =>
    intro before enclosing
    have inside := reads [] (before :: enclosing)
    simp only [Expression.parenthesized, enclosed, if_true, String.toList_append, List.foldl_append,
      show "(".toList = ['('] from rfl, show ")".toList = [')'] from rfl, List.foldl_cons, List.foldl_nil]
    generalize result : text.toList.foldl Reader.step _ = reader
    have opened : Reader.step ⟨[], before, enclosing⟩ '(' = ⟨[], [], before :: enclosing⟩ := rfl
    rw [opened] at result
    rw [result] at inside
    have kept : reader.flush.enclosing = reader.enclosing := by unfold Reader.flush; split <;> rfl
    rw [inside] at kept
    have closed : reader.step ')' = ⟨[], before ++ [.group reader.flush.pieces], enclosing⟩ := by
      simp [Reader.step, ← kept]
    rw [closed, inside]
    rfl

/-- The pieces of the text of a plain expression. -/
def pieces : Expression → List Piece
  | .reference name => [.word name]
  | .binary operator left right =>
    enclosed (operator != .and && left.isLogical) (pieces left) ++ .word operator.symbol ::
      enclosed (operator != .and && right.isLogical) (pieces right)
  | .negation operand => .word "NOT" :: enclosed operand.isLogical (pieces operand)
  | _ => []

theorem reads_render {expression : Expression} (plain : expression.Plain) : Reads expression.render expression.pieces := by
  induction plain with
  | reference identifier =>
    rw [render]
    exact reads_word identifier.nonempty identifier.unbroken
  | binary operator _ _ reads reads' =>
    rw [render, pieces, List.append_cons]
    exact ((reads.parenthesized _).spaced (reads_symbol operator)).spaced (reads'.parenthesized _)
  | negation _ reads =>
    have keyword : Reads "NOT" [.word "NOT"] := reads_word (by simp) (by simp)
    exact keyword.spaced (reads.parenthesized _)

/-! ## The predicate of a text -/

/-- What the beginning of a text says: an expression that no AND or OR has entered, the alternative after OR, and what follows the
first AND. -/
structure Reading where
  first : Expression
  alternative : Option Expression
  others : Option Expression

def Reading.whole (reading : Reading) : Expression :=
  let disjunction := reading.alternative.elim reading.first (.binary .or reading.first)
  reading.others.elim disjunction (.binary .and disjunction)

def Reading.negated (reading : Reading) : Reading := { reading with first := .negation reading.first }

/-- What follows an operand. -/
inductive Continuation where
  | finished
  | joined (operator : BinaryOperator) (following : Reading)

/-- Where nothing says how operators other than AND and OR are grouped, they are grouped to the right. -/
def attach (operand : Expression) : Continuation → Reading
  | .finished => ⟨operand, none, none⟩
  | .joined .and following => ⟨operand, none, some following.whole⟩
  | .joined .or following => ⟨operand, some following.first, following.others⟩
  | .joined operator following => ⟨.binary operator operand following.first, following.alternative, following.others⟩

def operators : List BinaryOperator :=
  [.equal, .notEqual, .lessThan, .lessEqual, .greaterThan, .greaterEqual, .and, .or, .isIn, .plus, .minus]

/-- The operator a word stands for. -/
def operator? (text : String) : Option BinaryOperator := operators.find? (·.symbol = text)

mutual

/-- Reads an expression at the beginning of the pieces. A negation extends as far as it can. -/
def reading : List Piece → Reading
  | [] => ⟨.reference "", none, none⟩
  | .word text :: rest =>
    if text = "NOT" then (reading rest).negated
    else attach (.reference text) (continuation rest)
  | .group inner :: rest => attach (reading inner).whole (continuation rest)

def continuation : List Piece → Continuation
  | [] => .finished
  | .word text :: rest => (operator? text).elim .finished (.joined · (reading rest))
  | .group _ :: _ => .finished

end

theorem continuation_operator (operator : BinaryOperator) (rest : List Piece) :
    continuation (.word operator.symbol :: rest) = .joined operator (reading rest) := by
  have known : operator? operator.symbol = some operator := by cases operator <;> decide
  rw [continuation, known, Option.elim_some]

theorem reading_reference {name : String} (identifier : IsIdentifier name) (rest : List Piece) :
    reading (.word name :: rest) = attach (.reference name) (continuation rest) := by
  rw [reading, if_neg identifier.not_negation]

/-- The two readings are one up to grouping. -/
structure Reading.Regroups (loose : Bool) (reading reading' : Reading) : Prop where
  first : Expression.Regroups loose reading.first reading'.first
  alternative : Option.Rel (Expression.Regroups loose) reading.alternative reading'.alternative
  others : Option.Rel (Expression.Regroups loose) reading.others reading'.others

namespace Reading.Regroups

variable {reading reading' reading'' : Reading}

theorem option_refl (value : Option Expression) : Option.Rel (Expression.Regroups loose) value value := by
  cases value with
  | none => exact .none
  | some expression => exact .some (.refl expression)

theorem option_trans {value value' value'' : Option Expression} (regroups : Option.Rel (Expression.Regroups loose) value value')
    (regroups' : Option.Rel (Expression.Regroups loose) value' value'') :
    Option.Rel (Expression.Regroups loose) value value'' := by
  cases regroups with
  | none => exact regroups'
  | some first => cases regroups' with | some second => exact .some (first.trans second)

theorem of_first {first first' : Expression} (regroups : Expression.Regroups loose first first')
    (alternative others : Option Expression) :
    Reading.Regroups loose ⟨first, alternative, others⟩ ⟨first', alternative, others⟩ :=
  ⟨regroups, option_refl _, option_refl _⟩

theorem refl (reading : Reading) : Reading.Regroups loose reading reading := of_first (.refl _) _ _

theorem trans (regroups : Reading.Regroups loose reading reading') (regroups' : Reading.Regroups loose reading' reading'') :
    Reading.Regroups loose reading reading'' :=
  ⟨regroups.first.trans regroups'.first, option_trans regroups.alternative regroups'.alternative,
    option_trans regroups.others regroups'.others⟩

theorem negated (regroups : Reading.Regroups loose reading reading') :
    Reading.Regroups loose reading.negated reading'.negated :=
  ⟨.negation regroups.first, regroups.alternative, regroups.others⟩

theorem whole (regroups : Reading.Regroups loose reading reading') :
    Expression.Regroups loose reading.whole reading'.whole := by
  obtain ⟨first, alternative, others⟩ := reading
  obtain ⟨first', alternative', others'⟩ := reading'
  obtain ⟨same, sameAlternative, sameOthers⟩ := regroups
  have disjunction : Expression.Regroups loose (alternative.elim first (.binary .or first))
      (alternative'.elim first' (.binary .or first')) := by
    cases sameAlternative with
    | none => exact same
    | some same' => exact .binary .or same same'
  cases sameOthers with
  | none => exact disjunction
  | some same' => exact .binary .and disjunction same'

end Reading.Regroups

theorem attach_tight {operator : BinaryOperator} (tight : operator.IsTight) (operand : Expression) (following : Reading) :
    attach operand (.joined operator following) =
      ⟨.binary operator operand following.first, following.alternative, following.others⟩ := by
  obtain ⟨not_and, not_or⟩ := tight
  cases operator <;> first | rfl | contradiction

theorem attach_operand {operand operand' : Expression} (regroups : Regroups loose operand operand') (next : Continuation) :
    Reading.Regroups loose (attach operand next) (attach operand' next) := by
  unfold attach
  split
  · exact .of_first regroups _ _
  · exact .of_first regroups _ _
  · exact .of_first regroups _ _
  · exact .of_first (.binary _ regroups (.refl _)) _ _

theorem attach_following {following following' : Reading} (regroups : Reading.Regroups loose following following')
    (operand : Expression) (operator : BinaryOperator) :
    Reading.Regroups loose (attach operand (.joined operator following)) (attach operand (.joined operator following')) := by
  obtain tight | rfl | rfl := operator.isTight_or
  · rw [attach_tight tight, attach_tight tight]
    exact ⟨.binary operator (.refl operand) regroups.first, regroups.alternative, regroups.others⟩
  · exact ⟨.refl operand, .none, .some regroups.whole⟩
  · exact ⟨.refl operand, .some regroups.first, regroups.others⟩

/-- No operator but AND and OR follows. -/
def Continuation.IsLoose : Continuation → Prop
  | .finished => True
  | .joined operator _ => ¬operator.IsTight

/-- An operator that ends in an operand takes what follows the operand, and a negation does. -/
theorem attach_attach {operator : BinaryOperator} (tight : operator.IsTight) (left right : Expression) (next : Continuation)
    (settled : loose = true ∨ next.IsLoose) :
    Reading.Regroups loose (attach left (.joined operator (attach right next))) (attach (.binary operator left right) next) := by
  rw [attach_tight tight]
  cases next with
  | finished => exact .refl _
  | joined operator' following =>
    obtain tight' | rfl | rfl := operator'.isTight_or
    · rw [attach_tight tight', attach_tight tight']
      have forgets : loose = true := settled.resolve_right fun parted : ¬operator'.IsTight => parted tight'
      exact .of_first (.symm (.chain _ _ _ forgets tight tight')) _ _
    · exact .refl _
    · exact .refl _

theorem negated_attach (operand : Expression) (next : Continuation) (settled : loose = true ∨ next.IsLoose) :
    Reading.Regroups loose (attach operand next).negated (attach (.negation operand) next) := by
  cases next with
  | finished => exact .refl _
  | joined operator following =>
    obtain tight | rfl | rfl := operator.isTight_or
    · rw [attach_tight tight, attach_tight tight]
      have forgets : loose = true := settled.resolve_right fun parted : ¬operator.IsTight => parted tight
      exact .of_first (.symm (.negated _ _ forgets tight)) _ _
    · exact .refl _
    · exact .refl _

/-- Nothing follows but AND. -/
def Continuation.Conjoins : Continuation → Prop
  | .finished => True
  | .joined operator _ => operator = .and

def Continuation.conjoin (operand : Expression) : Continuation → Expression
  | .finished => operand
  | .joined operator following => .binary operator operand following.whole

theorem Continuation.Conjoins.isLoose {next : Continuation} (conjoins : next.Conjoins) : next.IsLoose := by
  cases next with
  | finished => trivial
  | joined operator following => exact fun tight : operator.IsTight => tight.1 conjoins

theorem continuation_nil : continuation [] = .finished := by rw [continuation]

theorem whole_attach {next : Continuation} (conjoins : next.Conjoins) (operand : Expression) :
    (attach operand next).whole = next.conjoin operand := by
  cases next with
  | finished => rfl
  | joined operator following => cases conjoins; rfl

/-- The expression is found at the beginning of a text, with what follows it. -/
def FoundWhole (loose : Bool) (expression : Expression) : Prop :=
  ∀ rest, (loose = true ∨ expression.Clear) → (continuation rest).Conjoins →
    Regroups loose (reading (expression.pieces ++ rest)).whole ((continuation rest).conjoin expression)

/-- The expression is found as an operand at the beginning of a text. -/
def FoundNested (loose : Bool) (expression : Expression) : Prop :=
  ∀ rest, (loose = true ∨ expression.Clear ∧ (expression.IsUnit ∨ (continuation rest).IsLoose)) →
    Reading.Regroups loose (reading (enclosed expression.isLogical expression.pieces ++ rest))
      (attach expression (continuation rest))

theorem FoundNested.foundWhole {expression : Expression} (found : FoundNested loose expression)
    (alone : expression.isLogical = false) : FoundWhole loose expression := by
  intro rest settled conjoins
  have here := (found rest (settled.imp_right fun clear => ⟨clear, .inr conjoins.isLoose⟩)).whole
  rwa [whole_attach conjoins, alone] at here

theorem FoundWhole.foundNested {expression : Expression} (found : FoundWhole loose expression)
    (logical : expression.isLogical = true) : FoundNested loose expression := by
  intro rest settled
  rw [logical]
  have inside := found [] (settled.imp_right And.left) (by rw [continuation_nil]; trivial)
  rw [List.append_nil, continuation_nil] at inside
  have opened : reading (enclosed true expression.pieces ++ rest) =
      attach (reading expression.pieces).whole (continuation rest) := by
    rw [enclosed, if_pos rfl, List.cons_append, List.nil_append, reading]
  rw [opened]
  exact attach_operand inside _

theorem pieces_binary {operator : BinaryOperator} (not_and : operator ≠ .and) (left right : Expression) (rest : List Piece) :
    (Expression.binary operator left right).pieces ++ rest =
      enclosed left.isLogical left.pieces ++
        .word operator.symbol :: (enclosed right.isLogical right.pieces ++ rest) := by
  have parted : (operator != .and) = true := bne_iff_ne.mpr not_and
  simp only [pieces, parted, Bool.true_and, List.append_assoc, List.cons_append]

theorem foundWhole_conjunction {left right : Expression} (found : FoundWhole loose left) (found' : FoundWhole loose right) :
    FoundWhole loose (.binary .and left right) := by
  intro rest settled conjoins
  have pieces_eq : (Expression.binary .and left right).pieces ++ rest =
      left.pieces ++ .word BinaryOperator.and.symbol :: (right.pieces ++ rest) := by
    simp [pieces, enclosed]
  have next := continuation_operator .and (right.pieces ++ rest)
  have former := found (.word BinaryOperator.and.symbol :: (right.pieces ++ rest)) (settled.imp_right And.left) (next ▸ rfl)
  have latter := found' rest (settled.imp_right fun clear => clear.2.1) conjoins
  rw [next] at former
  rw [pieces_eq]
  refine former.trans (.trans (.binary .and (.refl left) latter) ?_)
  cases following : continuation rest with
  | finished => exact .refl _
  | joined operator reading =>
    rw [following] at conjoins
    cases conjoins
    exact .symm (.conjunction left right reading.whole)

theorem foundWhole_disjunction {left right : Expression} (found : FoundNested loose left) (found' : FoundNested loose right) :
    FoundWhole loose (.binary .or left right) := by
  intro rest settled conjoins
  have next := continuation_operator .or (enclosed right.isLogical right.pieces ++ rest)
  have former := found (.word BinaryOperator.or.symbol :: (enclosed right.isLogical right.pieces ++ rest))
    (settled.imp_right fun clear => ⟨clear.1, .inr (next ▸ fun tight : BinaryOperator.or.IsTight => tight.2 rfl)⟩)
  have latter := found' rest (settled.imp_right fun clear => ⟨clear.2.1, .inr conjoins.isLoose⟩)
  rw [next] at former
  rw [pieces_binary (by decide)]
  refine (former.trans (attach_following latter left .or)).whole.trans ?_
  cases following : continuation rest with
  | finished => exact .refl _
  | joined operator reading =>
    rw [following] at conjoins
    cases conjoins
    exact .refl _

theorem foundNested_binary {operator : BinaryOperator} (tight : operator.IsTight) {left right : Expression}
    (found : FoundNested loose left) (found' : FoundNested loose right) : FoundNested loose (.binary operator left right) := by
  intro rest settled
  have next := continuation_operator operator (enclosed right.isLogical right.pieces ++ rest)
  have parted : ¬(Expression.binary operator left right).IsUnit := fun unit : _ = true => by
    rw [isLogical_of_tight tight] at unit
    cases unit
  have former := found (.word operator.symbol :: (enclosed right.isLogical right.pieces ++ rest))
    (settled.imp_right fun clear => ⟨clear.1.1, .inl (clear.1.2.2 tight).1⟩)
  have latter := found' rest (settled.imp_right fun clear => ⟨clear.1.2.1, .inl (clear.1.2.2 tight).2⟩)
  rw [next] at former
  rw [isLogical_of_tight tight, enclosed, if_neg Bool.false_ne_true, pieces_binary tight.1]
  refine (former.trans (attach_following latter left operator)).trans (attach_attach tight left right _ ?_)
  exact settled.imp_right fun clear => clear.2.resolve_left parted

theorem foundNested_negation {operand : Expression} (found : FoundNested loose operand) :
    FoundNested loose (.negation operand) := by
  intro rest settled
  have parted : ¬(Expression.negation operand).IsUnit := fun unit : false = true => Bool.false_ne_true unit
  have following := settled.imp_right fun clear => clear.2.resolve_left parted
  have inner := found rest (settled.imp_right fun clear => ⟨clear.1, .inr (clear.2.resolve_left parted)⟩)
  have opened : reading (.word "NOT" :: (enclosed operand.isLogical operand.pieces ++ rest)) =
      (reading (enclosed operand.isLogical operand.pieces ++ rest)).negated := by
    rw [reading, if_pos rfl]
  exact opened ▸ inner.negated.trans (negated_attach operand _ following)

theorem foundNested_reference {name : String} (identifier : IsIdentifier name) : FoundNested loose (.reference name) := by
  intro rest _
  have opened := reading_reference identifier rest
  exact opened ▸ .refl _

/-- A plain expression is found in its text, alone and as an operand. -/
theorem found_of_plain {expression : Expression} (plain : expression.Plain) :
    FoundWhole loose expression ∧ FoundNested loose expression := by
  induction plain with
  | reference identifier =>
    have found : FoundNested loose (.reference _) := foundNested_reference identifier
    exact ⟨found.foundWhole rfl, found⟩
  | binary operator _ _ found found' =>
    obtain tight | rfl | rfl := operator.isTight_or
    · have nested := foundNested_binary tight found.2 found'.2
      exact ⟨nested.foundWhole (isLogical_of_tight tight ..), nested⟩
    · have whole := foundWhole_conjunction found.1 found'.1
      exact ⟨whole, whole.foundNested rfl⟩
    · have whole := foundWhole_disjunction found.2 found'.2
      exact ⟨whole, whole.foundNested rfl⟩
  | negation _ found =>
    have nested := foundNested_negation found.2
    exact ⟨nested.foundWhole rfl, nested⟩

theorem regroups_of_render_eq {first second : Expression} (plain : first.Plain) (plain' : second.Plain)
    (settled : loose = true ∨ first.Clear) (settled' : loose = true ∨ second.Clear) (same : first.render = second.render) :
    Regroups loose first second := by
  have finds {expression : Expression} (plain : expression.Plain) (settled : loose = true ∨ expression.Clear) :
      Regroups loose (reading expression.pieces).whole expression := by
    have found := (found_of_plain plain).1 [] settled (by rw [continuation_nil]; trivial)
    rwa [List.append_nil, continuation_nil] at found
  have pieces_eq : first.pieces = second.pieces := (reads_render plain).unique (same ▸ reads_render plain')
  exact (finds plain settled).symm.trans (pieces_eq ▸ finds plain' settled')

/-- The text of a predicate determines it up to the grouping of ANDs and of the operators that get no parentheses. It determines
it up to the grouping of ANDs alone where every comparison and sum is one of variables, conjunctions and disjunctions. -/
theorem render_determines {first second : Expression} (plain : first.Plain) (plain' : second.Plain) :
    (first.render = second.render ↔ Regroups true first second) ∧
      (first.Clear → second.Clear → (first.render = second.render ↔ Regroups false first second)) :=
  ⟨⟨regroups_of_render_eq plain plain' (.inl rfl) (.inl rfl), fun regroups => regroups.render_eq.2⟩,
    fun clear clear' =>
      ⟨regroups_of_render_eq plain plain' (.inr clear) (.inr clear'), fun regroups => regroups.render_eq.2⟩⟩

theorem isIdentifier_letter : ∀ name ∈ ["a", "b", "c"], IsIdentifier name := by
  simp only [List.forall_mem_cons]
  refine ⟨?a, ?b, ?c, nofun⟩
  all_goals exact ⟨by simp, by simp, by simp, fun operator => by cases operator <;> simp [BinaryOperator.symbol]⟩

/-- `(a AND b) AND NOT a = c`. -/
def groupedLeft : Expression :=
  .binary .and (.binary .and (.reference "a") (.reference "b")) (.negation (.binary .equal (.reference "a") (.reference "c")))

/-- `a AND (b AND NOT a = c)`. -/
def groupedRight : Expression :=
  .binary .and (.reference "a") (.binary .and (.reference "b") (.negation (.binary .equal (.reference "a") (.reference "c"))))

theorem grouped_determined :
    groupedLeft.Plain ∧ groupedRight.Plain ∧ groupedLeft.render = "a AND b AND NOT a = c" ∧
      groupedRight.render = "a AND b AND NOT a = c" ∧ Regroups false groupedLeft groupedRight := by
  have a : Plain (.reference "a") := .reference (isIdentifier_letter _ (by decide))
  have b : Plain (.reference "b") := .reference (isIdentifier_letter _ (by decide))
  have c : Plain (.reference "c") := .reference (isIdentifier_letter _ (by decide))
  have plain : groupedLeft.Plain := .binary _ (.binary _ a b) (.negation (.binary _ a c))
  have plain' : groupedRight.Plain := .binary _ a (.binary _ b (.negation (.binary _ a c)))
  have clear : groupedLeft.Clear ∧ groupedRight.Clear := by
    simp [groupedLeft, groupedRight, Clear, IsUnit, BinaryOperator.IsTight]
  have same : groupedLeft.render = groupedRight.render := by decide
  exact ⟨plain, plain', by decide, by decide, ((render_determines plain plain').2 clear.1 clear.2).mp same⟩

/-! ## Texts of two predicates -/

/-- Where AND is associative, the grouping of ANDs makes no difference to a value. -/
theorem Regroups.value_eq {Value : Type} {interpretation : Interpretation Value}
    (associative : ∀ first second third, interpretation.apply .and (interpretation.apply .and first second) third =
      interpretation.apply .and first (interpretation.apply .and second third))
    (row : String → Value) {first second : Expression} (regroups : Regroups false first second) :
    first.value interpretation row = second.value interpretation row := by
  generalize exact : false = loose at regroups
  induction regroups with
  | refl => rfl
  | symm _ same => exact same.symm
  | trans _ _ same same' => exact same.trans same'
  | binary _ _ _ same same' => simp only [value, same, same']
  | negation _ same => simp only [value, same]
  | conjunction => exact associative ..
  | chain _ _ _ forgets => exact absurd (exact.trans forgets) Bool.false_ne_true
  | negated _ _ forgets => exact absurd (exact.trans forgets) Bool.false_ne_true

/-- Numbers, of which one is true. -/
def integers : Interpretation Int where
  literal
    | .boolean true => 1
    | _ => 0
  parameter _ := 0
  property _ _ := 0
  apply
    | .and, left, right => left * right
    | .minus, left, right => left - right
    | _, _, _ => 0
  negate value := 1 - value
  hasLabel _ _ := false
  hasType _ _ := false
  call _ _ := 0
  every _ _ := 0
  subquery _ _ := 0
  holds value := value = 1
  holds_boolean truth := by cases truth <;> decide
  equal_comm _ _ := Iff.rfl

/-- `a - (b - c)`. -/
def differenceRight : Expression := .binary .minus (.reference "a") (.binary .minus (.reference "b") (.reference "c"))

/-- `(a - b) - c`. -/
def differenceLeft : Expression := .binary .minus (.binary .minus (.reference "a") (.reference "b")) (.reference "c")

theorem difference_ambiguous :
    differenceRight.Plain ∧ differenceLeft.Plain ∧ differenceRight.render = "a - b - c" ∧ differenceLeft.render = "a - b - c" ∧
      ¬Regroups false differenceRight differenceLeft := by
  have a : Plain (.reference "a") := .reference (isIdentifier_letter _ (by decide))
  have b : Plain (.reference "b") := .reference (isIdentifier_letter _ (by decide))
  have c : Plain (.reference "c") := .reference (isIdentifier_letter _ (by decide))
  refine ⟨.binary _ a (.binary _ b c), .binary _ (.binary _ a b) c, by decide, by decide, fun regroups => ?_⟩
  have associative (first second third : Int) : integers.apply .and (integers.apply .and first second) third =
      integers.apply .and first (integers.apply .and second third) := Int.mul_assoc first second third
  have same := regroups.value_eq associative (fun _ => 1)
  exact absurd same (by decide)

end Expression

end MatchPlanner
