import MatchPlanner.Json.Basic

/-! Reading JSON text in two passes: characters into tokens, and tokens into a value with a stack of open containers. A
string or a number that has no exact value is found in the first pass; whether it matters is decided in the second. -/

namespace MatchPlanner.Json

inductive Token where
  | openObject
  | closeObject
  | openArray
  | closeArray
  | comma
  | colon
  /-- A string with a surrogate that stands alone is not `sound`, nor is a number beyond binary64. -/
  | scalar (value : Json) (sound : Bool)

namespace Token

private def hexDigit (digit : Char) : Option Nat :=
  if digit.isDigit then some (digit.toNat - '0'.toNat)
  else if 'a' ≤ digit ∧ digit ≤ 'f' then some (digit.toNat - 'a'.toNat + 10)
  else if 'A' ≤ digit ∧ digit ≤ 'F' then some (digit.toNat - 'A'.toNat + 10)
  else none

private def hexWord (first second third fourth : Char) : Option Nat := do
  let first ← hexDigit first
  let second ← hexDigit second
  let third ← hexDigit third
  let fourth ← hexDigit fourth
  return ((first * 16 + second) * 16 + third) * 16 + fourth

private def escaped : Char → Option Char
  | '"' => some '"'
  | '\\' => some '\\'
  | '/' => some '/'
  | 'b' => some '\x08'
  | 'f' => some '\x0c'
  | 'n' => some '\n'
  | 'r' => some '\r'
  | 't' => some '\t'
  | _ => none

private def isLeadingSurrogate (word : Nat) : Bool := 0xd800 ≤ word && word < 0xdc00

private def isTrailingSurrogate (word : Nat) : Bool := 0xdc00 ≤ word && word < 0xe000

/-- The characters of a string up to its closing quote as code points, newest first in `read`, and what follows it. An
escape gives a single word, which may be half of a character. -/
private def readWords (read : List Nat) : List Char → Option (List Nat × List Char)
  | '"' :: rest => some (read.reverse, rest)
  | '\\' :: 'u' :: first :: second :: third :: fourth :: rest => do
    readWords ((← hexWord first second third fourth) :: read) rest
  | '\\' :: letter :: rest => do readWords ((← escaped letter).toNat :: read) rest
  | letter :: rest => if letter.toNat < 0x20 then none else readWords (letter.toNat :: read) rest
  | [] => none

/-- Puts the two halves of a character together. -/
private def joinSurrogates : List Nat → List Nat
  | first :: second :: rest =>
    if isLeadingSurrogate first && isTrailingSurrogate second then
      (0x10000 + (first - 0xd800) * 0x400 + (second - 0xdc00)) :: joinSurrogates rest
    else first :: joinSurrogates (second :: rest)
  | words => words

/-- A surrogate that stands alone leaves a NUL in the string. -/
private def readText (letters : List Char) : Option (Token × List Char) := do
  let (words, rest) ← readWords [] letters
  let points := joinSurrogates words
  return (.scalar (.text (String.ofList (points.map Char.ofNat))) (points.all fun point => point.isValidChar), rest)

private def digitValue (digit : Char) : Nat := digit.toNat - '0'.toNat

private def digitsValue (digits : List Char) : Nat := digits.foldl (fun value digit => value * 10 + digitValue digit) 0

/-- Continues a number with digits as long as it fits into 64 bits, and counts the digits that fit. -/
private def takeDigits (number taken : Nat) : List Char → Nat × Nat
  | [] => (number, taken)
  | digit :: rest =>
    let longer := number * 10 + digitValue digit
    if longer < Nat.pow 2 64 then takeDigits longer (taken + 1) rest else (number, taken)

private def readExponent : List Char → Option (Option Int × List Char)
  | letter :: rest =>
    if letter = 'e' ∨ letter = 'E' then
      let (negative, rest) := match rest with
        | '-' :: rest => (true, rest)
        | '+' :: rest => (false, rest)
        | rest => (false, rest)
      let (digits, rest) := rest.span Char.isDigit
      if digits.isEmpty then none
      else
        let magnitude := Int.ofNat (digitsValue digits)
        some (some (if negative then -magnitude else magnitude), rest)
    else some (none, letter :: rest)
  | [] => some (none, [])

private def readFraction : List Char → Option (Option (List Char) × List Char)
  | '.' :: rest =>
    let (digits, rest) := rest.span Char.isDigit
    if digits.isEmpty then none else some (some digits, rest)
  | rest => some (none, rest)

/-- A number has no leading zeros, and digits on both sides of its point. Digits that do not fit into 64 bits are left
out, and a number without them is no integer. -/
private def readNumber (negative : Bool) (letters : List Char) : Option (Token × List Char) := do
  let (whole, rest) := letters.span Char.isDigit
  if whole.isEmpty ∨ 1 < whole.length ∧ whole.head? = some '0' then none
  else
    let (fraction, rest) ← readFraction rest
    let (exponent, rest) ← readExponent rest
    let (digits, taken) := takeDigits 0 0 whole
    let (digits, places) := takeDigits digits 0 (fraction.getD [])
    let leftOut := whole.length - taken
    let value : Decimal := ⟨negative, digits, exponent.getD 0 + Int.ofNat leftOut - Int.ofNat places⟩
    let integral := fraction.isNone && exponent.isNone && leftOut == 0
    return (.scalar (.number value integral) value.toBinary64?.isSome, rest)

private def isBlank (letter : Char) : Bool := letter == ' ' || letter == '\n' || letter == '\t' || letter == '\r'

private def next? : List Char → Option (Token × List Char)
  | '{' :: rest => some (.openObject, rest)
  | '}' :: rest => some (.closeObject, rest)
  | '[' :: rest => some (.openArray, rest)
  | ']' :: rest => some (.closeArray, rest)
  | ',' :: rest => some (.comma, rest)
  | ':' :: rest => some (.colon, rest)
  | '"' :: rest => readText rest
  | '-' :: rest => readNumber true rest
  | 'n' :: 'u' :: 'l' :: 'l' :: rest => some (.scalar .null true, rest)
  | 't' :: 'r' :: 'u' :: 'e' :: rest => some (.scalar (.boolean true) true, rest)
  | 'f' :: 'a' :: 'l' :: 's' :: 'e' :: rest => some (.scalar (.boolean false) true, rest)
  | letters => readNumber false letters

/-- Every token takes at least one character, so the length of the text bounds their number. -/
private def readAll : Nat → List Token → List Char → Option (List Token)
  | 0, tokens, letters => if letters.all isBlank then some tokens.reverse else none
  | fuel + 1, tokens, letters =>
    match letters.dropWhile isBlank with
    | [] => some tokens.reverse
    | letters => do
      let (token, rest) ← next? letters
      readAll fuel (token :: tokens) rest

def ofText? (text : String) : Option (List Token) := readAll text.length [] text.toList

end Token

/-- A container that is still open, with its contents newest first. -/
inductive Container where
  | array (items : List Json)
  | object (fields : List (String × Json)) (key : String)

inductive Expectation where
  | value
  | firstItem
  | firstKey
  | key
  | colon
  | separator
  | nothing

structure ParserState where
  containers : List Container
  expectation : Expectation
  finished : Option Json

/-- As many containers may be open at once in a text that is read as a whole. -/
def greatestDepth : Nat := 127

/-- How much of a text its reader looks at. Values that are passed over need not be sound, nor their depth bounded. -/
inductive Coverage where
  | everything
  /-- The outermost value, with the names of its fields when it is an object. -/
  | outline
deriving DecidableEq

namespace ParserState

private def accept (value : Json) : List Container → ParserState
  | [] => ⟨[], .nothing, some value⟩
  | .array items :: outer => ⟨.array (value :: items) :: outer, .separator, none⟩
  | .object fields key :: outer => ⟨.object ((key, value) :: fields) key :: outer, .separator, none⟩

private def close : List Container → ParserState
  | .array items :: outer => accept (.array items.reverse) outer
  | .object fields _ :: outer => accept (.object fields.reverse) outer
  | [] => ⟨[], .nothing, none⟩

private def startValue (coverage : Coverage) (containers : List Container) : Token → Option ParserState
  | .scalar value sound => if sound ∨ coverage = .outline then some (accept value containers) else none
  | .openArray =>
    if coverage = .outline ∨ containers.length < greatestDepth then some ⟨.array [] :: containers, .firstItem, none⟩
    else none
  | .openObject =>
    if coverage = .outline ∨ containers.length < greatestDepth then some ⟨.object [] "" :: containers, .firstKey, none⟩
    else none
  | _ => none

private def startKey (coverage : Coverage) (containers : List Container) : Token → Option ParserState
  | .scalar (.text key) sound =>
    match containers with
    | .object fields _ :: outer =>
      if sound ∨ coverage = .outline ∧ !outer.isEmpty then some ⟨.object fields key :: outer, .colon, none⟩ else none
    | _ => none
  | _ => none

def step (coverage : Coverage) (state : ParserState) (token : Token) : Option ParserState :=
  match state.expectation, token with
  | .firstItem, .closeArray => some (close state.containers)
  | .firstKey, .closeObject => some (close state.containers)
  | .value, token => startValue coverage state.containers token
  | .firstItem, token => startValue coverage state.containers token
  | .firstKey, token => startKey coverage state.containers token
  | .key, token => startKey coverage state.containers token
  | .colon, .colon => some { state with expectation := .value }
  | .separator, token =>
    match state.containers, token with
    | .array _ :: _, .comma => some { state with expectation := .value }
    | .object _ _ :: _, .comma => some { state with expectation := .key }
    | .array _ :: _, .closeArray => some (close state.containers)
    | .object _ _ :: _, .closeObject => some (close state.containers)
    | _, _ => none
  | _, _ => none

end ParserState

/-- Reads a text that is one JSON value, blanks around it aside. -/
def ofText? (coverage : Coverage) (text : String) : Option Json := do
  let tokens ← Token.ofText? text
  let final ← tokens.foldlM (ParserState.step coverage) ⟨[], .value, none⟩
  final.finished

def parse? : String → Option Json := ofText? .everything

/-- Reads a text of which only the outermost fields are going to be looked at. -/
def outline? : String → Option Json := ofText? .outline

end MatchPlanner.Json
