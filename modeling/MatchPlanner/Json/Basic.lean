import MatchPlanner.Number.Decimal

/-! JSON values, and how the fields of a record and the variants of an enumeration are found in them. Objects keep their
fields in order and numbers keep their decimal digits, so whoever reads a field decides what it stands for. -/

namespace MatchPlanner

inductive Json where
  | null
  | boolean (value : Bool)
  /-- An integral number was written without a point and without an exponent. -/
  | number (value : Decimal) (integral : Bool)
  | text (value : String)
  | array (items : List Json)
  | object (fields : List (String × Json))

namespace Json

def ofNat (value : Nat) : Json := .number ⟨false, value, 0⟩ true

def ofInt (value : Int) : Json := .number ⟨value < 0, value.natAbs, 0⟩ true

def ofBinary64 (value : Binary64) : Json := .number (value.shortest .even) false

/-- A value that is not finite has no numeral and becomes `null`. -/
def ofFloat (value : Float) : Json := ((Binary64.ofFloat? value).map ofBinary64).getD .null

def ofTexts (values : List String) : Json := .array (values.map .text)

def ofOption {α : Type} (write : α → Json) : Option α → Json
  | none => .null
  | some value => write value

mutual

/-- The number of nested containers, the value itself included. -/
def depth : Json → Nat
  | .array items => depthOfItems items + 1
  | .object fields => depthOfFields fields + 1
  | _ => 1

def depthOfItems : List Json → Nat
  | [] => 0
  | item :: rest => max (depth item) (depthOfItems rest)

def depthOfFields : List (String × Json) → Nat
  | [] => 0
  | (_, value) :: rest => max (depth value) (depthOfFields rest)

end

def text? : Json → Option String
  | .text value => some value
  | _ => none

def boolean? : Json → Option Bool
  | .boolean value => some value
  | _ => none

/-- An integer must be written as one; minus zero is not an integer. -/
def integer? : Json → Option Int
  | .number ⟨negative, digits, _⟩ true =>
    if negative then if digits = 0 then none else some (-Int.ofNat digits) else some (Int.ofNat digits)
  | _ => none

def naturalBelow? (bound : Nat) (json : Json) : Option Nat :=
  match json.integer? with
  | some (.ofNat value) => if value < bound then some value else none
  | _ => none

def word32? : Json → Option Nat := naturalBelow? (Nat.pow 2 32)

def word64? : Json → Option Nat := naturalBelow? (Nat.pow 2 64)

def signed64? (json : Json) : Option Int :=
  let bound := Int.ofNat (Nat.pow 2 63)
  json.integer?.bind fun value => if -bound ≤ value ∧ value < bound then some value else none

def binary64? : Json → Option Binary64
  | .number value _ => value.toBinary64?
  | _ => none

def float? (json : Json) : Option Float := json.binary64?.map Binary64.toFloat

def items? : Json → Option (List Json)
  | .array items => some items
  | _ => none

def listOf? {α : Type} (read : Json → Option α) (json : Json) : Option (List α) :=
  json.items?.bind fun items => items.mapM read

def texts? : Json → Option (List String) := listOf? text?

def fields? : Json → Option (List (String × Json))
  | .object fields => some fields
  | _ => none

/-- Of several fields with one name the last counts. -/
def lastOf (name : String) (fields : List (String × Json)) : Option Json :=
  (fields.reverse.find? fun field => field.1 == name).map Prod.snd

/-- The fields of an object as a map: each name once, with its last value. -/
def entries? (json : Json) : Option (List (String × Json)) :=
  json.fields?.map fun fields =>
    (fields.map Prod.fst).eraseDups.filterMap fun name => (lastOf name fields).map fun value => (name, value)

/-- Reads every entry of a map. -/
def mapOf? {α : Type} (read : Json → Option α) (json : Json) : Option (List (String × α)) := do
  (← json.entries?).mapM fun (name, value) => (read value).map fun value => (name, value)

def field? (json : Json) (name : String) : Option Json := json.fields?.bind (lastOf name)

/-- The fields of a record in the order of `names`, from an object; fields with other names are passed over. -/
def named? (names : List String) (json : Json) : Option (List (Option Json)) :=
  json.fields?.map fun fields => names.map fun name => lastOf name fields

/-- An array gives the fields of a record in their order, `least` of them or more. -/
def leading? (least : Nat) (names : List String) (items : List Json) : Option (List (Option Json)) :=
  if least ≤ items.length ∧ items.length ≤ names.length then
    some ((List.range names.length).map fun index => items[index]?)
  else none

/-- The fields of a record, from an object or from an array of exactly its values. -/
def record? (names : List String) : Json → Option (List (Option Json))
  | .array items => leading? names.length names items
  | json => json.named? names

/-- An enumeration is the name of its variant, or an object of that one name and the variant's payload. -/
def variant? : Json → Option (String × Option Json)
  | .text name => some (name, none)
  | .object fields =>
    match fields.getLast? with
    | some (name, payload) => if fields.all fun field => field.1 == name then some (name, some payload) else none
    | none => none
  | _ => none

/-- A variant without a payload may carry `null`. -/
def unit? : Option Json → Option Unit
  | none => some ()
  | some .null => some ()
  | _ => none

/-- The fields of a record all of which may be left out. -/
def loose? (names : List String) : Json → Option (List (Option Json))
  | .array items => leading? 0 names items
  | json => json.named? names

/-- The fields of an object that may have no others. -/
def only? (names : List String) (json : Json) : Option (List (Option Json)) :=
  json.fields?.bind fun fields =>
    if fields.all fun field => names.contains field.1 then json.named? names else none

/-- The fields of a record that may have no others. An array of them may end after the first `least`. -/
def strict? (least : Nat) (names : List String) : Json → Option (List (Option Json))
  | .array items => leading? least names items
  | json => json.only? names

/-- The value of a field that may be absent or `null`. -/
def optional? {α : Type} (read : Json → Option α) : Option Json → Option (Option α)
  | none => some none
  | some .null => some none
  | some json => (read json).map some

/-- The value of a field that stands for `otherwise` when it is absent. -/
def defaulted? {α : Type} (read : Json → Option α) (otherwise : α) : Option Json → Option α
  | none => some otherwise
  | some json => read json

def pair? {α β : Type} (first : Json → Option α) (second : Json → Option β) : Json → Option (α × β)
  | .array [left, right] => return (← first left, ← second right)
  | _ => none

/-- Reads an enumeration without payloads from the names of its values. -/
def choice? {α : Type} (choices : List (String × α)) (json : Json) : Option α := do
  let (name, payload) ← json.variant?
  unit? payload
  choices.lookup name

end Json

end MatchPlanner
