import MatchPlanner.Json.Basic

/-! Writing JSON values, on one line or with two blanks of indentation for every open container. -/

namespace MatchPlanner.Json

private def hexText (value : Nat) : String := String.ofList (Nat.toDigits 16 value)

private def escape (letter : Char) : String :=
  match letter with
  | '"' => "\\\""
  | '\\' => "\\\\"
  | '\x08' => "\\b"
  | '\x0c' => "\\f"
  | '\n' => "\\n"
  | '\r' => "\\r"
  | '\t' => "\\t"
  | letter =>
    if letter.toNat < 0x10 then "\\u000" ++ hexText letter.toNat
    else if letter.toNat < 0x20 then "\\u00" ++ hexText letter.toNat
    else letter.toString

def quote (text : String) : String := "\"" ++ String.join (text.toList.map escape) ++ "\""

/-- An integer is written as one, any other number so that it cannot be taken for an integer. -/
def numberText (value : Decimal) (integral : Bool) : String :=
  if integral then (if value.negative then "-" else "") ++ toString value.digits else value.literal

private def scalarText : Json → String
  | .null => "null"
  | .boolean true => "true"
  | .boolean false => "false"
  | .number value integral => numberText value integral
  | .text value => quote value
  | .array _ => "[]"
  | .object _ => "\x7b\x7d"

mutual

def compact : Json → String
  | .array items => "[" ++ ",".intercalate (compactItems items) ++ "]"
  | .object fields => "\x7b" ++ ",".intercalate (compactFields fields) ++ "\x7d"
  | json => scalarText json

def compactItems : List Json → List String
  | [] => []
  | item :: rest => compact item :: compactItems rest

def compactFields : List (String × Json) → List String
  | [] => []
  | (name, value) :: rest => (quote name ++ ":" ++ compact value) :: compactFields rest

end

private def lineBreak (indentation : Nat) : String := "\n" ++ String.ofList (List.replicate (2 * indentation) ' ')

private def block (opening closing : String) (indentation : Nat) (lines : List String) : String :=
  if lines.isEmpty then opening ++ closing
  else
    let separated := ("," ++ lineBreak (indentation + 1)).intercalate lines
    opening ++ lineBreak (indentation + 1) ++ separated ++ lineBreak indentation ++ closing

mutual

private def indented (indentation : Nat) : Json → String
  | .array items => block "[" "]" indentation (indentedItems (indentation + 1) items)
  | .object fields => block "\x7b" "\x7d" indentation (indentedFields (indentation + 1) fields)
  | json => scalarText json

private def indentedItems (indentation : Nat) : List Json → List String
  | [] => []
  | item :: rest => indented indentation item :: indentedItems indentation rest

private def indentedFields (indentation : Nat) : List (String × Json) → List String
  | [] => []
  | (name, value) :: rest => (quote name ++ ": " ++ indented indentation value) :: indentedFields indentation rest

end

def pretty (json : Json) : String := indented 0 json

end MatchPlanner.Json
