import MatchPlanner.Text.Printable

/-! Names in double quotes, with the characters escaped that would hide where a name ends or what it holds. -/

namespace MatchPlanner.Text

private def quotedLetter (letter : Char) : String :=
  match letter with
  | '\x00' => "\\0"
  | '\t' => "\\t"
  | '\r' => "\\r"
  | '\n' => "\\n"
  | '"' => "\\\""
  | '\\' => "\\\\"
  | letter =>
    if isPrintable letter then letter.toString
    else "\\u\x7b" ++ String.ofList (Nat.toDigits 16 letter.toNat) ++ "\x7d"

def quoted (text : String) : String := "\"" ++ String.join (text.toList.map quotedLetter) ++ "\""

def quotedList (texts : List String) : String := "[" ++ ", ".intercalate (texts.map quoted) ++ "]"

end MatchPlanner.Text
