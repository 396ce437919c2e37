/-
# Quoted texts

Texts quoted in messages: between double quotes, with an escape for every character that would not
show.
-/
import RecordFilter.Text.Basic
import RecordFilter.Text.PrintData

namespace RecordFilter.Text

/-- The code point of a character in base sixteen. -/
def hex (n : Nat) : String :=
  String.ofList (Nat.toDigits 16 n)

/-- A character as it stands in a quoted text. -/
def showChar (c : Char) : String :=
  if c = '"' then "\\\""
  else if c = '\\' then "\\\\"
  else if c = '\n' then "\\n"
  else if c = '\r' then "\\r"
  else if c = '\t' then "\\t"
  else if c.toNat = 0 then "\\0"
  else if inRanges extendingRanges c || inRanges invisibleRanges c then
    "\\u\x7b" ++ hex c.toNat ++ "\x7d"
  else c.toString

/-- A text between double quotes, escaped where needed. -/
def quoted (text : String) : String :=
  "\"" ++ String.join (text.toList.map showChar) ++ "\""

end RecordFilter.Text
