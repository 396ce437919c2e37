/-
# Writing JSON

A value on one line, or over several with two blanks more for each level.
-/
import RecordFilter.Json

namespace RecordFilter.Json

/-- A character between the quotes of a JSON text. -/
def escapeChar (c : Char) : List Char :=
  if c = '"' then ['\\', '"']
  else if c = '\\' then ['\\', '\\']
  else if c = '\n' then ['\\', 'n']
  else if c = '\r' then ['\\', 'r']
  else if c = '\t' then ['\\', 't']
  else if c.toNat = 8 then ['\\', 'b']
  else if c.toNat = 12 then ['\\', 'f']
  else if c.toNat < 32 then
    ['\\', 'u', '0', '0'] ++ (if c.toNat < 16 then ['0'] else []) ++ Nat.toDigits 16 c.toNat
  else [c]

/-- A text as a JSON string. -/
def quote (text : String) : String :=
  String.ofList ('"' :: text.toList.flatMap escapeChar ++ ['"'])

mutual

/-- The text of a value on one line, without blanks. -/
def render : Json → String
  | null => "null"
  | bool b => if b then "true" else "false"
  | number n => n.text
  | string s => quote s
  | array items => "[" ++ ",".intercalate (renderItems items) ++ "]"
  | object fields => "\x7b" ++ ",".intercalate (renderFields fields) ++ "\x7d"

def renderItems : List Json → List String
  | [] => []
  | item :: items => item.render :: renderItems items

def renderFields : List (String × Json) → List String
  | [] => []
  | (name, value) :: fields => (quote name ++ ":" ++ value.render) :: renderFields fields

end

/-- Lines between two brackets, indented two blanks deeper than `margin`. -/
def block (opening closing margin : String) (lines : List String) : String :=
  let inner := "\n" ++ margin ++ "  "
  opening ++ inner ++ ("," ++ inner).intercalate lines ++ "\n" ++ margin ++ closing

mutual

/-- The text of a value over several lines, behind `margin`. Empty arrays and objects stay closed.
-/
def pretty (margin : String) : Json → String
  | array (item :: items) => block "[" "]" margin (prettyItems (margin ++ "  ") (item :: items))
  | object (field :: fields) =>
    block "\x7b" "\x7d" margin (prettyFields (margin ++ "  ") (field :: fields))
  | array [] => "[]"
  | object [] => "\x7b\x7d"
  | null => "null"
  | bool b => if b then "true" else "false"
  | number n => n.text
  | string s => quote s

def prettyItems (margin : String) : List Json → List String
  | [] => []
  | item :: items => item.pretty margin :: prettyItems margin items

def prettyFields (margin : String) : List (String × Json) → List String
  | [] => []
  | (name, value) :: fields =>
    (quote name ++ ": " ++ value.pretty margin) :: prettyFields margin fields

end

end RecordFilter.Json
