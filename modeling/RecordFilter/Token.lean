/-
# Tokens

What a filter expression is made of, and how messages name it.
-/

namespace RecordFilter

/-- What a filter expression is made of. The end of the input is not a token: where one may stand in
a token's place, an `Option Token` is used. -/
inductive Token where
  /-- a run of unreserved characters: a selector, a bare argument, or the words `and` and `or` -/
  | bare (text : String)
  /-- a text between single or double quotes, with its escapes undone -/
  | quoted (text : String)
  /-- the symbol of a comparison operator, known or not -/
  | operator (symbol : String)
  | semicolon
  | comma
  | openParen
  | closeParen
deriving DecidableEq, Inhabited

namespace Token

/-- How a token is named in a message. -/
def describe : Token → String
  | bare text => "'" ++ text ++ "'"
  | quoted text => "\"" ++ text ++ "\""
  | operator symbol => "operator '" ++ symbol ++ "'"
  | semicolon => "';'"
  | comma => "','"
  | openParen => "'('"
  | closeParen => "')'"

/-- How a token or the end of the input is named in a message. -/
def describe? : Option Token → String
  | some token => token.describe
  | none => "end of input"

/-- The text of a token that can be an argument. -/
def argument? : Token → Option String
  | bare text => some text
  | quoted text => some text
  | _ => none

end Token

/-- The characters with a meaning of their own in a filter expression. -/
def Token.reservedChars : List Char :=
  ['"', '\'', '(', ')', ';', ',', '=', '!', '~', '<', '>']

end RecordFilter
