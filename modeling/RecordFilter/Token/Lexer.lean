/-
# The lexer

`Token.scan` reads one token at the front of a text and says what is left of it, also when there is
no token to read. `Lexer.next` is `Token.scan` behind a cursor that counts characters, and
`Lexer.feed` lists everything a lexer will ever return: its readings in order, and the last one,
which repeats for good.
-/
import RecordFilter.Text.Blank
import RecordFilter.Token

namespace RecordFilter

/-- A character that may stand in a selector or a bare argument. -/
def Token.isUnreserved (c : Char) : Bool :=
  !Text.isBlank c && !Token.reservedChars.contains c

/-! ## Faults -/

/-- Why a text that begins with `=` or `!` begins with no operator. -/
inductive OperatorFault where
  | noName
  | noClosing
  | loneBang
deriving DecidableEq

/-- Why no token begins at a position. -/
inductive LexFault where
  | unexpectedChar (c : Char)
  | unterminatedString
  | malformedOperator (fault : OperatorFault)
deriving DecidableEq

/-- A fault and the position of the first character that belongs to it. -/
structure LexError where
  fault : LexFault
  position : Nat
deriving DecidableEq

def OperatorFault.message : OperatorFault → String
  | noName => "expected '==' or '=name='"
  | noClosing => "missing closing '=' after operator name"
  | loneBang => "expected '!='"

def LexError.message (e : LexError) : String :=
  match e.fault with
  | .unexpectedChar c =>
    "unexpected character '" ++ c.toString ++ "' at position " ++ toString e.position
  | .unterminatedString => "unterminated string starting at position " ++ toString e.position
  | .malformedOperator fault =>
    "malformed operator at position " ++ toString e.position ++ ": " ++ fault.message

/-! ## One token -/

/-- The inside of a quoted text up to its closing quote, with escapes undone, and what follows.
There is no inside when the quote is never closed; then nothing follows. -/
def Token.readQuoted (quote : Char) : List Char → Option (List Char) × List Char
  | [] => (none, [])
  | c :: rest =>
    if c = quote then (some [], rest)
    else if c = '\\' then
      match rest with
      | [] => (none, [])
      | escaped :: rest =>
        let (inside, after) := Token.readQuoted quote rest
        (inside.map (escaped :: ·), after)
    else
      let (inside, after) := Token.readQuoted quote rest
      (inside.map (c :: ·), after)

/-- Reads an operator whose first `=` has been read: `==` or `=name=`. -/
def Token.scanEquals (text : List Char) : Except LexFault Token × List Char :=
  match text with
  | '=' :: rest => (.ok (.operator "=="), rest)
  | _ =>
    let name := text.takeWhile Char.isAlpha
    let rest := text.dropWhile Char.isAlpha
    if name.isEmpty then (.error (.malformedOperator .noName), rest)
    else match rest with
      | '=' :: rest => (.ok (.operator (String.ofList ('=' :: name ++ ['=']))), rest)
      | _ => (.error (.malformedOperator .noClosing), rest)

/-- Reads a token that begins with a reserved character `c`, given the text behind it. -/
def Token.scanReserved (c : Char) (rest : List Char) : Except LexFault Token × List Char :=
  match c with
  | '(' => (.ok .openParen, rest)
  | ')' => (.ok .closeParen, rest)
  | ';' => (.ok .semicolon, rest)
  | ',' => (.ok .comma, rest)
  | '=' => Token.scanEquals rest
  | '!' =>
    match rest with
    | '=' :: rest => (.ok (.operator "!="), rest)
    | _ => (.error (.malformedOperator .loneBang), '!' :: rest)
  | '<' =>
    match rest with
    | '=' :: rest => (.ok (.operator "<="), rest)
    | _ => (.ok (.operator "<"), rest)
  | '>' =>
    match rest with
    | '=' :: rest => (.ok (.operator ">="), rest)
    | _ => (.ok (.operator ">"), rest)
  | '"' | '\'' =>
    match Token.readQuoted c rest with
    | (some inside, rest) => (.ok (.quoted (String.ofList inside)), rest)
    | (none, rest) => (.error .unterminatedString, rest)
  | _ => (.error (.unexpectedChar c), c :: rest)

/-- Reads the token at the front of a text that does not begin with a blank: the token, or `none` at
the end of the text, or a fault; and the text left. -/
def Token.scan : List Char → Except LexFault (Option Token) × List Char
  | [] => (.ok none, [])
  | c :: rest =>
    if Token.isUnreserved c then
      (.ok (some (.bare (String.ofList ((c :: rest).takeWhile Token.isUnreserved)))),
        (c :: rest).dropWhile Token.isUnreserved)
    else
      let (outcome, rest) := Token.scanReserved c rest
      (outcome.map some, rest)

/-! ## The cursor -/

/-- A text being read: what is left of it, how many characters were taken, and where the token read
last began. -/
structure Lexer where
  rest : List Char
  position : Nat
  tokenStart : Nat
deriving DecidableEq

/-- What a lexer returned, and where it began. -/
structure Lexer.Reading where
  outcome : Except LexError (Option Token)
  start : Nat

namespace Lexer

def ofString (text : String) : Lexer :=
  ⟨text.toList, 0, 0⟩

/-- Reads the next token. After a fault the cursor stands where the reading of the faulty token gave
up, which for a lone `!` and an unexpected character is before it. -/
def next (l : Lexer) : Reading × Lexer :=
  let text := Text.trimLeft l.rest
  let start := l.position + (l.rest.length - text.length)
  let (outcome, rest) := Token.scan text
  (⟨outcome.mapError (⟨·, start⟩), start⟩,
    ⟨rest, start + (text.length - rest.length), start⟩)

/-- What the first `n` calls return. -/
def take : Nat → Lexer → List Reading
  | 0, _ => []
  | n + 1, l =>
    let (reading, l) := l.next
    reading :: take n l

/-- All that a lexer returns, call by call: the readings before the last new one, and the one that
every later call returns. -/
def feed (l : Lexer) : List Reading × Reading :=
  let (reading, l') := l.next
  if l'.rest.length < l.rest.length then
    let (readings, ending) := feed l'
    (reading :: readings, ending)
  else ([], reading)
termination_by l.rest.length

/-- The readings up to the end of the input or the first fault, that one included. -/
def untilStopped (l : Lexer) : List Reading :=
  let (readings, ending) := l.feed
  let goesOn (r : Reading) : Bool := match r.outcome with
    | .ok (some _) => true
    | _ => false
  let all := readings ++ [ending]
  all.takeWhile goesOn ++ (all.dropWhile goesOn).take 1

end Lexer

end RecordFilter
