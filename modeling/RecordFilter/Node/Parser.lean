/-
# Reading filter expressions

The reader takes one token at a time and keeps what is still open as a value: what it expects next,
the groups it is inside, and what each of them holds so far. `Parser.State.step` is one token,
`Parser.State.close` the end of the input, and `Parser.run` goes through the tokens of a `Parser`
until the expression is complete or a token does not fit.

    expression = alternatives, end of input
    alternatives = conjunction, { ("," | "or"), conjunction }
    conjunction = constraint, { (";" | "and"), constraint }
    constraint = "(", alternatives, ")" | selector, operator, arguments
    arguments = argument | "(", argument, { ",", argument }, ")"
-/
import RecordFilter.Node
import RecordFilter.Token.Lexer

namespace RecordFilter

/-! ## Errors -/

/-- What the grammar wants where something else was found. -/
inductive Expectation where
  | selector
  | operator
  | argument
  | argumentEnd
  | groupEnd
  | inputEnd
deriving DecidableEq

def Expectation.describe : Expectation → String
  | selector => "selector"
  | operator => "comparison operator"
  | argument => "argument"
  | argumentEnd => "')' or ','"
  | groupEnd => "')'"
  | inputEnd => "';', ',' or end of input"

/-- Why a text is not a filter expression. -/
inductive ParseError where
  | lex (error : LexError)
  | empty
  | unexpected (expected : Expectation) (found : Option Token) (position : Nat)
  | unknownOperator (symbol : String) (position : Nat)
  | tooManyArguments (operator : Operator) (count : Nat) (position : Nat)
deriving DecidableEq

def ParseError.message : ParseError → String
  | lex error => error.message
  | empty => "empty filter expression"
  | unexpected expected found position =>
    "expected " ++ expected.describe ++ ", found " ++ Token.describe? found ++ " at position " ++
      toString position
  | unknownOperator symbol position =>
    "unknown operator '" ++ symbol ++ "' at position " ++ toString position
  | tooManyArguments operator count position =>
    "operator '" ++ operator.symbol ++ "' takes a single argument, got " ++ toString count ++
      " at position " ++ toString position

/-! ## States -/

namespace Parser

/-- A group being read: its finished conjunctions and the finished constraints of the conjunction
that is open, each with the last one first. -/
structure Group where
  alternatives : List Node
  conjuncts : List Node

namespace Group

def empty : Group :=
  ⟨[], []⟩

/-- Adds a constraint to the open conjunction. -/
def push (g : Group) (constraint : Node) : Group :=
  { g with conjuncts := constraint :: g.conjuncts }

/-- Ends the open conjunction. -/
def endConjunction (g : Group) : Group :=
  ⟨Node.group .all g.conjuncts.reverse :: g.alternatives, []⟩

/-- The node of a group whose last constraint has been read. -/
def node (g : Group) : Node :=
  Node.group .any g.endConjunction.alternatives.reverse

end Group

/-- A comparison whose arguments are being read: its selector, its operator, and where that stood.
-/
structure Clause where
  selector : String
  operator : Operator
  position : Nat

/-- What is expected next, and what has been read of the clause at hand. -/
inductive Phase where
  /-- the beginning of a constraint -/
  | constraint
  /-- the operator behind a selector -/
  | operator (selector : String)
  /-- the beginning of the arguments -/
  | arguments (clause : Clause)
  /-- an argument inside a list, behind the ones read, the last one first -/
  | argument (clause : Clause) (before : List String)
  /-- what follows an argument inside a list -/
  | argumentEnd (clause : Clause) (before : List String)
  /-- what follows a comparison whose arguments are complete -/
  | clauseEnd (clause : Clause) (arguments : List String)
  /-- what follows a group -/
  | groupEnd

/-- A reader between two tokens: what it expects, the group it is in, and the groups around that one
from the inside out. -/
structure State where
  phase : Phase
  group : Group
  outer : List Group

namespace State

/-- A reader before its first token. -/
def initial : State :=
  ⟨.constraint, .empty, []⟩

/-- What becomes of a reader that sees a token: it refuses it, or it takes it. In the token's place
stays `left` until the next one has been read: the token itself, or nothing where the token was an
argument. -/
inductive Step where
  | fail (error : ParseError)
  | shift (state : State) (left : Option Token)

/-- Ends the comparison that has been read, if one has, and adds it to its group. Only here is the
number of arguments looked at. -/
def settle (s : State) : Except ParseError State :=
  match s.phase with
  | .clauseEnd clause arguments =>
    if !clause.operator.takesList && 1 < arguments.length then
      .error (.tooManyArguments clause.operator arguments.length clause.position)
    else
      .ok { s with
        phase := .groupEnd
        group := s.group.push (.comparison ⟨clause.selector, clause.operator, arguments⟩) }
  | _ => .ok s

/-- One token behind a constraint that is complete. -/
def continueGroup (s : State) (token : Token) (position : Nat) : Step :=
  let shift (state : State) := Step.shift state (some token)
  if token = .semicolon ∨ token = .bare "and" then shift { s with phase := .constraint }
  else if token = .comma ∨ token = .bare "or" then
    shift { s with phase := .constraint, group := s.group.endConjunction }
  else match s.outer, token with
    | around :: outer, .closeParen =>
      shift ⟨.groupEnd, around.push s.group.node, outer⟩
    | _ :: _, _ => .fail (.unexpected .groupEnd (some token) position)
    | [], _ => .fail (.unexpected .inputEnd (some token) position)

/-- One token at `position`. -/
def step (operators : OperatorSet) (s : State) (token : Token) (position : Nat) : Step :=
  let unexpected (expected : Expectation) := Step.fail (.unexpected expected (some token) position)
  let goto (phase : Phase) := Step.shift { s with phase := phase } (some token)
  match s.phase with
  | .constraint =>
    match token with
    | .openParen => .shift ⟨.constraint, .empty, s.group :: s.outer⟩ (some token)
    | .bare selector => goto (.operator selector)
    | _ => unexpected .selector
  | .operator selector =>
    match token with
    | .operator symbol =>
      match operators.lookup symbol with
      | some operator => goto (.arguments ⟨selector, operator, position⟩)
      | none => .fail (.unknownOperator symbol position)
    | _ => unexpected .operator
  | .arguments clause =>
    match token, token.argument? with
    | .openParen, _ => goto (.argument clause [])
    | _, some text => .shift { s with phase := .clauseEnd clause [text] } none
    | _, none => unexpected .argument
  | .argument clause before =>
    match token.argument? with
    | some text => .shift { s with phase := .argumentEnd clause (text :: before) } none
    | none => unexpected .argument
  | .argumentEnd clause before =>
    match token with
    | .comma => goto (.argument clause before)
    | .closeParen => goto (.clauseEnd clause before.reverse)
    | _ => unexpected .argumentEnd
  | .clauseEnd .. | .groupEnd =>
    match s.settle with
    | .ok s => s.continueGroup token position
    | .error e => .fail e

/-- The end of the input at `position`: the expression, if it is complete. -/
def close (s : State) (position : Nat) : Except ParseError Node :=
  let unexpected (expected : Expectation) := .error (.unexpected expected none position)
  match s.phase with
  | .constraint => unexpected .selector
  | .operator _ => unexpected .operator
  | .arguments _ | .argument .. => unexpected .argument
  | .argumentEnd .. => unexpected .argumentEnd
  | .clauseEnd .. | .groupEnd =>
    match s.settle with
    | .error e => .error e
    | .ok s => if s.outer.isEmpty then .ok s.group.node else unexpected .groupEnd

end State

end Parser

/-! ## Parsers -/

/-- A text being parsed: the token at hand (none at the end of the input), where it began, the
readings behind it, and the one that follows them for good. -/
structure Parser where
  operators : OperatorSet
  current : Option Token
  position : Nat
  upcoming : List Lexer.Reading
  ending : Lexer.Reading

namespace Parser

/-- A parser at the first token of a text. -/
def ofString (text : String) (operators : OperatorSet) : Except LexError Parser :=
  let (readings, ending) := (Lexer.ofString text).feed
  let start (reading : Lexer.Reading) (upcoming : List Lexer.Reading) :=
    reading.outcome.map fun token => ⟨operators, token, reading.start, upcoming, ending⟩
  match readings with
  | reading :: upcoming => start reading upcoming
  | [] => start ending []

/-- The outcome of a parse that stops here, with `current` at hand. -/
def stop (p : Parser) (current : Option Token) (position : Nat) (upcoming : List Lexer.Reading)
    (outcome : Except ParseError Node) : Except ParseError Node × Parser :=
  (outcome, { p with current := current, position := position, upcoming := upcoming })

/-- Goes on from a state with `token` at hand, through the readings `upcoming`. -/
def run (p : Parser) (s : State) (token : Token) (position : Nat) :
    List Lexer.Reading → Except ParseError Node × Parser
  | [] =>
    match s.step p.operators token position with
    | .fail e => p.stop (some token) position [] (.error e)
    | .shift s left =>
      match p.ending.outcome with
      | .error e => p.stop left position [] (.error (.lex e))
      | .ok _ => p.stop none p.ending.start [] (s.close p.ending.start)
  | reading :: upcoming =>
    match s.step p.operators token position with
    | .fail e => p.stop (some token) position (reading :: upcoming) (.error e)
    | .shift s left =>
      match reading.outcome with
      | .error e => p.stop left position upcoming (.error (.lex e))
      | .ok none => p.stop none reading.start upcoming (s.close reading.start)
      | .ok (some token) => run p s token reading.start upcoming

/-- Reads one expression, from the token at hand to the end of the input. Whatever the outcome, the
parser that is left can be asked again. -/
def parse (p : Parser) : Except ParseError Node × Parser :=
  match p.current with
  | none => (.error .empty, p)
  | some token => p.run .initial token p.position p.upcoming

/-- The outcomes of `n` calls of `parse` in a row. -/
def parseTimes : Nat → Parser → List (Except ParseError Node)
  | 0, _ => []
  | n + 1, p =>
    let (outcome, p) := p.parse
    outcome :: parseTimes n p

end Parser

/-- Reads a text as one filter expression. -/
def Node.parse (text : String) (operators : OperatorSet) : Except ParseError Node :=
  match Parser.ofString text operators with
  | .error e => .error (.lex e)
  | .ok p => p.parse.1

end RecordFilter
