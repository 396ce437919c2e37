/-
# JSON documents

A document is a JSON text read as far as it goes. Where the text stops being JSON, a `Document`
holds the fault in the place of what should have stood there. So a reader of some meaning, which
goes through a document in the order of its text, meets the first thing that is wrong first, be it a
fault of the text or a value it cannot use.
-/
import RecordFilter.Json
import RecordFilter.Text.Basic

namespace RecordFilter.Json

/-- What is wrong with a text: it ends too early, or something cannot stand where it stands. -/
inductive Fault where
  | unfinished
  | malformed
deriving DecidableEq

/-- A text read as far as it goes. -/
inductive Document where
  | null
  | bool (b : Bool)
  | number (l : Literal)
  /-- a string; none if an escape in it denotes no character -/
  | string (text : Option String)
  /-- the items, and the fault in place of the closing bracket -/
  | array (items : List Document) (ending : Option Fault)
  /-- the fields, and the fault in place of the next one or the closing brace -/
  | object (fields : List (Option String × Document)) (ending : Option Fault)
  /-- faults in place of a value: the one met in reading it, and the one met in passing over it -/
  | fault (reading passing : Fault)
deriving Inhabited

/-! ## Strings -/

/-- A character of a string, or a code unit given by number. -/
inductive StringUnit where
  | char (c : Char)
  | code (n : Nat)

/-- The value of a digit in base sixteen. -/
def hexDigit? (c : Char) : Option Nat :=
  if '0' ≤ c ∧ c ≤ '9' then some (c.toNat - '0'.toNat)
  else if 'a' ≤ c ∧ c ≤ 'f' then some (c.toNat - 'a'.toNat + 10)
  else if 'A' ≤ c ∧ c ≤ 'F' then some (c.toNat - 'A'.toNat + 10)
  else none

/-- The number that four digits in base sixteen denote. -/
def hexCode? (a b c d : Char) : Option Nat := do
  return (((← hexDigit? a) * 16 + (← hexDigit? b)) * 16 + (← hexDigit? c)) * 16 + (← hexDigit? d)

/-- The character that a backslash and a letter stand for. -/
def simpleEscape? (c : Char) : Option Char :=
  match c with
  | '"' => some '"'
  | '\\' => some '\\'
  | '/' => some '/'
  | 'b' => some (Char.ofNat 8)
  | 'f' => some (Char.ofNat 12)
  | 'n' => some '\n'
  | 'r' => some '\r'
  | 't' => some '\t'
  | _ => none

/-- Reads a string up to its closing quote: its units, and the text left or the fault in place of
the next unit. An escape by number needs four bytes to be read at all. -/
def readUnits : List Char → List StringUnit × Except Fault (List Char)
  | [] => ([], .error .unfinished)
  | '"' :: rest => ([], .ok rest)
  | '\\' :: 'u' :: a :: b :: c :: d :: rest =>
    match hexCode? a b c d with
    | some n =>
      let (units, after) := readUnits rest
      (.code n :: units, after)
    | none => ([], .error .malformed)
  | '\\' :: 'u' :: rest =>
    ([], .error (if Text.byteSize rest < 4 then .unfinished else .malformed))
  | ['\\'] => ([], .error .unfinished)
  | '\\' :: c :: rest =>
    match simpleEscape? c with
    | some c =>
      let (units, after) := readUnits rest
      (.char c :: units, after)
    | none => ([], .error .malformed)
  | c :: rest =>
    if c.toNat < 32 then ([], .error .malformed)
    else
      let (units, after) := readUnits rest
      (.char c :: units, after)

/-- The text of a string. A character beyond the first 65536 is given by a pair of codes; a code
that is half of a pair denotes nothing alone. -/
def unitsText : List StringUnit → Option (List Char)
  | [] => some []
  | .char c :: rest => (unitsText rest).map (c :: ·)
  | .code n :: rest =>
    if n < 0xD800 ∨ 0xDFFF < n then (unitsText rest).map (Char.ofNat n :: ·)
    else if n ≤ 0xDBFF then
      match rest with
      | .code m :: rest =>
        if 0xDC00 ≤ m ∧ m ≤ 0xDFFF then
          (unitsText rest).map (Char.ofNat ((n - 0xD800) * 0x400 + (m - 0xDC00) + 0x10000) :: ·)
        else none
      | _ => none
    else none

/-- The units without the first half of a pair at their end. -/
def dropHalf (units : List StringUnit) : List StringUnit :=
  match units.getLast? with
  | some (.code n) => if 0xD800 ≤ n ∧ n ≤ 0xDBFF then units.dropLast else units
  | _ => units

/-- Reads a string whose opening quote has been read: its text, if it denotes one, and the text
left; or the faults met in reading it and in passing over it. Only reading it minds half pairs,
and then what comes first in the text counts. -/
def readString (text : List Char) : Except (Fault × Fault) (Option String × List Char) :=
  match readUnits text with
  | (units, .ok rest) => .ok ((unitsText units).map String.ofList, rest)
  | (units, .error f) => .error (if (unitsText (dropHalf units)).isSome then f else .malformed, f)

/-! ## Numbers and words -/

/-- The values of decimal digits. -/
def digitValues (digits : List Char) : List Nat :=
  digits.map fun c => c.toNat - '0'.toNat

/-- One fault, however it is met. -/
def Document.bad (f : Fault) : Document :=
  .fault f f

/-- The faults of a number that lacks a digit at the front of `rest`. That the text ends there is
noticed only in reading it. -/
def lacksDigit (rest : List Char) : Document × List Char :=
  (.fault (if rest.isEmpty then .unfinished else .malformed) .malformed, [])

/-- Reads the exponent of a number, if one follows. -/
def readExponent (l : Literal) : List Char → Document × List Char
  | c :: rest =>
    if c = 'e' ∨ c = 'E' then
      let (negative, rest) : Bool × List Char := match rest with
        | '-' :: rest => (true, rest)
        | '+' :: rest => (false, rest)
        | _ => (false, rest)
      let digits := rest.takeWhile Char.isDigit
      if digits.isEmpty then lacksDigit rest
      else
        let n : Nat := (digitValues digits).foldl (· * 10 + ·) 0
        (.number { l with exponent := some (if negative then -(n : Int) else n) },
          rest.dropWhile Char.isDigit)
    else (.number l, c :: rest)
  | [] => (.number l, [])

/-- Reads the fraction of a number, if one follows, and its exponent. -/
def readFraction (l : Literal) : List Char → Document × List Char
  | '.' :: rest =>
    let digits := rest.takeWhile Char.isDigit
    if digits.isEmpty then lacksDigit rest
    else readExponent { l with fraction := some (digitValues digits) } (rest.dropWhile Char.isDigit)
  | rest => readExponent l rest

/-- Reads a number behind its sign. Only a lone zero may begin with a zero. -/
def readNumber (negative : Bool) (text : List Char) : Document × List Char :=
  let digits := text.takeWhile Char.isDigit
  if digits.isEmpty then lacksDigit text
  else if digits.head? = some '0' ∧ 1 < digits.length then (.bad .malformed, [])
  else readFraction ⟨negative, digitValues digits, none, none⟩ (text.dropWhile Char.isDigit)

/-- Reads the word that spells `value`, of which the first letter has been read. -/
def readWord (value : Document) : List Char → List Char → Document × List Char
  | [], rest => (value, rest)
  | _ :: _, [] => (.bad .unfinished, [])
  | letter :: word, c :: rest =>
    if c = letter then readWord value word rest else (.bad .malformed, [])

/-! ## Values -/

/-- The blanks of JSON texts. -/
def isSpace (c : Char) : Bool :=
  c == ' ' || c == '\n' || c == '\t' || c == '\r'

def skipSpace (text : List Char) : List Char :=
  text.dropWhile isSpace

mutual

/-- Reads a value: as much of it as there is, and the text left. The first argument bounds the
number of steps; three for each character are enough. -/
def readValue : Nat → List Char → Document × List Char
  | 0, _ => (.bad .malformed, [])
  | bound + 1, text =>
    match skipSpace text with
    | [] => (.bad .unfinished, [])
    | 'n' :: rest => readWord .null ['u', 'l', 'l'] rest
    | 't' :: rest => readWord (.bool true) ['r', 'u', 'e'] rest
    | 'f' :: rest => readWord (.bool false) ['a', 'l', 's', 'e'] rest
    | '-' :: rest => readNumber true rest
    | '"' :: rest =>
      match readString rest with
      | .ok (text, rest) => (.string text, rest)
      | .error (reading, passing) => (.fault reading passing, [])
    | '[' :: rest =>
      let (items, ending, rest) := readItems bound [] rest
      (.array items ending, rest)
    | '\x7b' :: rest =>
      let (fields, ending, rest) := readFields bound [] rest
      (.object fields ending, rest)
    | c :: rest => if c.isDigit then readNumber false (c :: rest) else (.bad .malformed, [])

/-- Reads the items of an array behind the ones read, the last one first. -/
def readItems : Nat → List Document → List Char → List Document × Option Fault × List Char
  | 0, before, _ => (before.reverse, some .malformed, [])
  | bound + 1, before, text =>
    match skipSpace text with
    | [] => (before.reverse, some .unfinished, [])
    | ']' :: rest => (before.reverse, none, rest)
    | c :: rest =>
      if before.isEmpty then
        let (item, rest) := readValue bound (c :: rest)
        readItems bound (item :: before) rest
      else if c = ',' then
        match skipSpace rest with
        | ']' :: _ => ((.bad .malformed :: before).reverse, none, [])
        | rest =>
          let (item, rest) := readValue bound rest
          readItems bound (item :: before) rest
      else (before.reverse, some .malformed, [])

/-- Reads the fields of an object behind the ones read, the last one first. -/
def readFields : Nat → List (Option String × Document) → List Char →
    List (Option String × Document) × Option Fault × List Char
  | 0, before, _ => (before.reverse, some .malformed, [])
  | bound + 1, before, text =>
    let stop (f : Fault) := (before.reverse, some f, [])
    match skipSpace text with
    | [] => stop .unfinished
    | '\x7d' :: rest => (before.reverse, none, rest)
    | c :: rest =>
      if before.isEmpty then
        if c = '"' then readField bound before rest else stop .malformed
      else if c = ',' then
        match skipSpace rest with
        | [] => stop .unfinished
        | '"' :: rest => readField bound before rest
        | _ => stop .malformed
      else stop .malformed

/-- Reads a field from the inside of its name on, and the fields behind it. -/
def readField : Nat → List (Option String × Document) → List Char →
    List (Option String × Document) × Option Fault × List Char
  | 0, before, _ => (before.reverse, some .malformed, [])
  | bound + 1, before, text =>
    match readString text with
    | .error (reading, passing) =>
      if reading = passing then (before.reverse, some passing, [])
      else (((none, .fault reading passing) :: before).reverse, none, [])
    | .ok (name, rest) =>
      match skipSpace rest with
      | [] => (((name, .bad .unfinished) :: before).reverse, none, [])
      | ':' :: rest =>
        let (value, rest) := readValue bound rest
        readFields bound ((name, value) :: before) rest
      | _ => (((name, .bad .malformed) :: before).reverse, none, [])

end

/-- The document that a text begins with, and the text left. -/
def readDocument (text : List Char) : Document × List Char :=
  readValue (3 * text.length + 3) text

/-! ## Passing over a value -/

mutual

/-- The fault that is met in passing over a value of which nothing is wanted. Its nesting, the size
of its numbers and its escapes by number are not looked at. -/
def Document.skim : Document → Except Fault Unit
  | .array items ending =>
    match skimItems items with
    | .error f => .error f
    | .ok () => match ending with
      | some f => .error f
      | none => .ok ()
  | .object fields ending =>
    match skimFields fields with
    | .error f => .error f
    | .ok () => match ending with
      | some f => .error f
      | none => .ok ()
  | .fault _ passing => .error passing
  | .null | .bool _ | .number _ | .string _ => .ok ()

def skimItems : List Document → Except Fault Unit
  | [] => .ok ()
  | item :: items =>
    match item.skim with
    | .error f => .error f
    | .ok () => skimItems items

def skimFields : List (Option String × Document) → Except Fault Unit
  | [] => .ok ()
  | (_, value) :: fields =>
    match value.skim with
    | .error f => .error f
    | .ok () => skimFields fields

end

end RecordFilter.Json
