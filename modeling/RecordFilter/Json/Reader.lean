/-
# Reading JSON

Values read from documents, and what can be wrong with a text or with what it says.
-/
import RecordFilter.Json.Document
import RecordFilter.Text.Quoted

namespace RecordFilter.Json

/-! ## Errors -/

/-- Why a JSON value does not describe what it should. -/
inductive DataError where
  /-- a value of the wrong type; `found` and `expected` describe the two -/
  | invalidType (found expected : String)
  | invalidValue (found expected : String)
  | invalidLength (length : Nat) (expected : String)
  | missingField (name : String)
  | duplicateField (name : String)
  | unknownField (name : String) (known : List String)
  | unknownVariant (name : String) (known : List String)
deriving DecidableEq

/-- Names between backquotes, as messages list them. -/
def listNames : List String → String
  | [] => "nothing"
  | [a] => "`" ++ a ++ "`"
  | [a, b] => "`" ++ a ++ "` or `" ++ b ++ "`"
  | names => "one of " ++ ", ".intercalate (names.map fun name => "`" ++ name ++ "`")

def DataError.message : DataError → String
  | invalidType found expected => "invalid type: " ++ found ++ ", expected " ++ expected
  | invalidValue found expected => "invalid value: " ++ found ++ ", expected " ++ expected
  | invalidLength length expected =>
    "invalid length " ++ toString length ++ ", expected " ++ expected
  | missingField name => "missing field `" ++ name ++ "`"
  | duplicateField name => "duplicate field `" ++ name ++ "`"
  | unknownField name known => "unknown field `" ++ name ++ "`, expected " ++ listNames known
  | unknownVariant name known => "unknown variant `" ++ name ++ "`, expected " ++ listNames known

/-- Why a text could not be read: it is no JSON, or its value is not the one wanted. -/
inductive ReadError where
  | fault (f : Fault)
  | data (e : DataError)
deriving DecidableEq

def ReadError.message : ReadError → String
  | fault .unfinished => "the text ends before the value does"
  | fault .malformed => "the text is malformed"
  | data e => e.message

/-- How a value is named in a message. -/
def describe : Json → String
  | null => "null"
  | bool b => if b then "boolean `true`" else "boolean `false`"
  | number (.integer n) => "integer `" ++ toString n ++ "`"
  | number (.float x) => "floating point `" ++ (Number.float x).text ++ "`"
  | string s => "string " ++ Text.quoted s
  | array _ => "sequence"
  | object _ => "map"

/-- The error that a value is of the wrong type. -/
def mismatch (expected : String) (value : Json) : DataError :=
  .invalidType value.describe expected

/-- An error for `extra` elements behind the `count` that are wanted. -/
def DataError.tooMany (count extra : Nat) : DataError :=
  .invalidLength (count + extra)
    (if count = 1 then "1 element in sequence" else toString count ++ " elements in sequence")

/-! ## Whole values -/

/-- The greatest number of arrays and objects around a value. -/
def nestingLimit : Nat := 127

namespace Document

mutual

/-- The value of a document inside `depth` arrays and objects, or its first fault. -/
def value (depth : Nat) : Document → Except Fault Json
  | .null => .ok .null
  | .bool b => .ok (.bool b)
  | .number l => match l.number? with
    | some n => .ok (.number n)
    | none => .error .malformed
  | .string (some s) => .ok (.string s)
  | .string none => .error .malformed
  | .array items ending =>
    if nestingLimit ≤ depth then .error .malformed
    else match values (depth + 1) items, ending with
      | .error f, _ => .error f
      | .ok _, some f => .error f
      | .ok items, none => .ok (.array items)
  | .object fields ending =>
    if nestingLimit ≤ depth then .error .malformed
    else match fieldValues (depth + 1) fields, ending with
      | .error f, _ => .error f
      | .ok _, some f => .error f
      | .ok fields, none => .ok (.object fields)
  | .fault reading _ => .error reading

def values (depth : Nat) : List Document → Except Fault (List Json)
  | [] => .ok []
  | item :: items =>
    match item.value depth with
    | .error f => .error f
    | .ok item => (values depth items).map (item :: ·)

def fieldValues (depth : Nat) :
    List (Option String × Document) → Except Fault (List (String × Json))
  | [] => .ok []
  | (none, _) :: _ => .error .malformed
  | (some name, value) :: fields =>
    match value.value depth with
    | .error f => .error f
    | .ok value => (fieldValues depth fields).map ((name, value) :: ·)

end

/-- The error that a document holds a value of the wrong type. Arrays and objects are not read for
it. -/
def mismatch (expected : String) (d : Document) : ReadError :=
  match d with
  | array .. => .data (.invalidType "sequence" expected)
  | object .. => .data (.invalidType "map" expected)
  | d => match d.value 0 with
    | .ok value => .data (value.mismatch expected)
    | .error f => .fault f

/-- Fails with the fault in place of a closing bracket, if there is one. -/
def checkEnding : Option Fault → Except ReadError Unit
  | some f => .error (.fault f)
  | none => .ok ()

/-- The text of a document that should hold a string. -/
def text (d : Document) : Except ReadError String :=
  match d with
  | string (some s) => .ok s
  | d => .error (d.mismatch "a string")

end Document

/-- Reads the meaning of a whole text: nothing but blanks may follow the value. -/
def readText {α : Type} (decode : Document → Except ReadError α) (text : String) :
    Except ReadError α :=
  let (document, rest) := readDocument text.toList
  match decode document with
  | .error e => .error e
  | .ok a => if (skipSpace rest).isEmpty then .ok a else .error (.fault .malformed)

/-! ## Records -/

/-- Puts a field before the first one with a greater name. -/
def insertField (name : String) (value : Json) : List (String × Json) → List (String × Json)
  | [] => [(name, value)]
  | (other, old) :: fields =>
    match Text.compareText name other with
    | .lt => (name, value) :: (other, old) :: fields
    | .eq => (name, value) :: fields
    | .gt => (other, old) :: insertField name value fields

mutual

/-- The value with the fields of each object in ascending order of their names; of several fields of
one name the last counts. -/
def canonical : Json → Json
  | array items => array (canonicalItems items)
  | object fields => object (canonicalFields [] fields)
  | other => other

def canonicalItems : List Json → List Json
  | [] => []
  | item :: items => item.canonical :: canonicalItems items

def canonicalFields (before : List (String × Json)) : List (String × Json) → List (String × Json)
  | [] => before
  | (name, value) :: fields => canonicalFields (insertField name value.canonical before) fields

end

/-- Reads a text as a value. -/
def ofText (text : String) : Except ReadError Json :=
  readText (fun document => match document.value 0 with
    | .ok value => .ok value.canonical
    | .error f => .error (.fault f)) text

end RecordFilter.Json
