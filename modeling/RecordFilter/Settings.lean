/-
# Settings

What can be set about a compiler, and how it is read from JSON.
-/
import RecordFilter.DateFormat
import RecordFilter.Json.Reader

namespace RecordFilter

open Json (Document DataError ReadError Fault)

/-- What can be set about a compiler. -/
structure Settings where
  /-- the pattern of date and date-time arguments -/
  datePattern : String := DateFormat.standard.pattern
deriving DecidableEq

namespace Settings

/-- Settings from the fields of an object. There is one field, and it may be left out. -/
def ofFields (ending : Option Fault) (pattern : Option String) :
    List (Option String × Document) → Except ReadError Settings
  | [] =>
    (Document.checkEnding ending).map fun () => ⟨pattern.getD DateFormat.standard.pattern⟩
  | (none, _) :: _ => .error (.fault .malformed)
  | (some name, value) :: fields =>
    if name = "date_format" then
      match pattern with
      | some _ => .error (.data (.duplicateField name))
      | none => match value.text with
        | .ok pattern => ofFields ending (some pattern) fields
        | .error e => .error e
    else .error (.data (.unknownField name ["date_format"]))

/-- Settings from a document: an object, or an array of the pattern alone. -/
def ofDocument : Document → Except ReadError Settings
  | .object fields ending => ofFields ending none fields
  | .array [] ending => (Document.checkEnding ending).map fun () => {}
  | .array (pattern :: rest) ending =>
    match pattern.text with
    | .error e => .error e
    | .ok pattern =>
      if !rest.isEmpty then .error (.fault .malformed)
      else (Document.checkEnding ending).map fun () => ⟨pattern⟩
  | d => .error (d.mismatch "struct CompilerConfig")

/-- Reads settings from a JSON text. -/
def ofText (text : String) : Except ReadError Settings :=
  Json.readText ofDocument text

end Settings

end RecordFilter
