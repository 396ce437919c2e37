/-
# Commands

What the commands do, from texts to results.
-/
import RecordFilter.CommandLine.Engine
import RecordFilter.Compiler
import RecordFilter.Manual
import RecordFilter.Predicate.Json
import RecordFilter.Predicate.Query

namespace RecordFilter.CommandLine

/-- Why a command fails. -/
inductive CommandError where
  | compile (error : Error)
  | pattern (error : PatternError)
  | json (error : Json.ReadError)
  /-- a file cannot be read, for the reason that the system gives -/
  | file (reason : String)
  | noInput
  | notAnArray
  | unknownCategory (name : String)

def CommandError.message : CommandError → String
  | compile error => error.message
  | pattern error => "evaluation error: " ++ error.message
  | json error => "invalid JSON: " ++ error.message
  | file reason => "IO error: " ++ reason
  | noInput => "no input provided. Use --input or pipe JSON to stdin."
  | notAnArray => "expected a JSON array of records"
  | unknownCategory name =>
    "unknown category: '" ++ name ++ "'\nRun 'rsql docs' to see available categories."

/-- What is to be compiled, as texts. -/
structure Job where
  query : String
  schema : String
  settings : Option String
  distinct : Bool

/-- Checks the syntax of a filter expression. -/
def check (query : String) : Except CommandError Unit :=
  match Compiler.standard.parse query with
  | .ok _ => .ok ()
  | .error e => .error (.compile e)

/-- The compiler of a settings text, or the standard one. -/
def compilerOf (settings : Option String) : Except CommandError Compiler :=
  match settings with
  | none => .ok .standard
  | some text => do
    let settings ← (Settings.ofText text).mapError .json
    (Compiler.ofSettings settings).mapError .compile

namespace Job

/-- The filter of a job; none for the empty expression. -/
def filter (job : Job) : Except CommandError (Option Filter) := do
  let entity ← (Entity.ofText job.schema).mapError .json
  let compiler ← compilerOf job.settings
  let compile := if job.distinct then compiler.compileDistinct else compiler.compile
  (compile entity (some job.query)).mapError .compile

/-- The filter of a job as JSON, or null. -/
def describe (job : Job) : Except CommandError Json := do
  match ← job.filter with
  | none => return .null
  | some f =>
    return .object [
      ("sql", .string f.render),
      ("distinct", .bool f.distinct),
      ("joins", .array (f.joins.map Join.toJson)),
      ("predicate", f.predicate.toJson)]

/-- The records of an input text that the filter of a job lets through. -/
def select (job : Job) (input : Option String) : Except CommandError Json := do
  let filter ← job.filter
  match input with
  | none => .error .noInput
  | some text =>
    match ← (Json.ofText text).mapError .json with
    | .array records => return .array (← (filterRecords filter records).mapError .pattern)
    | _ => .error .notAnArray

end Job

/-- The text of a category of the manual. -/
def manual (name : String) : Except CommandError String :=
  match Manual.Category.ofName? name with
  | some category => .ok category.text
  | none => .error (.unknownCategory name)

end RecordFilter.CommandLine
