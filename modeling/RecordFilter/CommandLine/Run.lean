/-
# Running a command line

A command line is run as a function: given the files it names and its standard input, it says what
is written and with which code the program ends.
-/
import RecordFilter.CommandLine.Arguments
import RecordFilter.CommandLine.Commands
import RecordFilter.Json.Printer

namespace RecordFilter.CommandLine

/-- What a command leaves behind. -/
structure Outcome where
  exitCode : Nat
  output : String
  errors : String

/-- A file's text, or the reason why it cannot be read. -/
abbrev FileText := Except String String

/-- The text of a file from its bytes. -/
def textOfBytes (bytes : ByteArray) : FileText :=
  match String.fromUTF8? bytes with
  | some text => .ok text
  | none => .error "stream did not contain valid UTF-8"

/-- The files that a command reads, not counting its standard input. -/
def Command.files : Command → List String
  | compile request => request.schemaFile :: request.settingsFile.toList
  | filter request inputFile =>
    inputFile.toList ++ request.schemaFile :: request.settingsFile.toList
  | _ => []

/-- Whether a command reads its standard input. -/
def Command.readsInput : Command → Bool
  | filter _ none => true
  | _ => false

/-- The job of a request, its schema read before its settings. -/
def Request.job (r : Request) (read : String → FileText) : Except CommandError Job := do
  let schema ← (read r.schemaFile).mapError .file
  let settings ← match r.settingsFile with
    | none => .ok none
    | some file => ((read file).mapError CommandError.file).map some
  return ⟨r.query, schema, settings, r.distinct⟩

/-- A value as a command writes it. -/
def Request.write (r : Request) (value : Json) : String :=
  (if r.pretty then value.pretty "" else value.render) ++ "\n"

/-- The output of a command. `input` is its standard input, and none at a terminal. -/
def Command.output (command : Command) (read : String → FileText) (input : Option FileText) :
    Except CommandError String :=
  match command with
  | check query => do
    CommandLine.check query
    return "Syntax is valid\n"
  | compile request => do
    let job ← request.job read
    return request.write (← job.describe)
  | filter request inputFile => do
    let text ← match inputFile.map read, input with
      | some text, _ | none, some text => (text.mapError CommandError.file).map some
      | none, none => .ok none
    let job ← request.job read
    return request.write (← job.select text)
  | docs => .ok Manual.overview
  | doc category => manual category
  | version => .ok "rsql 0.1.0\n"

/-- Help on the command line. -/
def usage : String :=
  "Usage: rsql <check|compile|filter|docs|doc> [OPTIONS] [QUERY]\n"

/-- Runs the words of a command line. -/
def run (words : List String) (read : String → FileText) (input : Option FileText) : Outcome :=
  match Command.read words with
  | .error .usage => ⟨2, "", usage⟩
  | .error .help => ⟨0, usage, ""⟩
  | .ok command =>
    match command.output read input with
    | .ok output => ⟨0, output, ""⟩
    | .error e => ⟨1, "", e.message ++ "\n"⟩

end RecordFilter.CommandLine
