/-
# The program `rsql`

The files that a command line names are read, and all else is left to `CommandLine.run`.
-/
import RecordFilter.CommandLine.Run

namespace RecordFilter.CommandLine

/-- The reason that the system gives for an error. -/
def errorReason (e : IO.Error) : String :=
  match e with
  | .noFileOrDirectory .. => "No such file or directory (os error 2)"
  | .permissionDenied .. => "Permission denied (os error 13)"
  | .inappropriateType _ code details => details ++ " (os error " ++ toString code ++ ")"
  | e => toString e

/-- The bytes that an action reads, as text. -/
def textOf (action : IO ByteArray) : IO FileText := do
  match ← action.toBaseIO with
  | .ok bytes => return textOfBytes bytes
  | .error e => return .error (errorReason e)

end RecordFilter.CommandLine

open RecordFilter.CommandLine

def main (words : List String) : IO UInt32 := do
  let command := Command.read words
  let files ← match command with
    | .ok command => command.files.mapM fun (file : String) => do
      return (file, ← textOf (IO.FS.readBinFile file))
    | .error _ => pure []
  let stdin ← IO.getStdin
  let wanted := match command with
    | .ok command => command.readsInput
    | .error _ => false
  let input ← if wanted && !(← stdin.isTty) then some <$> textOf stdin.readBinToEnd else pure none
  let read (file : String) : FileText := (files.lookup file).getD (.error "file not read")
  let outcome := run words read input
  IO.print outcome.output
  IO.eprint outcome.errors
  return outcome.exitCode.toUInt32
