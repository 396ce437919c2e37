/-
# The engine of the program

The program is built with one engine, which refuses a pattern that grows too large. How large one
grows is the engine's own affair, and only estimated here.
-/
import RecordFilter.Evaluation

namespace RecordFilter

/-- About how many bytes an engine needs for one character of a pattern: 32 for each byte of a
letter, and more for a wildcard, which takes letters of one to four bytes. -/
def Wildcard.size : Wildcard → Nat
  | .exactly c => 32 * c.utf8Size
  | .one | .any => 700

/-- The engine that the program is built with: a pattern may take 10 MiB. -/
def PatternEngine.bounded : PatternEngine where
  refusal? pattern :=
    if pattern.parts.foldl (fun total part => total + part.size) 0 ≤ 10485760 then none
    else some "Compiled regex exceeds size limit of 10485760 bytes."

/-- The evaluator that the program runs a filter with. -/
def Evaluator.ofFilter (f : Filter) : Except PatternError Evaluator :=
  PatternEngine.bounded.evaluator f

/-- Keeps the records that a filter lets through; all of them if there is no filter. -/
def filterRecords (f : Option Filter) (records : List Json) : Except PatternError (List Json) :=
  match f with
  | none => .ok records
  | some f => (Evaluator.ofFilter f).map (·.apply records)

end RecordFilter
