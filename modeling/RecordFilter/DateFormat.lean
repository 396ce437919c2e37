/-
# Date patterns

A pattern such as `yyyy-MM-dd` is read in three steps. Quotes are undone, which tells letters that
stand for fields from characters that stand for themselves; equal letters side by side are counted;
and each run of letters becomes a field. The text of the same form in percent directives,
`%Y-%m-%d`, is `DateFormat.directives`.
-/
import RecordFilter.Calendar.Reading

namespace RecordFilter

/-- Why a text is no pattern of dates. -/
inductive PatternFault where
  | unterminatedQuote
  | unsupportedField (letter : Char) (count : Nat)
deriving DecidableEq

def PatternFault.message : PatternFault → String
  | unterminatedQuote => "unterminated quoted literal"
  | unsupportedField letter count =>
    "unsupported field '" ++ String.ofList (List.replicate count letter) ++ "'"

namespace DatePattern

/-! ## Quotes -/

/-- A character of a pattern without its quotes. -/
inductive Mark where
  /-- a character that stands for itself -/
  | literal (c : Char)
  /-- a letter that is part of a field -/
  | letter (c : Char)
deriving DecidableEq

/-- Undoes the quotes of a pattern, which is inside one where `inQuote` is set. Two quotes side by
side are one that stands for itself. Also says whether the last quote is closed. -/
def unquote (inQuote : Bool) : List Char → List Mark × Bool
  | [] => ([], !inQuote)
  | '\'' :: '\'' :: rest =>
    let (marks, closed) := unquote inQuote rest
    (.literal '\'' :: marks, closed)
  | '\'' :: rest => unquote (!inQuote) rest
  | c :: rest =>
    let (marks, closed) := unquote inQuote rest
    ((if !inQuote && c.isAlpha then .letter c else .literal c) :: marks, closed)

/-! ## Runs of letters -/

/-- A character that stands for itself, or equal letters side by side. -/
inductive Run where
  | literal (c : Char)
  | letters (c : Char) (count : Nat)
deriving DecidableEq

/-- Puts a character in front of runs. -/
def Run.join (mark : Mark) (runs : List Run) : List Run :=
  match mark, runs with
  | .literal c, runs => .literal c :: runs
  | .letter c, .letters d count :: rest =>
    if c = d then .letters c (count + 1) :: rest else .letters c 1 :: .letters d count :: rest
  | .letter c, runs => .letters c 1 :: runs

def runs (marks : List Mark) : List Run :=
  marks.foldr Run.join []

/-! ## Fields -/

/-- The field that a run of letters stands for, whatever is in front of it. -/
def field? (letter : Char) (count : Nat) : Option DateField :=
  match letter, count with
  | 'y', 4 | 'u', 4 => some .year
  | 'y', 2 | 'u', 2 => some .shortYear
  | 'M', 1 | 'M', 2 => some .month
  | 'M', 3 => some (.monthName false)
  | 'M', 4 => some (.monthName true)
  | 'd', 1 | 'd', 2 => some .day
  | 'H', 1 | 'H', 2 => some .hour
  | 'h', 1 | 'h', 2 => some .halfDayHour
  | 'm', 1 | 'm', 2 => some .minute
  | 's', 1 | 's', 2 => some .second
  | 'S', 3 => some (.places 3)
  | 'S', 6 => some (.places 6)
  | 'S', 9 => some (.places 9)
  | 'a', 1 => some .halfDay
  | 'E', 3 => some (.weekdayName false)
  | 'E', 4 => some (.weekdayName true)
  | _, _ => none

/-- Puts a run behind elements, of which the last comes first. A fraction of another width than
three, six or nine takes the point in front of it. -/
def addRun (before : List DateElement) : Run → Except PatternFault (List DateElement)
  | .literal c => .ok (.literal c :: before)
  | .letters c count =>
    match field? c count with
    | some f => .ok (.field f :: before)
    | none =>
      match c, before with
      | 'S', .literal '.' :: before => .ok (.field .fraction :: before)
      | _, _ => .error (.unsupportedField c count)

/-- Puts runs behind elements, of which the last comes first, and turns the whole around. -/
def addRuns (before : List DateElement) : List Run → Except PatternFault (List DateElement)
  | [] => .ok before.reverse
  | run :: rest =>
    match addRun before run with
    | .ok before => addRuns before rest
    | .error e => .error e

/-- The elements of a pattern. -/
def elements (pattern : String) : Except PatternFault (List DateElement) :=
  let (marks, closed) := unquote false pattern.toList
  match addRuns [] (runs marks) with
  | .error e => .error e
  | .ok elements => if closed then .ok elements else .error .unterminatedQuote

end DatePattern

/-- The percent directive of a field. -/
def DateField.directive : DateField → List Char
  | year => ['%', 'Y']
  | shortYear => ['%', 'y']
  | month => ['%', 'm']
  | monthName false => ['%', 'b']
  | monthName true => ['%', 'B']
  | day => ['%', 'd']
  | weekdayName false => ['%', 'a']
  | weekdayName true => ['%', 'A']
  | hour => ['%', 'H']
  | halfDayHour => ['%', 'I']
  | halfDay => ['%', 'p']
  | minute => ['%', 'M']
  | second => ['%', 'S']
  | places count => '%' :: Nat.toDigits 10 count ++ ['f']
  | fraction => ['%', '.', 'f']

/-- The text of an element among percent directives. -/
def DateElement.directive : DateElement → List Char
  | literal c => if c = '%' then ['%', '%'] else [c]
  | field f => f.directive

/-- A pattern of dates and the elements it stands for. -/
structure DateFormat where
  pattern : String
  elements : List DateElement
deriving DecidableEq

namespace DateFormat

/-- The format of a pattern. -/
def ofPattern (pattern : String) : Except PatternFault DateFormat :=
  (DatePattern.elements pattern).map (⟨pattern, ·⟩)

/-- `yyyy-MM-dd HH:mm:ss.SSS`. -/
def standard : DateFormat where
  pattern := "yyyy-MM-dd HH:mm:ss.SSS"
  elements := [.field .year, .literal '-', .field .month, .literal '-', .field .day, .literal ' ',
    .field .hour, .literal ':', .field .minute, .literal ':', .field .second, .literal '.',
    .field (.places 3)]

/-- The format in percent directives. -/
def directives (f : DateFormat) : String :=
  String.ofList (f.elements.flatMap DateElement.directive)

/-- Whether a year of two digits is read. -/
def hasShortYear (f : DateFormat) : Bool :=
  f.elements.contains (.field .shortYear)

/-- A year of two digits belongs to the century that began with 2000. -/
def thisCentury (f : DateFormat) (d : Date) : Date :=
  if f.hasShortYear && d.year < 2000 then (d.inYear? (d.year + 100)).getD d else d

/-- The fields read from a text. -/
def fields (f : DateFormat) (text : String) : Except DateFault Fields :=
  DateItem.readAll {} (DateItem.ofElements f.elements) text.toList

/-- Reads a date; what the text says about the time of day is read and dropped. -/
def readDate (f : DateFormat) (text : String) : Except DateFault Date := do
  return f.thisCentury (← (← f.fields text).date)

/-- Reads a moment. -/
def readDateTime (f : DateFormat) (text : String) : Except DateFault DateTime := do
  let m ← (← f.fields text).dateTime
  return { m with date := f.thisCentury m.date }

end DateFormat

end RecordFilter
