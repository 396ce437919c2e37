/-
# Running filters

A record is expanded into rows, one for each choice of elements along its joins; a predicate is
true, false or unknown on a row; and a record matches once for each row on which the predicate is
true.
-/
import RecordFilter.Calendar.Reading
import RecordFilter.Like
import RecordFilter.Number.Decimal
import RecordFilter.Predicate

namespace RecordFilter

/-! ## Stored values -/

/-- The value at the end of a chain of fields. -/
def Json.descend (value : Json) : List String → Option Json
  | [] => some value
  | name :: names =>
    match value.get? name with
    | some value => value.descend names
    | none => none

/-- A value that is there and not null. -/
def Json.present? : Option Json → Option Json
  | some .null => none
  | value => value

/-- The text of a plain value. -/
def Json.textOf : Json → Option String
  | string s => some s
  | number n => some n.text
  | bool b => some (if b then "true" else "false")
  | null | array _ | object _ => none

/-- The decimal number of a stored number, or of a stored text without the blanks around it. -/
def Json.decimal? : Json → Option Decimal
  | number n => Decimal.ofText n.text.toList
  | string s => Decimal.ofText (Text.trim s.toList)
  | _ => none

/-- Whether a value is missing or has no elements. -/
def Json.lacksElements : Option Json → Bool
  | none => true
  | some (.array items) => items.isEmpty
  | some (.object fields) => fields.isEmpty
  | some _ => false

/-- The order of two truth values, false first. -/
def Json.compareBool : Bool → Bool → Ordering
  | false, true => .lt
  | true, false => .gt
  | _, _ => .eq

/-- How a stored value compares to an argument, if it can be read as one of the same type. -/
def Json.compareTo (stored : Json) : Value → Option Ordering
  | .null => none
  | .int _ n => stored.decimal?.map (·.compareInt n)
  | .boolean b => match stored with
    | .bool a => some (Json.compareBool a b)
    | _ => none
  | .date d => match stored with
    | .string s => (Date.ofStored? s).map (·.compare d)
    | _ => none
  | .dateTime m => match stored with
    | .string s => (DateTime.ofStored? s).map (·.compare m)
    | _ => none
  | .text s => stored.textOf.map fun t => Text.compareText t s

/-! ## Rows -/

/-- What the aliases of the joins made so far are bound to; nothing where a join found nothing. -/
abbrev Row := List (Alias × Option Json)

/-- What an alias is bound to. -/
def Row.bound? (row : Row) (a : Alias) : Option Json :=
  (row.lookup a).join

/-- The value that a join reads on a row. -/
def Join.related (j : Join) (record : Json) (row : Row) : Option Json :=
  let parent := match j.parent with
    | none => some record
    | some a => row.bound? a
  Json.present? (parent.bind (·.descend j.attributes))

/-- The bindings that a join offers on a row: each element of a relation to many, or the value as it
is, or nothing. -/
def Join.bindings (j : Join) (record : Json) (row : Row) : List (Option Json) :=
  match j.related record row, j.cardinality with
  | some (.array []), .toMany => [none]
  | some (.array items), .toMany => items.map some
  | other, _ => [other]

/-- The rows of a record: the joins are made in order, each row going on with each binding. -/
def Row.expand (record : Json) : List Join → List Row → List Row
  | [], rows => rows
  | j :: joins, rows =>
    Row.expand record joins
      (rows.flatMap fun row => (j.bindings record row).map fun b => (j.target, b) :: row)

/-- The rows of a record under joins. -/
def Row.ofRecord (record : Json) (joins : List Join) : List Row :=
  Row.expand record joins [[]]

/-- The value of a path on a row; nothing where it is null or missing. -/
def ResolvedPath.read (p : ResolvedPath) (record : Json) (row : Row) : Option Json :=
  let source := match p.source with
    | none => some record
    | some a => row.bound? a
  Json.present? (source.bind (·.descend p.accessor))

/-! ## Truth -/

/-- True, false, or unknown. -/
abbrev Truth := Option Bool

/-- The patterns of a predicate, ready for matching, by their texts. -/
abbrev PatternTable := List (String × LikePattern)

/-- Whether a text matches the pattern of a text; unknown if the table lacks the pattern. -/
def PatternTable.like (table : PatternTable) (pattern text : String) : Truth :=
  (table.lookup pattern).map (·.matchesLower text)

/-- Whether a stored value is one of several; unknown if it is none of those it can be compared to
and cannot be compared to all. -/
def Json.isOneOf (stored : Json) : List Value → Truth
  | [] => some false
  | value :: values =>
    match Json.compareTo stored value with
    | some .eq => some true
    | some _ => Json.isOneOf stored values
    | none => match Json.isOneOf stored values with
      | some true => some true
      | _ => none

/-- The text that a stored list is searched as: the texts of its elements, one behind the other. -/
def Json.joinedText : Json → Option String
  | .array items => some (String.join (items.filterMap Json.textOf))
  | other => other.textOf

/-- The truth of a condition, given the value it is about. -/
def Condition.eval (table : PatternTable) (stored : Option Json) : Condition → Truth
  | isNull => some stored.isNone
  | isNotNull => some stored.isSome
  | isEmpty => some (Json.lacksElements stored)
  | isNotEmpty => some (!Json.lacksElements stored)
  | equal value => stored.bind fun s => (Json.compareTo s value).map (· == .eq)
  | notEqual value => stored.bind fun s => (Json.compareTo s value).map (· != .eq)
  | like pattern negated =>
    stored.bind fun s => s.textOf.bind fun t => (table.like pattern t).map (· != negated)
  | joinedLike pattern => stored.bind fun s => s.joinedText.bind fun t => table.like pattern t
  | compare relation value => stored.bind fun s => (Json.compareTo s value).map relation.accepts
  | compareText relation text =>
    stored.bind fun s => s.textOf.map fun t => relation.accepts (Text.compareText t text)
  | isIn values => stored.bind fun s => Json.isOneOf s values

namespace Predicate

mutual

/-- The truth of a predicate on a row of a record. A conjunction is false as soon as one operand is,
and a disjunction true; otherwise one unknown operand makes it unknown. -/
def eval (table : PatternTable) (record : Json) (row : Row) : Predicate → Truth
  | all operands => evalAll table record row operands
  | any operands => evalAny table record row operands
  | not operand => (operand.eval table record row).map (!·)
  | test path condition => condition.eval table (path.read record row)

def evalAll (table : PatternTable) (record : Json) (row : Row) : List Predicate → Truth
  | [] => some true
  | operand :: operands =>
    match operand.eval table record row with
    | some false => some false
    | some true => evalAll table record row operands
    | none => match evalAll table record row operands with
      | some false => some false
      | _ => none

def evalAny (table : PatternTable) (record : Json) (row : Row) : List Predicate → Truth
  | [] => some false
  | operand :: operands =>
    match operand.eval table record row with
    | some true => some true
    | some false => evalAny table record row operands
    | none => match evalAny table record row operands with
      | some true => some true
      | _ => none

end

mutual

/-- The texts of the patterns in a predicate, from left to right. -/
def patterns : Predicate → List String
  | all operands => patternsList operands
  | any operands => patternsList operands
  | not operand => operand.patterns
  | test _ (.like pattern _) => [pattern]
  | test _ (.joinedLike pattern) => [pattern]
  | test _ _ => []

def patternsList : List Predicate → List String
  | [] => []
  | operand :: operands => operand.patterns ++ patternsList operands

end

end Predicate

/-! ## Evaluators -/

/-- A pattern that is refused, and why. -/
structure PatternError where
  pattern : String
  reason : String
deriving DecidableEq

def PatternError.message (e : PatternError) : String :=
  "invalid like pattern '" ++ e.pattern ++ "': " ++ e.reason

/-- Prepares patterns that are not in the table yet. -/
def PatternTable.prepare (engine : PatternEngine) (table : PatternTable) :
    List String → Except PatternError PatternTable
  | [] => .ok table
  | pattern :: patterns =>
    if (table.lookup pattern).isSome then PatternTable.prepare engine table patterns
    else match engine.prepare pattern with
      | .ok prepared => PatternTable.prepare engine ((pattern, prepared) :: table) patterns
      | .error reason => .error ⟨pattern, reason⟩

/-- A filter ready to be run. -/
structure Evaluator where
  filter : Filter
  joins : List Join
  table : PatternTable

/-- The evaluator of a filter, its patterns prepared by an engine. -/
def PatternEngine.evaluator (engine : PatternEngine) (f : Filter) :
    Except PatternError Evaluator :=
  match PatternTable.prepare engine [] f.predicate.patterns with
  | .ok table => .ok ⟨f, f.joins, table⟩
  | .error e => .error e

namespace Evaluator

/-- On how many rows of a record the predicate is true. -/
def matchingRows (ev : Evaluator) (record : Json) : Nat :=
  (Row.ofRecord record ev.joins).countP fun row =>
    ev.filter.predicate.eval ev.table record row == some true

def isMatch (ev : Evaluator) (record : Json) : Bool :=
  0 < ev.matchingRows record

/-- How often a record is kept. -/
def copies (ev : Evaluator) (record : Json) : Nat :=
  let rows := ev.matchingRows record
  if ev.filter.distinct then min rows 1 else rows

/-- The records that match, in order, each as often as it is kept. -/
def apply (ev : Evaluator) (records : List Json) : List Json :=
  records.flatMap fun record => List.replicate (ev.copies record) record

end Evaluator

end RecordFilter
