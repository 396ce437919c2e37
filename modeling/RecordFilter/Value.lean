/-
# Values

What the arguments of a filter are turned into: integers of three sizes, truth values, dates,
moments and texts.
-/
import RecordFilter.Calendar.Date
import RecordFilter.Json
import RecordFilter.Number.Power

namespace RecordFilter

/-- The three sizes of integers. -/
inductive Width where
  | byte
  | integer
  | long
deriving DecidableEq, Inhabited

namespace Width

def bits : Width → Nat
  | byte => 8
  | integer => 32
  | long => 64

/-- The least integer of a size. -/
def least (w : Width) : Int :=
  -(twoTo (w.bits - 1) : Int)

/-- The greatest integer of a size. -/
def greatest (w : Width) : Int :=
  (twoTo (w.bits - 1) : Int) - 1

/-- Whether an integer is of a size. -/
def holds (w : Width) (n : Int) : Bool :=
  w.least ≤ n && n ≤ w.greatest

def name : Width → String
  | byte => "byte"
  | integer => "integer"
  | long => "long"

end Width

/-- An argument turned into the type of its property. -/
inductive Value where
  | null
  | int (width : Width) (n : Int)
  | boolean (b : Bool)
  | date (d : Date)
  | dateTime (m : DateTime)
  /-- a text as it was written, stars still in it -/
  | text (s : String)
deriving DecidableEq, Inhabited

namespace Value

/-- The integer, of whatever size. -/
def int? : Value → Option Int
  | int _ n => some n
  | _ => none

/-- The text of a value in messages and queries. -/
def render : Value → String
  | null => "null"
  | int _ n => toString n
  | boolean b => if b then "true" else "false"
  | date d => d.text
  | dateTime m => m.text
  | text s => s

/-- The name of a value's variant. -/
def variant : Value → String
  | null => "null"
  | int width _ => width.name
  | boolean _ => "boolean"
  | date _ => "date"
  | dateTime _ => "date_time"
  | text _ => "text"

/-- What a value holds, as JSON. -/
def content : Value → Json
  | null => .null
  | int _ n => .number (.integer n)
  | boolean b => .bool b
  | date d => .string d.text
  | dateTime m => .string m.exactText
  | text s => .string s

/-- A value as JSON: its variant and, but for null, what it holds. -/
def toJson (v : Value) : Json :=
  .object (("type", .string v.variant) :: match v with
    | null => []
    | v => [("value", v.content)])

end Value

end RecordFilter
