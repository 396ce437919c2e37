/-
# JSON values

The type of JSON values. An object is the list of its fields as they were written, and a field is
looked up by name.
-/
import RecordFilter.Json.Number

namespace RecordFilter

/-- A JSON value. The fields of an object stand in the order in which they were written. -/
inductive Json where
  | null
  | bool (b : Bool)
  | number (n : Json.Number)
  | string (s : String)
  | array (items : List Json)
  | object (fields : List (String × Json))
deriving Inhabited

namespace Json

def ofNat (n : Nat) : Json :=
  number (.integer n)

def isNull : Json → Bool
  | null => true
  | _ => false

/-- The value of a field of an object. -/
def get? : Json → String → Option Json
  | object fields, name => fields.lookup name
  | _, _ => none

end Json

end RecordFilter
