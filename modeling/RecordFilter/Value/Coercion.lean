/-
# Coercion

Turning the text of an argument into a value of its property's type.
-/
import RecordFilter.DateFormat
import RecordFilter.Operator
import RecordFilter.Schema
import RecordFilter.Text.Basic
import RecordFilter.Value

namespace RecordFilter

/-! ## Integers -/

/-- Why a text is no integer of a size. -/
inductive IntegerFault where
  | empty
  | invalidDigit
  | tooLarge
  | tooSmall
deriving DecidableEq

def IntegerFault.message : IntegerFault → String
  | empty => "cannot parse integer from empty string"
  | invalidDigit => "invalid digit found in string"
  | tooLarge => "number too large to fit in target type"
  | tooSmall => "number too small to fit in target type"

/-- Reads digits behind those that came to `n`, away from zero in the direction of the sign. The
first character that is no digit, or that takes the number out of its size, decides. -/
def Width.readInteger (w : Width) (negative : Bool) (n : Int) : List Char → Except IntegerFault Int
  | [] => .ok n
  | c :: rest =>
    if !c.isDigit then .error .invalidDigit
    else
      let digit : Int := (c.toNat - '0'.toNat : Nat)
      let next := if negative then n * 10 - digit else n * 10 + digit
      if next < w.least then .error .tooSmall
      else if w.greatest < next then .error .tooLarge
      else w.readInteger negative next rest

/-- The integer that a text denotes: digits behind at most one sign. -/
def Width.integerOfText (w : Width) (text : List Char) : Except IntegerFault Int :=
  match text with
  | [] => .error .empty
  | ['+'] | ['-'] => .error .invalidDigit
  | '+' :: digits => w.readInteger false 0 digits
  | '-' :: digits => w.readInteger true 0 digits
  | digits => w.readInteger false 0 digits

/-! ## All types -/

/-- Why a text is no value of a type. -/
inductive CoercionFault where
  | integer (fault : IntegerFault)
  | date (fault : DateFault) (pattern : String)
deriving DecidableEq

def CoercionFault.message : CoercionFault → String
  | integer fault => fault.message
  | date fault pattern => fault.message ++ " (expected pattern '" ++ pattern ++ "')"

/-- An argument that is no value of its property's type. -/
structure CoercionError where
  argument : String
  target : ValueType
  fault : CoercionFault
deriving DecidableEq

def CoercionError.message (e : CoercionError) : String :=
  "cannot convert '" ++ e.argument ++ "' to " ++ e.target.describe ++ ": " ++ e.fault.message

/-- Turns an argument into a value of a type. A text that is not `true` in either case is false
for a boolean; texts stay texts for everything that is no number, date or boolean. -/
def ValueType.coerce (type : ValueType) (argument : String) (format : DateFormat) :
    Except CoercionError Value :=
  let integer (w : Width) : Except CoercionError Value :=
    match w.integerOfText argument.toList with
    | .ok n => .ok (.int w n)
    | .error fault => .error ⟨argument, type, .integer fault⟩
  let refuse (fault : DateFault) : Except CoercionError Value :=
    .error ⟨argument, type, .date fault format.pattern⟩
  match type with
  | .integer => integer .integer
  | .long => integer .long
  | .byte => integer .byte
  | .dateTime =>
    match format.readDateTime argument with
    | .ok m => .ok (.dateTime m)
    | .error fault => refuse fault
  | .date =>
    match format.readDate argument with
    | .ok d => .ok (.date d)
    | .error fault => refuse fault
  | .boolean => .ok (.boolean (Text.sameIgnoringCase argument "true"))
  | .string | .list | .entity | .other => .ok (.text argument)

/-- Turns arguments into values of a type, up to the first that cannot be. -/
def ValueType.coerceList (type : ValueType) (format : DateFormat) :
    List String → Except CoercionError (List Value)
  | [] => .ok []
  | argument :: arguments =>
    match type.coerce argument format with
    | .error e => .error e
    | .ok value => (type.coerceList format arguments).map (value :: ·)

/-- Turns the arguments of an operator into values. Those of `=isnull=` and `=isempty=` are no data
and stay texts. -/
def ValueType.coerceArguments (type : ValueType) (operator : Operator) (arguments : List String)
    (format : DateFormat) : Except CoercionError (List Value) :=
  match operator with
  | .isNull | .isEmpty => .ok (arguments.map .text)
  | _ => type.coerceList format arguments

end RecordFilter
