/-
# Decimal numbers

Decimal numbers of 96 bits with up to 28 places, read from text and compared exactly.
-/
import RecordFilter.Number.Power
import RecordFilter.Text.Blank

namespace RecordFilter

/-- The number `± coefficient / 10^scale`. -/
structure Decimal where
  negative : Bool
  coefficient : Nat
  scale : Nat
deriving DecidableEq

namespace Decimal

/-- Coefficients are below this bound. -/
def bound : Nat := twoTo 96

/-- The greatest number of places. -/
def maxScale : Nat := 28

/-! ## Plain notation -/

/-- A number being read: its digits so far, how many of them are places, whether the point has been
read, and whether any digit has. -/
structure Partial where
  coefficient : Nat
  scale : Nat
  pointed : Bool
  hasDigit : Bool

/-- Whether all places have been read. -/
def Partial.isFull (p : Partial) : Bool :=
  p.pointed && p.scale == maxScale

/-- Coefficients below this bound are small: a word of 64 bits holds them, with a margin. -/
def wordBound : Nat := (twoTo 64 / 10 - 255) * 10

/-- A character that may stand behind the digits that count. -/
def isPassed (c : Char) : Bool :=
  c.isDigit || c == '_'

/-- Ends a number at a digit that is dropped: from five on the digits before it are rounded up. If
they no longer fit then, one place more is given up. Behind it only digits and underlines may
stand. -/
def roundAt (p : Partial) (digit : Nat) (rest : List Char) : Option (Nat × Nat) :=
  if !rest.all isPassed then none
  else if digit < 5 then some (p.coefficient, p.scale)
  else if p.coefficient + 1 < bound then some (p.coefficient + 1, p.scale)
  else if p.scale = 0 then none
  else some ((p.coefficient + 1 + 4) / 10, p.scale - 1)

/-- Reads digits with at most one point, and underlines between them. The first digit that does not
fit decides how the number is rounded. An underline right behind the last place is passed over, but
counts as a dropped zero where the coefficient is small. -/
def readDigits (p : Partial) : List Char → Option (Nat × Nat)
  | [] => if p.hasDigit then some (p.coefficient, p.scale) else none
  | c :: rest =>
    if c = '_' then
      if !p.hasDigit then none
      else if p.isFull && p.coefficient < wordBound then roundAt p 0 rest
      else readDigits p rest
    else if c = '.' then
      if p.pointed then none else readDigits { p with pointed := true } rest
    else if c.isDigit then
      let digit := c.toNat - '0'.toNat
      let next := p.coefficient * 10 + digit
      if p.isFull then roundAt p digit rest
      else if bound ≤ next then
        if p.pointed then roundAt p digit rest else none
      else
        readDigits ⟨next, if p.pointed then p.scale + 1 else 0, p.pointed, true⟩ rest
    else none

/-- Reads a number without exponent. -/
def ofPlain (text : List Char) : Option Decimal :=
  let read (negative : Bool) (digits : List Char) : Option Decimal :=
    (readDigits ⟨0, 0, false, false⟩ digits).map fun (coefficient, scale) =>
      ⟨negative, coefficient, scale⟩
  match text with
  | '-' :: digits => read true digits
  | '+' :: digits => read false digits
  | digits => read false digits

/-! ## Exponents -/

/-- The natural below `2^32` that digits denote, with a plus sign allowed in front. -/
def exponentOfText (text : List Char) : Option Nat :=
  let digits := match text with
    | '+' :: digits => digits
    | digits => digits
  if digits.isEmpty || !digits.all Char.isDigit then none
  else
    let n : Nat := digits.foldl (fun n c => n * 10 + (c.toNat - '0'.toNat)) 0
    if n < twoTo 32 then some n else none

/-- The number with fewer places, rounded up from five in the first place that is dropped. -/
def withPlaces (d : Decimal) (places : Nat) : Decimal :=
  let dropped := tenTo (d.scale - places)
  { d with coefficient := (d.coefficient + dropped / 2) / dropped, scale := places }

/-- Divides by `10^n`, with the places that fit. -/
def lower (d : Decimal) (n : Nat) : Option Decimal :=
  if maxScale < n then none
  else if maxScale < d.scale + n then some { d.withPlaces (maxScale - n) with scale := maxScale }
  else some { d with scale := d.scale + n }

/-- Multiplies by `10^n`: places go first, then the coefficient grows. -/
def raise (d : Decimal) (n : Nat) : Option Decimal :=
  if n ≤ d.scale then some { d with scale := d.scale - n }
  else if maxScale < n then none
  else
    let coefficient := d.coefficient * tenTo (n - d.scale)
    if coefficient < bound then some { d with coefficient := coefficient, scale := 0 } else none

def isMark (c : Char) : Bool :=
  c == 'e' || c == 'E'

/-- Reads a number with an exponent behind the first `e`. -/
def ofScientific (text : List Char) : Option Decimal :=
  match text.dropWhile (!isMark ·) with
  | [] => none
  | _ :: exponent => do
    let base ← ofPlain (text.takeWhile (!isMark ·))
    match exponent with
    | '-' :: digits => base.lower (← exponentOfText digits)
    | digits => base.raise (← exponentOfText digits)

/-- Reads a number. -/
def ofText (text : List Char) : Option Decimal :=
  (ofPlain text).or (ofScientific text)

/-! ## Comparison -/

/-- The coefficient with its sign. -/
def signed (d : Decimal) : Int :=
  if d.negative then -d.coefficient else d.coefficient

/-- Compares a decimal with an integer. -/
def compareInt (d : Decimal) (n : Int) : Ordering :=
  compare d.signed (n * tenTo d.scale)

end Decimal

end RecordFilter
