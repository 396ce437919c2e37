/-
# JSON numbers

The numbers of JSON texts: integers of 64 bits, and binary floating-point numbers for everything
else.
-/
import RecordFilter.Number.Shortest

namespace RecordFilter.Json

/-- An integer between `-2^63` and `2^64 - 1`, or a floating-point number. -/
inductive Number where
  | integer (n : Int)
  | float (x : Binary64)
deriving DecidableEq

/-! ## Writing -/

/-- Decimal digits of a natural. -/
def decimalDigits (n : Nat) : List Char :=
  Nat.toDigits 10 n

/-- The text of a decimal. From `10^-5` up to `10^16` the digits stand in their places, with at
least one place after the point; elsewhere an exponent with its sign follows. -/
def layoutDecimal (d : ShortDecimal) : List Char :=
  let digits := decimalDigits d.digits
  let leading := d.leading
  if leading < -5 ∨ 16 ≤ leading then
    let sign := if leading < 0 then '-' else '+'
    digits.take 1 ++ (if digits.length = 1 then [] else '.' :: digits.drop 1) ++
      'e' :: sign :: decimalDigits leading.natAbs
  else if leading < 0 then
    '0' :: '.' :: List.replicate (leading.natAbs - 1) '0' ++ digits
  else
    let whole := leading.toNat + 1
    digits.take whole ++ List.replicate (whole - digits.length) '0' ++
      '.' :: (if digits.length ≤ whole then ['0'] else digits.drop whole)

/-- The text of a floating-point number, its shortest digits laid out. -/
def floatText (x : Binary64) : List Char :=
  (if x.negative then ['-'] else []) ++ layoutDecimal x.shortest

/-- The text of a number. -/
def Number.text : Number → String
  | integer n => toString n
  | float x => String.ofList (floatText x)

/-! ## Reading -/

/-- A number as it stands in a text. -/
structure Literal where
  negative : Bool
  /-- the digits before the point -/
  whole : List Nat
  /-- the digits after the point, where there is one -/
  fraction : Option (List Nat)
  exponent : Option Int
deriving DecidableEq

/-- A number being read: the digits that fit a word of 64 bits, and the power of ten by which they
are to be multiplied. -/
structure Significand where
  digits : Nat
  exponent : Int

namespace Significand

/-- Whether a digit fits behind the ones read. -/
def hasRoom (s : Significand) (digit : Nat) : Bool :=
  s.digits * 10 + digit < twoTo 64

/-- Reads the digits before the point. From the first that does not fit on, each only counts as a
factor of ten. -/
def readWhole (s : Significand) : List Nat → Significand
  | [] => s
  | digit :: rest =>
    if s.hasRoom digit then readWhole ⟨s.digits * 10 + digit, s.exponent⟩ rest
    else ⟨s.digits, s.exponent + (rest.length + 1)⟩

/-- Reads the digits after the point. From the first that does not fit on they are dropped. -/
def readFraction (s : Significand) : List Nat → Significand
  | [] => s
  | digit :: rest =>
    if s.hasRoom digit then readFraction ⟨s.digits * 10 + digit, s.exponent - 1⟩ rest else s

end Significand

namespace Literal

/-- The integer a literal denotes, where it has neither point nor exponent and fits 64 bits. A
negative zero is no integer. -/
def integer? (l : Literal) : Option Int :=
  match l.fraction, l.exponent with
  | none, none =>
    let n : Nat := l.whole.foldl (· * 10 + ·) 0
    if l.negative then if 0 < n ∧ n ≤ twoTo 63 then some (-n) else none
    else if n < twoTo 64 then some n else none
  | _, _ => none

/-- The floating-point number of a literal: the digits that fit, rounded, and one scaling by a power
of ten; none where it is too large. -/
def float? (l : Literal) : Option Binary64 := do
  let s := ((⟨0, 0⟩ : Significand).readWhole l.whole).readFraction (l.fraction.getD [])
  let x ← (← Binary64.ofNat s.digits).scaleByTens (s.exponent + l.exponent.getD 0)
  return if l.negative then x.negate else x

/-- The number of a literal; none where it is too large. -/
def number? (l : Literal) : Option Number :=
  match l.integer? with
  | some n => some (.integer n)
  | none => l.float?.map .float

end Literal

end RecordFilter.Json
