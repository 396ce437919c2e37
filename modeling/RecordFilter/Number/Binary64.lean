/-
# Binary floating point

Finite binary floating-point numbers of 64 bits, as exact values with one rounding rule.

A number is a sign, a mantissa below `2^53` and an exponent; every operation computes the exact
result as a quotient of naturals and rounds it once, to the nearest number, a tie to the even
mantissa.
-/
import RecordFilter.Number.Power

namespace RecordFilter

/-- The number `± mantissa * 2^exponent`. -/
structure Binary64 where
  negative : Bool
  mantissa : Nat
  exponent : Int
deriving DecidableEq, Inhabited

namespace Binary64

/-- The exponent of the numbers next to zero. -/
def leastExponent : Int := -1074

/-- The exponent of the greatest numbers. -/
def greatestExponent : Int := 971

/-- A quotient rounded to the nearest natural, a tie to the even one. -/
def roundQuotient (num den : Nat) : Nat :=
  let quotient := num / den
  match compare (2 * (num % den)) den with
  | .lt => quotient
  | .gt => quotient + 1
  | .eq => if quotient % 2 = 0 then quotient else quotient + 1

/-- `num / den` in units of `2^exponent`, as a quotient. -/
def inUnits (num den : Nat) (exponent : Int) : Nat × Nat :=
  (num * twoTo (-exponent).toNat, den * twoTo exponent.toNat)

/-- The exponent for which a positive quotient has a mantissa of 53 bits, or the least one where the
mantissa is shorter. -/
def exponentOf (num den : Nat) : Int :=
  let guess : Int := (Nat.log2 num : Int) - Nat.log2 den - 52
  let (scaledNum, scaledDen) := inUnits num den guess
  max leastExponent (if scaledNum < scaledDen * twoTo 52 then guess - 1 else guess)

/-- The number nearest to `num / den`, or none where that is beyond the greatest number. -/
def ofQuotient (negative : Bool) (num den : Nat) : Option Binary64 :=
  if num = 0 then some ⟨negative, 0, leastExponent⟩
  else
    let exponent := exponentOf num den
    let (scaledNum, scaledDen) := inUnits num den exponent
    let mantissa := roundQuotient scaledNum scaledDen
    let x : Binary64 :=
      if mantissa = twoTo 53 then ⟨negative, twoTo 52, exponent + 1⟩
      else ⟨negative, mantissa, exponent⟩
    if x.exponent ≤ greatestExponent then some x else none

def ofNat (n : Nat) : Option Binary64 :=
  ofQuotient false n 1

def isZero (x : Binary64) : Bool :=
  x.mantissa = 0

def negate (x : Binary64) : Binary64 :=
  { x with negative := !x.negative }

/-- The absolute value as a quotient. -/
def quotient (x : Binary64) : Nat × Nat :=
  (x.mantissa * twoTo x.exponent.toNat, twoTo (-x.exponent).toNat)

/-- The product, rounded; none where it is too large. -/
def times (x y : Binary64) : Option Binary64 :=
  let (a, b) := x.quotient
  let (c, d) := y.quotient
  ofQuotient (x.negative != y.negative) (a * c) (b * d)

/-- The quotient by a number other than zero, rounded; none where it is too large. -/
def dividedBy (x y : Binary64) : Option Binary64 :=
  let (a, b) := x.quotient
  let (c, d) := y.quotient
  ofQuotient (x.negative != y.negative) (a * d) (b * c)

/-- The number nearest to `10^k`. -/
def powerOfTen (k : Nat) : Option Binary64 :=
  ofNat (tenTo k)

/-- `x / 10^k` in steps of at most `10^308`, each of them rounded. -/
def lowerByTens (x : Binary64) (k : Nat) : Option Binary64 :=
  if k ≤ 308 then do x.dividedBy (← powerOfTen k)
  else if x.isZero then some x
  else do (← x.dividedBy (← powerOfTen 308)).lowerByTens (k - 308)
termination_by k

/-- `x * 10^k` in one step; none where `10^k` is no number, unless `x` is zero. -/
def raiseByTens (x : Binary64) (k : Nat) : Option Binary64 :=
  if k ≤ 308 then do x.times (← powerOfTen k)
  else if x.isZero then some x
  else none

/-- `x * 10^k`. -/
def scaleByTens (x : Binary64) : Int → Option Binary64
  | .ofNat k => x.raiseByTens k
  | .negSucc k => x.lowerByTens (k + 1)

end Binary64

end RecordFilter
