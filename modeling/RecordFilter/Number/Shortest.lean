/-
# Shortest decimals

The shortest decimal of a binary number has the fewest digits that read back to it. For one digit,
two digits and so on the two neighbours of the number on that decimal grid are tried, the nearer one
first. The first that rounds back to the number is the answer.
-/
import RecordFilter.Number.Binary64

namespace RecordFilter

/-- The decimal `digits * 10^exponent`. -/
structure ShortDecimal where
  digits : Nat
  exponent : Int
deriving DecidableEq, Inhabited

namespace ShortDecimal

/-- How many decimal digits a natural has; one for zero. -/
def digitCount (n : Nat) : Nat :=
  (Nat.toDigits 10 n).length

/-- The value as a quotient. -/
def quotient (d : ShortDecimal) : Nat × Nat :=
  (d.digits * tenTo d.exponent.toNat, tenTo (-d.exponent).toNat)

/-- The same value with no zero at the end of its digits, if they are at most `bound` many. -/
def stripZeros : Nat → ShortDecimal → ShortDecimal
  | 0, d => d
  | bound + 1, d =>
    if d.digits ≠ 0 ∧ d.digits % 10 = 0 then stripZeros bound ⟨d.digits / 10, d.exponent + 1⟩ else d

/-- The exponent of the leading digit. -/
def leading (d : ShortDecimal) : Int :=
  d.exponent + digitCount d.digits - 1

end ShortDecimal

namespace Binary64

/-- The exponent of the leading decimal digit of a positive quotient. -/
def leadingExponent (num den : Nat) : Int :=
  if den ≤ num then ShortDecimal.digitCount (num / den) - 1
  else -(ShortDecimal.digitCount ((den + num - 1) / num - 1) : Int)

/-- The two neighbours of a quotient on the grid of multiples of `10^exponent`, the nearer one first
and of two equally near ones the even one. -/
def neighbours (num den : Nat) (exponent : Int) : List ShortDecimal :=
  let num := num * tenTo (-exponent).toNat
  let den := den * tenTo exponent.toNat
  let below : ShortDecimal := ⟨num / den, exponent⟩
  let above : ShortDecimal := ⟨num / den + 1, exponent⟩
  match compare (2 * (num % den)) den with
  | .lt => [below, above]
  | .gt => [above, below]
  | .eq => if num / den % 2 = 0 then [below, above] else [above, below]

/-- Whether a decimal rounds to the absolute value of `x`. -/
def readsBack (x : Binary64) (d : ShortDecimal) : Bool :=
  let (num, den) := d.quotient
  ofQuotient x.negative num den == some x

/-- The decimal of the fewest digits that rounds to the absolute value of `x`; of two, the nearer.
-/
def shortest (x : Binary64) : ShortDecimal :=
  if x.isZero then ⟨0, 0⟩
  else
    let (num, den) := x.quotient
    let leading := leadingExponent num den
    let found := (List.range 17).findSome? fun (places : Nat) =>
      (neighbours num den (leading - places)).find? x.readsBack
    (found.getD ⟨0, 0⟩).stripZeros 17

end Binary64

end RecordFilter
