/-
# Powers

Powers of two and of ten, the factors by which numbers are scaled.
-/

namespace RecordFilter

/-- `2^n`. -/
def twoTo (n : Nat) : Nat :=
  Nat.pow 2 n

/-- `10^n`. -/
def tenTo (n : Nat) : Nat :=
  Nat.pow 10 n

end RecordFilter
