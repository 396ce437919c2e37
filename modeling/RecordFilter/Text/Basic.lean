/-
# Texts

Small operations on texts: cutting at a character, writing a character twice, naturals with zeros in
front, sizes in bytes and comparison.
-/

namespace RecordFilter.Text

/-- The pieces of a text between the occurrences of `mark`. There is always at least one. -/
def cut (mark : Char) : List Char → List (List Char)
  | [] => [[]]
  | c :: rest =>
    if c = mark then [] :: cut mark rest
    else match cut mark rest with
      | [] => [[c]]
      | piece :: pieces => (c :: piece) :: pieces

/-- The names of a dotted path, in order. -/
def dotted (path : String) : List String :=
  (cut '.' path.toList).map String.ofList

/-- Names joined to a dotted path. -/
def joinDots (names : List String) : String :=
  ".".intercalate names

/-- The text with `mark` written twice wherever it stands. -/
def double (mark : Char) (text : List Char) : List Char :=
  text.flatMap fun c => if c = mark then [mark, mark] else [c]

@[simp]
theorem double_cons_self (mark : Char) (text : List Char) :
    double mark (mark :: text) = mark :: mark :: double mark text :=
  congrArg (· ++ double mark text) (if_pos rfl)

@[simp]
theorem double_cons_of_ne {mark c : Char} (h : c ≠ mark) (text : List Char) :
    double mark (c :: text) = c :: double mark text :=
  congrArg (· ++ double mark text) (if_neg h)

/-- A natural with zeros in front, at least `width` digits long. -/
def padded (width n : Nat) : String :=
  let digits := Nat.toDigits 10 n
  String.ofList (List.replicate (width - digits.length) '0' ++ digits)

/-- How many bytes a text takes in UTF-8. -/
def byteSize (text : List Char) : Nat :=
  text.foldr (fun c n => c.utf8Size + n) 0

/-- Order of texts by code point, the shorter of two texts first where one begins the other. -/
def compareChars : List Char → List Char → Ordering
  | [], [] => .eq
  | [], _ :: _ => .lt
  | _ :: _, [] => .gt
  | a :: as, b :: bs => (compare a.toNat b.toNat).then (compareChars as bs)

/-- Order of texts by code point. -/
def compareText (a b : String) : Ordering :=
  compareChars a.toList b.toList

/-- Equality of texts that takes `A` to `Z` for `a` to `z`. -/
def sameIgnoringCase (a b : String) : Bool :=
  a.toList.map Char.toLower == b.toList.map Char.toLower

/-- Whether a code point lies in one of the ranges of a table. -/
def inRanges (table : List (Nat × Nat)) (c : Char) : Bool :=
  table.any fun (first, last) => first ≤ c.toNat && c.toNat ≤ last

end RecordFilter.Text
