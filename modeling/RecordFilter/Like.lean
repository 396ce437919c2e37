/-
# Patterns with wildcards

In a pattern `%` stands for any text and `_` for any one character. Matching goes through the
pattern from its end and keeps, for every place of the text, whether the rest of the pattern matches
there. A pattern is prepared by an engine first, which may refuse it.
-/
import RecordFilter.Text.Lower

namespace RecordFilter

/-- One character of a pattern. -/
inductive Wildcard where
  /-- just this character -/
  | exactly (c : Char)
  /-- any one character -/
  | one
  /-- any text, also none -/
  | any
deriving DecidableEq

/-- A pattern ready for matching. -/
structure LikePattern where
  parts : List Wildcard
deriving DecidableEq

namespace LikePattern

def part (c : Char) : Wildcard :=
  match c with
  | '%' => .any
  | '_' => .one
  | c => .exactly c

/-- The pattern of a text. -/
def ofText (text : String) : LikePattern :=
  ⟨text.toList.map part⟩

/-- For every place in a text, given which of the places a pattern matches from to the end: whether
the pattern behind one more part does. There is one place more than characters. -/
def step (w : Wildcard) (text : List Char) (matched : List Bool) : List Bool :=
  match w with
  | .exactly c => List.zipWith (fun d m => c == d && m) text (matched.drop 1) ++ [false]
  | .one => matched.drop 1 ++ [false]
  | .any =>
    (matched.foldr (fun m (rest, later) => ((m || later) :: rest, m || later)) ([], false)).1

/-- From which places of a text the parts match to the end. -/
def matchesFrom (text : List Char) : List Wildcard → List Bool
  | [] => text.map (fun _ => false) ++ [true]
  | w :: rest => step w text (matchesFrom text rest)

/-- Whether a pattern matches the whole of a text. -/
def matchesText (p : LikePattern) (text : List Char) : Bool :=
  (matchesFrom text p.parts).head?.getD false

/-- Whether a pattern matches a text in lower case. -/
def matchesLower (p : LikePattern) (text : String) : Bool :=
  p.matchesText (Text.lowerChars text.toList)

end LikePattern

/-! ## Engines -/

/-- An engine that patterns are prepared with, as far as it is left open here: it may refuse a
pattern, and has a reason then. -/
structure PatternEngine where
  refusal? : LikePattern → Option String

/-- The pattern of a text, or the engine's reason to refuse it. -/
def PatternEngine.prepare (engine : PatternEngine) (text : String) : Except String LikePattern :=
  match engine.refusal? (.ofText text) with
  | none => .ok (.ofText text)
  | some reason => .error reason

end RecordFilter
