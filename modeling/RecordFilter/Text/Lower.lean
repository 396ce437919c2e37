/-
# Lower case

Lower-casing of texts. Every character but the capital sigma is mapped on its own; a sigma is mapped
by the letters around it, and the dotted capital I becomes two characters.
-/
import RecordFilter.Text.Basic
import RecordFilter.Text.CaseData

namespace RecordFilter.Text

/-- The character that a capital letter beyond ASCII turns into, and any other character itself. -/
def shiftLower (c : Char) : Char :=
  match lowerRuns.find? fun (first, last, step, _) =>
      first ≤ c.toNat && c.toNat ≤ last && (c.toNat - first) % step == 0 with
  | some (_, _, _, distance) => Char.ofNat (c.toNat + distance).toNat
  | none => c

/-- What a character turns into wherever it stands. -/
def lowerChar (c : Char) : List Char :=
  if c.toNat < 0x80 then [c.toLower]
  else if c.toNat = 0x130 then ['i', Char.ofNat 0x307]
  else [shiftLower c]

/-- Whether the first character that is not passed over is a cased letter. -/
def startsCased (text : List Char) : Bool :=
  match text.dropWhile (inRanges caseIgnorableRanges) with
  | c :: _ => inRanges casedRanges c
  | [] => false

/-- A sigma is final when a cased letter comes before it and none after it. -/
def lowerSigma (before after : List Char) : Char :=
  if startsCased before && !startsCased after then 'ς' else 'σ'

/-- Lower-cases a text that follows the characters `before`, the nearest first. -/
def lowerAfter (before : List Char) : List Char → List Char
  | [] => []
  | c :: rest =>
    (if c = 'Σ' then [lowerSigma before rest] else lowerChar c) ++ lowerAfter (c :: before) rest

/-- The lower-case form of a text. -/
def lowerChars (text : List Char) : List Char :=
  lowerAfter [] text

/-- The lower-case form of a text. -/
def lower (text : String) : String :=
  String.ofList (lowerChars text.toList)

end RecordFilter.Text
