/-
# `Proofs.Json.Strings` — a text between quotes is read back

Whatever characters a text has, between quotes it is read as itself.  A quote and a backslash
are written behind a backslash, a control character by a letter or by its number; all other
characters stand for themselves.  Each is read as one unit, which denotes it alone
(`StringUnit.Denotes`): the only codes that are written are small, so none is taken for half
of a pair.
-/
import RecordFilter.Json.Document
import RecordFilter.Json.Printer

namespace RecordFilter.Json

/-- A unit denotes a character, whatever units follow it. -/
def StringUnit.Denotes (unit : StringUnit) (c : Char) : Prop :=
  ∀ units, unitsText (unit :: units) = (unitsText units).map (c :: ·)

theorem StringUnit.denotes_char (c : Char) : Denotes (.char c) c :=
  fun _ => rfl

/-- A number below those of the halves of pairs denotes its character. -/
theorem StringUnit.denotes_code {n : Nat} (h : n < 0xD800) : Denotes (.code n) (Char.ofNat n) := by
  intro units
  have hwhole : n < 0xD800 ∨ 0xDFFF < n := .inl h
  rcases units with _ | ⟨_ | m, units⟩ <;> exact if_pos hwhole

/-! ## One character -/

theorem readUnits_simpleEscape {letter c : Char} {rest : List Char} (hletter : letter ≠ 'u')
    (h : simpleEscape? letter = some c) :
    readUnits ('\\' :: letter :: rest) = (.char c :: (readUnits rest).1, (readUnits rest).2) := by
  rw [readUnits, h]
  · intro _ _ _ _ _ heq
    exact absurd heq hletter
  · exact hletter

theorem readUnits_code {a b : Char} {n : Nat} {rest : List Char}
    (h : hexCode? '0' '0' a b = some n) :
    readUnits ('\\' :: 'u' :: '0' :: '0' :: a :: b :: rest) =
      (.code n :: (readUnits rest).1, (readUnits rest).2) := by
  rw [readUnits, h]

theorem readUnits_itself {c : Char} {rest : List Char} (hquote : c ≠ '"') (hslash : c ≠ '\\')
    (hcontrol : ¬ c.toNat < 32) :
    readUnits (c :: rest) = (.char c :: (readUnits rest).1, (readUnits rest).2) := by
  rw [readUnits, if_neg hcontrol]
  · exact hquote
  all_goals
    intros
    contradiction

/-- Two digits in base sixteen, the first of which may be missing. -/
theorem hexCode?_toDigits : ∀ n < 32,
    ((if n < 16 then ['0'] else []) ++ Nat.toDigits 16 n) =
        [if n < 16 then '0' else '1', Nat.digitChar (n % 16)] ∧
      hexCode? '0' '0' (if n < 16 then '0' else '1') (Nat.digitChar (n % 16)) = some n := by
  decide

/-- **A character is read as one unit.** -/
theorem readUnits_escapeChar (c : Char) :
    ∃ unit : StringUnit, unit.Denotes c ∧ ∀ rest, readUnits (escapeChar c ++ rest) =
      (unit :: (readUnits rest).1, (readUnits rest).2) := by
  have hletter : ∀ letter, letter ≠ 'u' → simpleEscape? letter = some c →
      ∃ unit : StringUnit, unit.Denotes c ∧ ∀ rest, readUnits ('\\' :: letter :: rest) =
        (unit :: (readUnits rest).1, (readUnits rest).2) := by
    intro letter hne h
    exact ⟨_, StringUnit.denotes_char c, fun rest => readUnits_simpleEscape hne h⟩
  have hchar : ∀ n, c.toNat = n → Char.ofNat n = c := by
    rintro n rfl
    exact Char.ofNat_toNat c
  rw [escapeChar]
  split
  · next h => exact hletter '"' (by decide) (congrArg some h.symm)
  split
  · next h => exact hletter '\\' (by decide) (congrArg some h.symm)
  split
  · next h => exact hletter 'n' (by decide) (congrArg some h.symm)
  split
  · next h => exact hletter 'r' (by decide) (congrArg some h.symm)
  split
  · next h => exact hletter 't' (by decide) (congrArg some h.symm)
  split
  · next h => exact hletter 'b' (by decide) (congrArg some (hchar 8 h))
  split
  · next h => exact hletter 'f' (by decide) (congrArg some (hchar 12 h))
  split
  · next h =>
      obtain ⟨hdigits, hcode⟩ := hexCode?_toDigits c.toNat h
      refine ⟨.code c.toNat, ?_, fun rest => ?_⟩
      · have hdenotes := StringUnit.denotes_code (show c.toNat < 0xD800 by omega)
        rwa [Char.ofNat_toNat] at hdenotes
      · rw [List.append_assoc ['\\', 'u', '0', '0'], hdigits]
        exact readUnits_code hcode
  · next hquote hslash _ _ _ _ _ hcontrol =>
      exact ⟨_, StringUnit.denotes_char c, fun rest => readUnits_itself hquote hslash hcontrol⟩

/-! ## Texts -/

theorem readUnits_flatMap (text rest : List Char) :
    ∃ units, readUnits (text.flatMap escapeChar ++ '"' :: rest) = (units, .ok rest) ∧
      unitsText units = some text := by
  induction text with
  | nil => exact ⟨[], rfl, rfl⟩
  | cons c text ih =>
      obtain ⟨units, hread, htext⟩ := ih
      obtain ⟨unit, hunit, hfirst⟩ := readUnits_escapeChar c
      refine ⟨unit :: units, ?_, ?_⟩
      · rw [List.flatMap_cons, List.append_assoc, hfirst, hread]
      · rw [hunit, htext]
        rfl

/-- **A text between quotes is read back.** -/
theorem readString_quote (s : String) (rest : List Char) :
    readString (s.toList.flatMap escapeChar ++ '"' :: rest) = .ok (some s, rest) := by
  obtain ⟨units, hread, htext⟩ := readUnits_flatMap s.toList rest
  rw [readString, hread]
  simp only [htext, Option.map_some, String.ofList_toList]

end RecordFilter.Json
