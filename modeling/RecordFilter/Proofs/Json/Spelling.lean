/-
# `Proofs.Json.Spelling` — values of strings and objects, as texts

`v.Spells text` says that a text spells a value made of strings and objects: the strings stand
between quotes, and blanks may stand wherever two marks meet.  On one line and over several, a
value is written as a text that spells it (`spells_render`, `spells_pretty`).  And every text
that spells it is read as the document of the value, whatever follows:

    v.Spells text  ⟹  readValue bound (blanks ++ text ++ rest) = (v.document, rest)

with a bound of three steps for each character (`readValue_spells`).  Of the document the value
itself is left, unless it is too deep (`value_document`).
-/
import Mathlib.Data.List.Forall2
import Mathlib.Data.List.TakeWhile
import RecordFilter.Json.Reader
import RecordFilter.Proofs.Json.Strings

namespace RecordFilter.Json

/-! ## Spelling -/

/-- Nothing but blanks. -/
def Blanks (text : List Char) : Prop :=
  ∀ c ∈ text, isSpace c = true

/-- What may stand in front of a field: blanks, and a comma among them unless it is the first. -/
def Opens : Bool → List Char → Prop
  | true, front => Blanks front
  | false, front => ∃ before behind, Blanks before ∧ Blanks behind ∧
      front = before ++ ',' :: behind

mutual

/-- A text spells a value made of strings and objects. -/
inductive Spells : Json → List Char → Prop
  | string (s : String) : Spells (.string s) (quote s).toList
  | object {fields : List (String × Json)} {inner : List Char} :
      SpellsFields true fields inner → Spells (.object fields) ('\x7b' :: inner)

/-- A text spells the fields of an object, or those behind the first ones, and the closing
brace. -/
inductive SpellsFields : Bool → List (String × Json) → List Char → Prop
  | close {first : Bool} {blanks : List Char} :
      Blanks blanks → SpellsFields first [] (blanks ++ ['\x7d'])
  | field {first : Bool} {name : String} {value : Json} {fields : List (String × Json)}
      {front before behind text rest : List Char} :
      Opens first front → Blanks before → Blanks behind → Spells value text →
      SpellsFields false fields rest →
      SpellsFields first ((name, value) :: fields)
        (front ++ (quote name).toList ++ (before ++ ':' :: (behind ++ text ++ rest)))

end

mutual

/-- The document of a value made of strings and objects; for anything else a fault. -/
def document : Json → Document
  | .string s => .string (some s)
  | .object fields => .object (documentFields fields) none
  | _ => .bad .malformed

def documentFields : List (String × Json) → List (Option String × Document)
  | [] => []
  | (name, value) :: fields => (some name, value.document) :: documentFields fields

end

/-! ## What is read of a spelling -/

variable {name : String} {value : Json} {blanks front text rest : List Char} {bound : Nat}
  {read : List (Option String × Document)}

theorem toList_quote (s : String) :
    (quote s).toList = '"' :: (s.toList.flatMap escapeChar ++ ['"']) := by
  rw [quote, String.toList_ofList]
  rfl

theorem skipSpace_blanks (h : Blanks blanks) (text : List Char) :
    skipSpace (blanks ++ text) = skipSpace text :=
  List.dropWhile_append_of_pos h

theorem skipSpace_mark {c : Char} (h : isSpace c = false) (text : List Char) :
    skipSpace (c :: text) = c :: text :=
  List.dropWhile_cons_of_neg (Bool.not_eq_true _ ▸ h)

theorem skipSpace_blanks_mark (h : Blanks blanks) {c : Char} (hc : isSpace c = false)
    (text : List Char) : skipSpace (blanks ++ c :: text) = c :: text :=
  (skipSpace_blanks h _).trans (skipSpace_mark hc text)

theorem readValue_string (h : Blanks blanks) (s : String) :
    readValue (bound + 1) (blanks ++ (quote s).toList ++ rest) = (.string (some s), rest) := by
  have hskip : skipSpace (blanks ++ (quote s).toList ++ rest) =
      '"' :: (s.toList.flatMap escapeChar ++ '"' :: rest) := by
    rw [toList_quote, List.append_assoc, List.cons_append, skipSpace_blanks_mark h rfl,
      List.append_assoc]
    rfl
  rw [readValue, hskip]
  simp only [readString_quote]

theorem readValue_object (h : Blanks blanks) :
    readValue (bound + 1) (blanks ++ '\x7b' :: text) =
      (.object (readFields bound [] text).1 (readFields bound [] text).2.1,
        (readFields bound [] text).2.2) := by
  rw [readValue, skipSpace_blanks_mark h rfl]
  rfl

theorem readFields_close (h : Blanks blanks) :
    readFields (bound + 1) read (blanks ++ '\x7d' :: rest) = (read.reverse, none, rest) := by
  rw [readFields, skipSpace_blanks_mark h rfl]
  rfl

theorem readFields_open (h : Opens read.isEmpty front) :
    readFields (bound + 1) read (front ++ '"' :: text) = readField bound read text := by
  cases read with
  | nil =>
      have hfront : Blanks front := h
      rw [readFields, skipSpace_blanks_mark hfront rfl]
      rfl
  | cons field read =>
      obtain ⟨before, behind, hbefore, hbehind, rfl⟩ := h
      have hname : skipSpace (behind ++ '"' :: text) = '"' :: text :=
        skipSpace_blanks_mark hbehind rfl text
      rw [List.append_assoc, List.cons_append, readFields, skipSpace_blanks_mark hbefore rfl]
      split
      · next heq => cases heq
      · next heq => cases heq
      · next heq =>
          cases heq
          rw [if_neg nofun, if_pos rfl, hname]
          rfl

/-- A field is read from the inside of its name on, and the fields behind it. -/
theorem readField_name (h : Blanks blanks) :
    readField (bound + 1) read
        (name.toList.flatMap escapeChar ++ '"' :: (blanks ++ ':' :: text)) =
      readFields bound ((some name, (readValue bound text).1) :: read)
        (readValue bound text).2 := by
  have hcolon : skipSpace (blanks ++ ':' :: text) = ':' :: text := skipSpace_blanks_mark h rfl text
  rw [readField, readString_quote]
  simp only [hcolon]

mutual

/-- **A text is read as the document of the value that it spells.** -/
theorem readValue_spells : ∀ {value : Json} {text : List Char} {bound : Nat} {blanks : List Char},
    Spells value text → 3 * text.length ≤ bound → Blanks blanks → ∀ rest,
    readValue bound (blanks ++ text ++ rest) = (value.document, rest)
  | .string s, text, bound, blanks, h, hbound, hblanks, rest => by
      cases h with
      | string =>
          obtain ⟨bound, rfl⟩ : ∃ n, bound = n + 1 := by
            rw [toList_quote, List.length_cons] at hbound
            exact ⟨bound - 1, by omega⟩
          exact readValue_string hblanks s
  | .object fields, text, bound, blanks, h, hbound, hblanks, rest => by
      cases h with
      | @object _ inner hfields =>
          rw [List.length_cons] at hbound
          obtain ⟨bound, rfl⟩ : ∃ n, bound = n + 1 := ⟨bound - 1, by omega⟩
          have hread : readFields bound [] (inner ++ rest) = (documentFields fields, none, rest) :=
            @readFields_spells fields inner bound [] hfields (by omega) rest
          rw [List.append_assoc, List.cons_append, readValue_object hblanks, hread]
          rfl

theorem readFields_spells : ∀ {fields : List (String × Json)} {text : List Char} {bound : Nat}
    {read : List (Option String × Document)},
    SpellsFields read.isEmpty fields text → 3 * text.length ≤ bound → ∀ rest,
    readFields bound read (text ++ rest) = (read.reverse ++ documentFields fields, none, rest)
  | [], text, bound, read, h, hbound, rest => by
      cases h with
      | close hblanks =>
          rw [List.length_append, List.length_singleton] at hbound
          obtain ⟨bound, rfl⟩ : ∃ n, bound = n + 1 := ⟨bound - 1, by omega⟩
          rw [List.append_assoc, List.singleton_append, readFields_close hblanks]
          exact congrArg (·, none, rest) (List.append_nil _).symm
  | (name, value) :: fields, text, bound, read, h, hbound, rest => by
      cases h with
      | @field _ _ _ _ front before behind text after hfront hbefore hbehind hvalue hfields =>
          -- of the bound, opening the field and reading its name take a step each; its quotes
          -- and its colon are three characters
          simp only [toList_quote, List.length_append, List.length_cons] at hbound
          obtain ⟨bound, rfl⟩ : ∃ n, bound = n + 1 + 1 := ⟨bound - 2, by omega⟩
          have hread : readValue bound (behind ++ text ++ (after ++ rest)) =
              (value.document, after ++ rest) :=
            readValue_spells hvalue (by omega) hbehind (after ++ rest)
          have hrest := @readFields_spells fields after bound
            ((some name, value.document) :: read) hfields (by omega) rest
          have htext : front ++ (quote name).toList ++
              (before ++ ':' :: (behind ++ text ++ after)) ++ rest =
              front ++ '"' :: (name.toList.flatMap escapeChar ++
                '"' :: (before ++ ':' :: (behind ++ text ++ (after ++ rest)))) := by
            simp only [toList_quote, List.append_assoc, List.cons_append, List.nil_append]
          rw [htext, readFields_open hfront, readField_name hbefore, hread, hrest,
            List.reverse_cons, List.append_assoc]
          rfl

end

/-! ## What is left of the document -/

mutual

/-- Nothing but strings and objects. -/
def Textual : Json → Prop
  | .string _ => True
  | .object fields => TextualFields fields
  | _ => False

def TextualFields : List (String × Json) → Prop
  | [] => True
  | (_, value) :: fields => value.Textual ∧ TextualFields fields

end

mutual

/-- How many arrays and objects lie inside each other in a value. -/
def depth : Json → Nat
  | .array items => depthItems items + 1
  | .object fields => depthFields fields + 1
  | _ => 0

def depthItems : List Json → Nat
  | [] => 0
  | item :: items => max item.depth (depthItems items)

def depthFields : List (String × Json) → Nat
  | [] => 0
  | (_, value) :: fields => max value.depth (depthFields fields)

end

mutual

/-- **A value is left of its document**, if it does not lie too deep. -/
theorem value_document : ∀ {value : Json} {around : Nat}, value.Textual → around ≤ nestingLimit →
    value.document.value around =
      if around + value.depth ≤ nestingLimit then .ok value else .error .malformed
  | .string s, around, _, haround => (if_pos haround).symm
  | .object fields, around, h, haround => by
      rw [document, depth]
      unfold Document.value
      by_cases hfull : nestingLimit ≤ around
      · rw [if_pos hfull, if_neg (by omega)]
      · have hfields : TextualFields fields := h
        rw [if_neg hfull, fieldValues_document hfields (by omega)]
        by_cases hfits : around + 1 + depthFields fields ≤ nestingLimit
        · rw [if_pos hfits, if_pos (by omega)]
        · rw [if_neg hfits, if_neg (by omega)]

theorem fieldValues_document : ∀ {fields : List (String × Json)} {around : Nat},
    TextualFields fields → around ≤ nestingLimit →
    Document.fieldValues around (documentFields fields) =
      if around + depthFields fields ≤ nestingLimit then .ok fields else .error .malformed
  | [], around, _, haround => (if_pos haround).symm
  | (name, value) :: fields, around, h, haround => by
      rw [documentFields, Document.fieldValues, value_document h.1 haround, depthFields]
      by_cases hvalue : around + value.depth ≤ nestingLimit
      · rw [if_pos hvalue, fieldValues_document h.2 haround]
        by_cases hfields : around + depthFields fields ≤ nestingLimit
        · rw [if_pos hfields, if_pos (by omega)]
          rfl
        · rw [if_neg hfields, if_neg (by omega)]
          rfl
      · rw [if_neg hvalue, if_neg (by omega)]

end

/-! ## What is written -/

/-- A line that spells a field: its name, a colon and its value. -/
def Line (field : String × Json) (line : String) : Prop :=
  ∃ gap text, Blanks gap ∧ Spells field.2 text ∧
    line.toList = (quote field.1).toList ++ ':' :: (gap ++ text)

variable {field : String × Json} {fields : List (String × Json)} {line : String}
  {lines : List String} {gap closing : List Char}

theorem blanks_nil : Blanks [] := by
  intro c hc
  cases hc

theorem Line.spells {first : Bool} (h : Line field line) (hfront : Opens first front)
    (hrest : SpellsFields false fields rest) :
    SpellsFields first (field :: fields) (front ++ line.toList ++ rest) := by
  obtain ⟨name, value⟩ := field
  obtain ⟨behind, text, hbehind, hvalue, hline⟩ := h
  have hfield : SpellsFields first ((name, value) :: fields)
      (front ++ (quote name).toList ++ ([] ++ ':' :: (behind ++ text ++ rest))) :=
    .field hfront blanks_nil hbehind hvalue hrest
  rw [hline]
  simpa only [List.nil_append, List.append_assoc, List.cons_append] using hfield

theorem spellsFields_lines {first : Bool} (hline : Line field line)
    (h : List.Forall₂ Line fields lines) (hfront : Opens first front) (hgap : Blanks gap)
    (hclosing : Blanks closing) {separator : String} (hseparator : separator.toList = ',' :: gap) :
    SpellsFields first (field :: fields)
      (front ++ (separator.intercalate (line :: lines)).toList ++ (closing ++ ['\x7d'])) := by
  have hcomma : Opens false (',' :: gap) := ⟨[], gap, blanks_nil, hgap, rfl⟩
  -- behind the first line, each is opened by the comma of the separator
  induction h generalizing field line first front with
  | nil =>
      rw [String.intercalate_singleton]
      exact hline.spells hfront (.close hclosing)
  | cons hnext _ ih =>
      rw [String.intercalate_cons_cons, String.toList_append, String.toList_append, hseparator]
      simpa only [List.append_assoc] using hline.spells hfront (ih hnext hcomma)

/-- **Lines with commas between them spell an object.** -/
theorem spells_lines (h : List.Forall₂ Line fields lines) (hfront : Blanks front)
    (hgap : Blanks gap) (hclosing : Blanks closing) {separator : String}
    (hseparator : separator.toList = ',' :: gap) (hne : fields ≠ []) :
    Spells (.object fields)
      ('\x7b' :: (front ++ (separator.intercalate lines).toList ++ (closing ++ ['\x7d']))) := by
  cases h with
  | nil => exact absurd rfl hne
  | cons hline hlines =>
      have hopens : Opens true front := hfront
      exact .object (spellsFields_lines hline hlines hopens hgap hclosing hseparator)

theorem Blanks.append {before behind : List Char} (hbefore : Blanks before)
    (hbehind : Blanks behind) : Blanks (before ++ behind) :=
  List.forall_mem_append.mpr ⟨hbefore, hbehind⟩

mutual

/-- **On one line a value is written as a text that spells it.** -/
theorem spells_render : ∀ {value : Json}, value.Textual → Spells value value.render.toList
  | .string s, _ => .string s
  | .object fields, h => by
      have hlines := lines_renderFields h
      have htext : (render (.object fields)).toList =
          '\x7b' :: ((",".intercalate (renderFields fields)).toList ++ ['\x7d']) := by
        rw [render, String.toList_append, String.toList_append, List.append_assoc]
        rfl
      rw [htext]
      cases fields with
      | nil => exact .object (.close blanks_nil)
      | cons field fields =>
          exact spells_lines hlines blanks_nil blanks_nil blanks_nil rfl (List.cons_ne_nil _ _)

theorem lines_renderFields : ∀ {fields : List (String × Json)}, TextualFields fields →
    List.Forall₂ Line fields (renderFields fields)
  | [], _ => .nil
  | (name, value) :: fields, h => by
      refine .cons ⟨[], _, blanks_nil, spells_render h.1, ?_⟩ (lines_renderFields h.2)
      rw [String.toList_append, String.toList_append, List.append_assoc]
      rfl

end

mutual

/-- **Over several lines it is, too.** -/
theorem spells_pretty : ∀ {value : Json} {margin : String}, value.Textual →
    Blanks margin.toList → Spells value (value.pretty margin).toList
  | .string s, _, _, _ => .string s
  | .object [], margin, _, _ => by
      rw [pretty]
      exact .object (.close blanks_nil)
  | .object (field :: fields), margin, h, hmargin => by
      have hdeeper : Blanks (margin ++ "  ").toList := by
        rw [String.toList_append]
        exact hmargin.append (List.forall_mem_cons.mpr ⟨rfl, List.forall_mem_singleton.mpr rfl⟩)
      have hnewline : ∀ {text : List Char}, Blanks text → Blanks ('\n' :: text) := fun htext =>
        List.forall_mem_cons.mpr ⟨rfl, htext⟩
      have hinner : ("\n" ++ margin ++ "  ").toList = '\n' :: (margin ++ "  ").toList := by
        rw [String.append_assoc, String.toList_append]
        rfl
      have hseparator : ("," ++ ("\n" ++ margin ++ "  ")).toList =
          ',' :: '\n' :: (margin ++ "  ").toList := by
        rw [String.toList_append, hinner]
        rfl
      have hspells := spells_lines (lines_prettyFields h hdeeper) (hnewline hdeeper)
        (hnewline hdeeper) (hnewline hmargin) hseparator (List.cons_ne_nil field fields)
      have hopening : "\x7b".toList = ['\x7b'] := rfl
      have hend : "\n".toList = ['\n'] := rfl
      have hclosing : "\x7d".toList = ['\x7d'] := rfl
      rw [pretty, block]
      simp only [String.toList_append, hopening, hinner, hend, hclosing, List.append_assoc,
        List.cons_append, List.nil_append] at hspells ⊢
      exact hspells

theorem lines_prettyFields : ∀ {fields : List (String × Json)} {margin : String},
    TextualFields fields → Blanks margin.toList →
    List.Forall₂ Line fields (prettyFields margin fields)
  | [], _, _, _ => .nil
  | (name, value) :: fields, margin, h, hmargin => by
      have hgap : Blanks [' '] := List.forall_mem_singleton.mpr rfl
      refine .cons ⟨[' '], _, hgap, spells_pretty h.1 hmargin, ?_⟩ (lines_prettyFields h.2 hmargin)
      rw [String.toList_append, String.toList_append, List.append_assoc]
      rfl

end

/-! ## Whole texts -/

/-- A text of a value: one that spells it, with blanks around. -/
def HasText (value : Json) (text : String) : Prop :=
  ∃ front inner ending, Blanks front ∧ Spells value inner ∧ Blanks ending ∧
    text.toList = front ++ inner ++ ending

theorem Spells.hasText {text : String} (h : Spells value text.toList) : value.HasText text :=
  ⟨[], text.toList, [], blanks_nil, h, blanks_nil, (List.append_nil _).symm⟩

/-- **What a text of a value means is what the document of the value means.** -/
theorem HasText.readText {α : Type} {text : String} (h : value.HasText text)
    (decode : Document → Except ReadError α) : readText decode text = decode value.document := by
  obtain ⟨front, inner, ending, hfront, hspells, hending, htext⟩ := h
  have hread : readDocument text.toList = (value.document, ending) := by
    rw [readDocument, htext]
    refine readValue_spells hspells ?_ hfront ending
    rw [List.length_append, List.length_append]
    omega
  have hempty : skipSpace ending = [] := List.dropWhile_eq_nil_iff.mpr hending
  rw [Json.readText, hread]
  cases hdecode : decode value.document with
  | error e => simp only [hdecode]
  | ok a => simp only [hdecode, hempty, List.isEmpty_nil, if_true]

end RecordFilter.Json
