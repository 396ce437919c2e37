/-
# `Proofs.DateFormat.Layout` — a pattern reads back what it describes

A layout is a pattern put together from fields and the texts around them, with each text
quoted.  It is a pattern wherever its fields have different letters, so that no two of
them run together (`DateLayout.ofPattern_eq`), and its elements are the fields and the
characters of the texts in order.

With a year, a month, a day, an hour, a minute, a second and three places behind it, in
whatever order and with whatever texts around them, a moment that is written by the layout
is read back by its pattern (`layout_reads_back`).
-/
import RecordFilter.Proofs.Calendar.Writing
import RecordFilter.Proofs.DateFormat.Century
import RecordFilter.Proofs.DateFormat.Quoting

namespace RecordFilter

open DatePattern

/-! ## Letters of fields -/

/-- A letter that stands for a field, and how often. -/
def DateField.letters : DateField → Char × Nat
  | year => ('y', 4)
  | shortYear => ('y', 2)
  | month => ('M', 2)
  | monthName full => ('M', if full then 4 else 3)
  | day => ('d', 2)
  | weekdayName full => ('E', if full then 4 else 3)
  | hour => ('H', 2)
  | halfDayHour => ('h', 2)
  | halfDay => ('a', 1)
  | minute => ('m', 2)
  | second => ('s', 2)
  | places count => ('S', count)
  | fraction => ('S', 1)

/-- The fields of a moment to the millisecond. -/
def DateField.ofMoment (short : Bool) : List DateField :=
  [ofYear short, .month, .day, .hour, .minute, .second, .places 3]

/-! ## Layouts -/

/-- Fields in order, each with the text behind it, and the text in front of all. -/
structure DateLayout where
  lead : List Char
  parts : List (DateField × List Char)

namespace DateLayout

/-- A text in a pattern: nothing, or a quoted stretch. -/
def stretch (text : List Char) : List Char :=
  if text = [] then [] else quoted text

/-- The pattern of fields and texts. -/
def patternOf (parts : List (DateField × List Char)) : List Char :=
  parts.flatMap fun part =>
    List.replicate part.1.letters.2 part.1.letters.1 ++ stretch part.2

def pattern (layout : DateLayout) : String :=
  String.ofList (stretch layout.lead ++ patternOf layout.parts)

/-- A moment as it is written by a layout. -/
def written (layout : DateLayout) (m : DateTime) : String :=
  String.ofList (layout.lead ++ layout.parts.flatMap fun part => part.1.written m ++ part.2)

/-- The fields of a layout. -/
def fields (layout : DateLayout) : List DateField :=
  layout.parts.map Prod.fst

/-- A text that can be quoted: none at all, or one that does not consist of apostrophes. -/
def Quotable (text : List Char) : Prop :=
  text = [] ∨ ∃ c ∈ text, c ≠ '\''

/-- The elements of a layout. -/
def elementsOf (parts : List (DateField × List Char)) : List DateElement :=
  parts.flatMap fun part => .field part.1 :: part.2.map .literal

def elements (layout : DateLayout) : List DateElement :=
  layout.lead.map .literal ++ elementsOf layout.parts

/-- The runs of a layout. -/
def runsOf (parts : List (DateField × List Char)) : List Run :=
  parts.flatMap fun part => .letters part.1.letters.1 part.1.letters.2 :: part.2.map .literal

variable {layout : DateLayout} {part : DateField × List Char}
  {parts : List (DateField × List Char)} {text rest : List Char} {rs : List Run} {m : DateTime}

/-- A field whose letters stand for it. -/
def Lettered (f : DateField) : Prop :=
  DatePattern.field? f.letters.1 f.letters.2 = some f

/-- A layout whose texts can be quoted, and whose fields do not run together. -/
structure Proper (layout : DateLayout) : Prop where
  lead : Quotable layout.lead
  texts : ∀ part ∈ layout.parts, Quotable part.2
  lettered : ∀ f ∈ layout.fields, Lettered f
  apart : (layout.fields.map fun f => f.letters.1).Nodup

end DateLayout

theorem DatePattern.isAlpha_of_field? {c : Char} {count : Nat} {f : DateField}
    (h : field? c count = some f) : c.isAlpha = true ∧ 0 < count := by
  unfold field? at h
  split at h
  all_goals cases h
  all_goals exact ⟨rfl, by decide⟩

namespace DateLayout

variable {layout : DateLayout} {part : DateField × List Char}
  {parts : List (DateField × List Char)} {text rest : List Char} {rs : List Run} {m : DateTime}

theorem reads_stretch_append (h : Quotable text) (hrest : rest.head? ≠ some '\'')
    (hreads : Reads rest rs) : Reads (stretch text ++ rest) (text.map .literal ++ rs) := by
  rcases h with rfl | ⟨c, hc, hne⟩
  · exact hreads
  · have hsaid : saidBy text = text := by
      refine if_neg fun hall => hne ?_
      simpa using List.all_eq_true.mp hall c hc
    have hquoted := reads_quoted_append text hrest hreads
    rwa [hsaid, ← show stretch text = quoted text from if_neg (List.ne_nil_of_mem hc)] at hquoted

theorem head?_patternOf (h : Lettered part.1) (parts : List (DateField × List Char)) :
    (patternOf (part :: parts)).head? = some part.1.letters.1 := by
  obtain ⟨count, hcount⟩ := Nat.exists_eq_succ_of_ne_zero (isAlpha_of_field? h).2.ne'
  rw [patternOf, List.flatMap_cons, hcount, List.replicate_succ]
  rfl

/-- **Fields and texts are read as they are put together**, if no two of the fields have the same
letter. -/
theorem reads_patternOf (htexts : ∀ part ∈ parts, Quotable part.2)
    (hlettered : ∀ part ∈ parts, Lettered part.1)
    (hapart : (parts.map fun part => part.1.letters.1).Nodup) :
    Reads (patternOf parts) (runsOf parts) := by
  induction parts with
  | nil => exact .nil
  | cons part parts ih =>
      obtain ⟨hnew, hapart⟩ := List.nodup_cons.mp hapart
      obtain ⟨halpha, hpos⟩ := isAlpha_of_field? (hlettered part List.mem_cons_self)
      obtain ⟨count, hcount⟩ := Nat.exists_eq_succ_of_ne_zero hpos.ne'
      have hreads := ih (fun p hp => htexts p (List.mem_cons_of_mem _ hp))
        (fun p hp => hlettered p (List.mem_cons_of_mem _ hp)) hapart
      -- what follows the text begins with the letter of another field, if with anything
      have hhead : ∀ c, (patternOf parts).head? = some c →
          c.isAlpha = true ∧ c ≠ part.1.letters.1 := by
        intro c hc
        cases parts with
        | nil => cases hc
        | cons next parts =>
            have hnext := hlettered next (List.mem_cons_of_mem _ List.mem_cons_self)
            rw [head?_patternOf hnext] at hc
            cases hc
            exact ⟨(isAlpha_of_field? hnext).1, fun heq => hnew (by simp [heq])⟩
      have htext : Reads (stretch part.2 ++ patternOf parts)
          (part.2.map .literal ++ runsOf parts) :=
        reads_stretch_append (htexts part List.mem_cons_self)
          (fun hc => ne_apostrophe_of_isAlpha (hhead _ hc).1 rfl) hreads
      have hfirst : (stretch part.2 ++ patternOf parts).head? ≠ some part.1.letters.1 := by
        rw [stretch]
        split
        · exact fun hc => (hhead _ hc).2 rfl
        · exact fun hc => ne_apostrophe_of_isAlpha halpha (Option.some.inj hc).symm
      rw [patternOf, List.flatMap_cons, runsOf, List.flatMap_cons, hcount, List.append_assoc]
      exact .letters halpha hfirst htext

theorem describes_runsOf (hlettered : ∀ part ∈ parts, Lettered part.1) :
    Describes (runsOf parts) (elementsOf parts) := by
  induction parts with
  | nil => exact .nil
  | cons part parts ih =>
      have hrest := ih fun p hp => hlettered p (List.mem_cons_of_mem _ hp)
      exact .field (hlettered part List.mem_cons_self) ((describes_literals part.2).append hrest)

/-- **A layout is a pattern**, of its fields and the characters of its texts. -/
theorem ofPattern_eq (h : layout.Proper) :
    DateFormat.ofPattern layout.pattern = .ok ⟨layout.pattern, layout.elements⟩ := by
  obtain ⟨hlead, htexts, hlettered, hapart⟩ := h
  have hlettered : ∀ part ∈ layout.parts, Lettered part.1 := fun part hpart =>
    hlettered part.1 (List.mem_map_of_mem hpart)
  rw [fields, List.map_map] at hapart
  have hhead : (patternOf layout.parts).head? ≠ some '\'' := by
    cases hparts : layout.parts with
    | nil => exact nofun
    | cons part parts =>
        have hfirst : Lettered part.1 := hlettered part (hparts ▸ List.mem_cons_self)
        rw [head?_patternOf hfirst]
        exact fun hc => ne_apostrophe_of_isAlpha (isAlpha_of_field? hfirst).1 (Option.some.inj hc)
  refine DateFormat.ofPattern_eq_ok_iff.mpr ⟨rfl, layout.lead.map .literal ++ runsOf layout.parts,
    ?_, (describes_literals layout.lead).append (describes_runsOf hlettered)⟩
  rw [pattern, String.toList_ofList]
  exact reads_stretch_append hlead hhead (reads_patternOf htexts hlettered hapart)

/-! ## Moments read back -/

theorem field?_literals (text : List Char) :
    (text.map .literal).filterMap DateElement.field? = [] := by
  induction text with
  | nil => rfl
  | cons c text ih => exact ih

theorem written_literals (m : DateTime) (text : List Char) :
    (text.map .literal).flatMap (DateElement.written m) = text := by
  induction text with
  | nil => rfl
  | cons c text ih => exact congrArg (c :: ·) ih

@[simp]
theorem field?_elements (layout : DateLayout) :
    layout.elements.filterMap DateElement.field? = layout.fields := by
  have hparts : ∀ parts, (elementsOf parts).filterMap DateElement.field? = parts.map Prod.fst := by
    intro parts
    induction parts with
    | nil => rfl
    | cons part parts ih =>
        have hpart : DateElement.field? (.field part.1) = some part.1 := rfl
        rw [elementsOf, List.flatMap_cons, List.filterMap_append, ← elementsOf, ih,
          List.filterMap_cons_some hpart, field?_literals]
        rfl
  rw [elements, List.filterMap_append, field?_literals, hparts]
  rfl

theorem written_elements (layout : DateLayout) (m : DateTime) :
    layout.elements.flatMap (DateElement.written m) =
      layout.lead ++ layout.parts.flatMap fun part => part.1.written m ++ part.2 := by
  have hpart : ∀ part : DateField × List Char,
      (DateElement.field part.1 :: part.2.map .literal).flatMap (DateElement.written m) =
        part.1.written m ++ part.2 := by
    intro part
    rw [List.flatMap_cons, written_literals]
    rfl
  simp only [elements, List.flatMap_append, written_literals, elementsOf, List.flatMap_assoc, hpart]

/-- A layout of all fields of a moment is a pattern, if its texts can be quoted. -/
theorem proper_of_perm {short : Bool} (hfields : layout.fields.Perm (DateField.ofMoment short))
    (hlead : Quotable layout.lead) (htexts : ∀ part ∈ layout.parts, Quotable part.2) :
    layout.Proper where
  lead := hlead
  texts := htexts
  lettered := by
    have hall : ∀ f ∈ DateField.ofMoment short,
        DatePattern.field? f.letters.1 f.letters.2 = some f := by
      cases short <;> decide
    exact fun f hf => hall f (hfields.mem_iff.mp hf)
  apart := by
    have hall : ((DateField.ofMoment short).map fun f => f.letters.1).Nodup := by
      cases short <;> decide
    exact (hfields.map _).nodup_iff.mpr hall

end DateLayout

section Moment

variable {short : Bool} {m : DateTime}

theorem DateField.isFixed_ofMoment (short : Bool) : ∀ f ∈ ofMoment short, f.IsFixed := by
  cases short <;> simp [ofMoment, ofYear, IsFixed]

theorem Fields.ofMoment_ok (h : m.IsWhole) (hspan : DateField.SpansYear short m.date.year) :
    ((DateField.ofMoment short).foldl (learn m) {}).date = .ok (m.date.unmoved short) ∧
      ((DateField.ofMoment short).foldl (learn m) {}).time = .ok m.time := by
  constructor
  · rw [date_of_year h.date hspan]
    all_goals cases short <;> rfl
  · have htime : (ofClock m.date m.time.hour m.time.minute m.time.second (some m.time.nano)).time =
        .ok m.time := by
      rw [time_ofClock, Option.getD_some, h.toRegular.ofClock]
    cases short with
    | false => exact htime
    | true => exact htime

end Moment

/-- **A pattern reads back what it describes**: a year, a month, a day, an hour, a minute, a
second and its three places, in any order and with any texts around them.  A year of two digits is
one of this century. -/
theorem layout_reads_back (layout : DateLayout) (short : Bool)
    (hfields : layout.fields.Perm (DateField.ofMoment short)) (hlead : DateLayout.Quotable layout.lead)
    (htexts : ∀ part ∈ layout.parts, DateLayout.Quotable part.2) :
    ∃ f, DateFormat.ofPattern layout.pattern = .ok f ∧
      ∀ m : DateTime, m.IsWhole → DateField.SpansYear short m.date.year →
        f.readDateTime (layout.written m) = .ok m ∧ f.readDate (layout.written m) = .ok m.date := by
  refine ⟨_, DateLayout.ofPattern_eq (DateLayout.proper_of_perm hfields hlead htexts), ?_⟩
  intro m hm hspan
  generalize hf : DateFormat.mk layout.pattern layout.elements = f
  have helements : f.elements = layout.elements := congrArg DateFormat.elements hf.symm
  have hperm : f.fieldList.Perm (DateField.ofMoment short) := by
    rwa [DateFormat.fieldList, helements, layout.field?_elements]
  have hwrite : layout.written m = f.write m := by
    rw [DateFormat.write, helements, layout.written_elements, DateLayout.written]
  have hread := DateFormat.fields_write ⟨hm, hspan.common⟩ hperm (DateField.isFixed_ofMoment short)
  have hcentury : f.hasShortYear = short := by
    rw [DateFormat.hasShortYear_of_perm hperm]
    cases short <;> decide
  obtain ⟨hdate, htime⟩ := Fields.ofMoment_ok hm hspan
  have hmoved := DateFormat.thisCentury_unmoved hcentury hm.date hspan
  constructor
  · rw [hwrite, DateFormat.readDateTime_eq hread hdate htime, hmoved]
  · rw [hwrite, DateFormat.readDate_eq hread, hdate]
    exact congrArg Except.ok hmoved

/-- Seconds in front and two digits of the year behind them, with blanks, letters, digits and percent
signs between the fields or nothing at all. -/
theorem layout_reads_back_short_year :
    let layout : DateLayout := ⟨"%Y ".toList, [(.second, []), (.places 3, []), (.shortYear, [' ', 'a', 't']),
      (.month, ['%']), (.hour, []), (.day, ['0']), (.minute, [' '])]⟩
    let m : DateTime := ⟨⟨2085, 2, 28⟩, ⟨23, 5, 59, 7000000⟩⟩
    layout.pattern = "'%Y 'ssSSSyy' at'MM'%'HHdd'0'mm' '" ∧
      layout.written m = "%Y 5900785 at02%2328005 " ∧ m.IsWhole ∧
      ∃ f, DateFormat.ofPattern layout.pattern = .ok f ∧
        f.readDateTime (layout.written m) = .ok m ∧ f.readDate (layout.written m) = .ok m.date := by
  intro layout m
  have hfields : layout.fields.Perm (DateField.ofMoment true) := by decide
  have hlead : DateLayout.Quotable layout.lead := .inr ⟨'%', by decide, by decide⟩
  have htexts : ∀ part ∈ layout.parts, DateLayout.Quotable part.2 := by
    simp [layout, DateLayout.Quotable]
  have hm : m.IsWhole := ⟨⟨by decide, by decide, by decide, by decide, by decide⟩, by decide⟩
  have hspan : DateField.SpansYear true m.date.year := ⟨by decide, by decide⟩
  obtain ⟨f, hf, hread⟩ := layout_reads_back layout true hfields hlead htexts
  exact ⟨by decide, by decide, hm, f, hf, hread m hm hspan⟩

end RecordFilter
