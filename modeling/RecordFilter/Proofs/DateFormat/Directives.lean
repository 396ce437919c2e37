/-
# `Proofs.DateFormat.Directives` — directives keep fields and literals apart

A format can be written in percent directives.  `DateFormat.readDirectives` reads such a
text by the rules of that language alone: `%%` is a percent sign, `%` and the letters
behind it are a field, and anything else stands for itself.  One directive is read in
front of anything (`readDirectives_directive`), so what is read of a whole format are
its elements, and these are what the pattern says, element by element
(`directives_read_as_pattern`).

So no character of a literal is ever taken for part of a directive, although literals may
hold percent signs, and letters that would be directives behind one.
-/
import RecordFilter.Proofs.DateFormat.Reading
import RecordFilter.Proofs.Outcome

namespace RecordFilter

/-! ## Reading directives -/

/-- The field that a percent sign and one letter stand for. -/
def DateField.ofDirectiveLetter? : Char → Option DateField
  | 'Y' => some .year
  | 'y' => some .shortYear
  | 'm' => some .month
  | 'b' => some (.monthName false)
  | 'B' => some (.monthName true)
  | 'd' => some .day
  | 'a' => some (.weekdayName false)
  | 'A' => some (.weekdayName true)
  | 'H' => some .hour
  | 'I' => some .halfDayHour
  | 'p' => some .halfDay
  | 'M' => some .minute
  | 'S' => some .second
  | _ => none

/-- The elements of a text of directives; none if a percent sign stands in front of anything else
than a percent sign or the letters of a field. -/
def DateFormat.readDirectives : List Char → Option (List DateElement)
  | [] => some []
  | '%' :: '%' :: rest => (readDirectives rest).map (.literal '%' :: ·)
  | '%' :: '.' :: 'f' :: rest => (readDirectives rest).map (.field .fraction :: ·)
  | '%' :: '3' :: 'f' :: rest => (readDirectives rest).map (.field (.places 3) :: ·)
  | '%' :: '6' :: 'f' :: rest => (readDirectives rest).map (.field (.places 6) :: ·)
  | '%' :: '9' :: 'f' :: rest => (readDirectives rest).map (.field (.places 9) :: ·)
  | '%' :: letter :: rest =>
    match DateField.ofDirectiveLetter? letter with
    | some f => (readDirectives rest).map (.field f :: ·)
    | none => none
  | ['%'] => none
  | c :: rest => (readDirectives rest).map (.literal c :: ·)

/-- A field that has a directive: fractions are three, six or nine places long, or of any width. -/
def DateField.HasDirective : DateField → Prop
  | places count => count = 3 ∨ count = 6 ∨ count = 9
  | _ => True

namespace DateFormat

variable {f : DateField} {rs : List DatePattern.Run} {es : List DateElement}

theorem readDirectives_directive (h : f.HasDirective) (rest : List Char) :
    readDirectives (f.directive ++ rest) = (readDirectives rest).map (.field f :: ·) := by
  cases f with
  | places count =>
      rcases h with rfl | rfl | rfl
      · rfl
      · rfl
      · rfl
  | monthName full => cases full <;> rfl
  | weekdayName full => cases full <;> rfl
  | _ => rfl

theorem readDirectives_literal (c : Char) (rest : List Char) :
    readDirectives ((DateElement.literal c).directive ++ rest) =
      (readDirectives rest).map (.literal c :: ·) := by
  by_cases hc : c = '%'
  · subst hc
    rfl
  · rw [DateElement.directive, if_neg hc, List.singleton_append]
    simp [readDirectives, hc]

/-- **What is read of a format's directives are its elements.** -/
theorem readDirectives_flatMap (h : ∀ f, .field f ∈ es → f.HasDirective) :
    readDirectives (es.flatMap DateElement.directive) = some es := by
  induction es with
  | nil => rfl
  | cons e es ih =>
      have hrest := ih fun f hf => h f (List.mem_cons_of_mem _ hf)
      rw [List.flatMap_cons]
      cases e with
      | literal c => rw [readDirectives_literal, hrest, Option.map_some]
      | field f =>
          have hf := h f List.mem_cons_self
          rw [DateElement.directive, readDirectives_directive hf, hrest, Option.map_some]

end DateFormat

namespace DatePattern

variable {f : DateField} {rs : List Run} {es : List DateElement}

theorem hasDirective_of_field? {letter : Char} {count : Nat} (h : field? letter count = some f) :
    f.HasDirective := by
  unfold field? at h
  split at h
  all_goals cases h
  all_goals simp [DateField.HasDirective]

theorem Describes.hasDirective (h : Describes rs es) : ∀ f, .field f ∈ es → f.HasDirective := by
  intro f hmem
  induction h with
  | nil => cases hmem
  | literal _ ih =>
      cases hmem with
      | tail _ hmem => exact ih hmem
  | field hf _ ih =>
      cases hmem with
      | head => exact hasDirective_of_field? hf
      | tail _ hmem => exact ih hmem
  | fraction _ _ _ _ ih =>
      cases hmem with
      | head => exact trivial
      | tail _ hmem => exact ih hmem

end DatePattern

/-! ## Patterns as directives -/

open DatePattern

variable {f : DateFormat} {pattern : String} {rs : List Run} {es : List DateElement}

theorem DateFormat.ofPattern_eq_ok_iff : ofPattern pattern = .ok f ↔
    f.pattern = pattern ∧ ∃ rs, Reads pattern.toList rs ∧ Describes rs f.elements := by
  rw [ofPattern, map_eq_ok_iff]
  constructor
  · rintro ⟨es, hes, rfl⟩
    exact ⟨rfl, elements_eq_ok_iff.mp hes⟩
  · rintro ⟨rfl, h⟩
    exact ⟨f.elements, elements_eq_ok_iff.mpr h, rfl⟩

theorem DatePattern.Reads.unique {ts : List Run} (h : Reads pattern.toList rs)
    (h' : Reads pattern.toList ts) : rs = ts :=
  h.unquote.2.symm.trans h'.unquote.2

/-- **Fields and literals are kept apart.**  A text is a pattern if its quotes are closed, so
that it can be read, and every run of letters outside of them is a field.  Its directives are
then read as the elements that the pattern describes, in order, and these are the ones that texts
are read by. -/
theorem directives_read_as_pattern (pattern : String) :
    ((∃ f, DateFormat.ofPattern pattern = .ok f) ↔
        ∃ rs, Reads pattern.toList rs ∧ Supported [] rs) ∧
      ∀ f rs, DateFormat.ofPattern pattern = .ok f → Reads pattern.toList rs →
        DateFormat.readDirectives f.directives.toList = some f.elements ∧
          Describes rs f.elements := by
  constructor
  · constructor
    · rintro ⟨f, hf⟩
      obtain ⟨_, rs, hreads, hdescribes⟩ := DateFormat.ofPattern_eq_ok_iff.mp hf
      exact ⟨rs, hreads, exists_describes_iff.mp ⟨_, hdescribes⟩⟩
    · rintro ⟨rs, hreads, hsupported⟩
      obtain ⟨es, hdescribes⟩ := exists_describes_iff.mpr hsupported
      exact ⟨⟨pattern, es⟩, DateFormat.ofPattern_eq_ok_iff.mpr ⟨rfl, rs, hreads, hdescribes⟩⟩
  · intro f rs hf hreads
    obtain ⟨_, ts, hts, hdescribes⟩ := DateFormat.ofPattern_eq_ok_iff.mp hf
    rw [hreads.unique hts]
    refine ⟨?_, hdescribes⟩
    rw [DateFormat.directives, String.toList_ofList,
      DateFormat.readDirectives_flatMap hdescribes.hasDirective]

/-- A quoted stretch may hold what looks like a directive, a doubled apostrophe and a point; the
point behind it goes to the fraction. -/
theorem directives_read_as_pattern_quoted_directive :
    DateFormat.ofPattern "ss'%S''.'.SS" = .ok ⟨"ss'%S''.'.SS", [.field .second, .literal '%',
        .literal 'S', .literal '\'', .literal '.', .field .fraction]⟩ ∧
      DateFormat.readDirectives "%S%%S'.%.f".toList = some [.field .second, .literal '%',
        .literal 'S', .literal '\'', .literal '.', .field .fraction] := by
  have hf : DateFormat.ofPattern "ss'%S''.'.SS" = .ok ⟨"ss'%S''.'.SS", [.field .second,
      .literal '%', .literal 'S', .literal '\'', .literal '.', .field .fraction]⟩ :=
    toOption_eq_some_iff.mp (by decide +kernel)
  obtain ⟨rs, hreads, _⟩ := (directives_read_as_pattern _).1.mp ⟨_, hf⟩
  exact ⟨hf, ((directives_read_as_pattern _).2 _ rs hf hreads).1⟩

end RecordFilter
