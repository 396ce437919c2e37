/-
# `Proofs.Like` — what a pattern matches

A pattern matches a text that can be cut into pieces, one for each part of the pattern
and in its order, such that each part takes its piece (`Wildcard.Takes`).  Matching
keeps for every place of the text whether the parts seen so far, from the last one on,
match from there to the end (`Marks`); a step puts one more part in front
(`Marks.step`), and the first place answers for the whole text:

    p.matchesText text = true  ⟺  LikePattern.Fits p.parts text   (`matchesText_iff`)
-/
import Mathlib.Data.List.Forall2
import RecordFilter.Like

namespace RecordFilter

/-- The pieces that a part of a pattern takes. -/
inductive Wildcard.Takes : Wildcard → List Char → Prop
  | exactly (c : Char) : Takes (.exactly c) [c]
  | one (c : Char) : Takes .one [c]
  | any (piece : List Char) : Takes .any piece

namespace LikePattern

/-- The text can be cut into pieces that the parts take, one each and in order. -/
def Fits (parts : List Wildcard) (text : List Char) : Prop :=
  ∃ pieces : List (List Char), pieces.flatten = text ∧ List.Forall₂ Wildcard.Takes parts pieces

variable {rest parts : List Wildcard} {text : List Char} {c d : Char}

/-! ## Part by part -/

@[simp]
theorem fits_nil_iff : Fits [] text ↔ text = [] := by
  constructor
  · rintro ⟨pieces, rfl, hpieces⟩
    cases hpieces
    rfl
  · rintro rfl
    exact ⟨[], rfl, .nil⟩

theorem fits_cons_iff {w : Wildcard} :
    Fits (w :: rest) text ↔ ∃ piece after, text = piece ++ after ∧ w.Takes piece ∧
      Fits rest after := by
  constructor
  · rintro ⟨pieces, rfl, hpieces⟩
    cases hpieces with
    | @cons _ piece _ pieces hpiece hpieces =>
        exact ⟨piece, pieces.flatten, List.flatten_cons, hpiece, pieces, rfl, hpieces⟩
  · rintro ⟨piece, _, rfl, hpiece, pieces, rfl, hpieces⟩
    exact ⟨piece :: pieces, List.flatten_cons, .cons hpiece hpieces⟩

theorem fits_exactly_iff :
    Fits (.exactly c :: rest) text ↔ ∃ after, text = c :: after ∧ Fits rest after := by
  rw [fits_cons_iff]
  constructor
  · rintro ⟨_, after, htext, hpiece, hafter⟩
    cases hpiece
    exact ⟨after, htext, hafter⟩
  · rintro ⟨after, htext, hafter⟩
    exact ⟨[c], after, htext, .exactly c, hafter⟩

theorem fits_one_iff :
    Fits (.one :: rest) text ↔ ∃ d after, text = d :: after ∧ Fits rest after := by
  rw [fits_cons_iff]
  constructor
  · rintro ⟨_, after, htext, hpiece, hafter⟩
    cases hpiece with
    | one d => exact ⟨d, after, htext, hafter⟩
  · rintro ⟨d, after, htext, hafter⟩
    exact ⟨[d], after, htext, .one d, hafter⟩

theorem fits_any_iff :
    Fits (.any :: rest) text ↔ ∃ piece after, text = piece ++ after ∧ Fits rest after := by
  rw [fits_cons_iff]
  constructor
  · rintro ⟨piece, after, htext, _, hafter⟩
    exact ⟨piece, after, htext, hafter⟩
  · rintro ⟨piece, after, htext, hafter⟩
    exact ⟨piece, after, htext, .any piece, hafter⟩

theorem fits_any_cons_iff :
    Fits (.any :: rest) (d :: text) ↔ Fits rest (d :: text) ∨ Fits (.any :: rest) text := by
  rw [fits_any_iff, fits_any_iff]
  constructor
  · rintro ⟨piece, after, htext, hafter⟩
    cases piece with
    | nil =>
        rw [List.nil_append] at htext
        exact .inl (htext ▸ hafter)
    | cons _ piece => exact .inr ⟨piece, after, (List.cons.inj htext).2, hafter⟩
  · rintro (h | ⟨piece, after, rfl, hafter⟩)
    · exact ⟨[], d :: text, rfl, h⟩
    · exact ⟨d :: piece, after, rfl, hafter⟩

theorem fits_map_exactly_iff {letters : List Char} :
    Fits (letters.map .exactly ++ rest) text ↔ ∃ after, text = letters ++ after ∧
      Fits rest after := by
  induction letters generalizing text with
  | nil =>
      constructor
      · exact fun h => ⟨text, rfl, h⟩
      · rintro ⟨_, rfl, h⟩
        exact h
  | cons c letters ih =>
      rw [List.map_cons, List.cons_append, fits_exactly_iff]
      constructor
      · rintro ⟨middle, rfl, hmiddle⟩
        obtain ⟨after, rfl, hafter⟩ := ih.mp hmiddle
        exact ⟨after, rfl, hafter⟩
      · rintro ⟨after, rfl, hafter⟩
        exact ⟨letters ++ after, rfl, ih.mpr ⟨after, rfl, hafter⟩⟩

/-! ## Letters and open ends -/

variable {letters : List Char}

@[simp]
theorem fits_any (text : List Char) : Fits [.any] text :=
  ⟨[text], List.flatten_singleton, .cons (.any text) .nil⟩

@[simp]
theorem fits_letters_iff : Fits (letters.map .exactly) text ↔ letters = text := by
  have hend : Fits (letters.map .exactly ++ []) text ↔ ∃ after, text = letters ++ after ∧
      Fits [] after := fits_map_exactly_iff
  rw [List.append_nil] at hend
  rw [hend]
  constructor
  · rintro ⟨after, rfl, hafter⟩
    rw [fits_nil_iff.mp hafter, List.append_nil]
  · rintro rfl
    exact ⟨[], (List.append_nil _).symm, fits_nil_iff.mpr rfl⟩

@[simp]
theorem fits_prefix_iff : Fits (letters.map .exactly ++ [.any]) text ↔ letters <+: text := by
  rw [fits_map_exactly_iff]
  constructor
  · rintro ⟨after, rfl, _⟩
    exact List.prefix_append _ _
  · rintro ⟨after, rfl⟩
    exact ⟨after, rfl, fits_any after⟩

@[simp]
theorem fits_suffix_iff : Fits (.any :: letters.map .exactly) text ↔ letters <:+ text := by
  rw [fits_any_iff]
  constructor
  · rintro ⟨piece, after, rfl, hafter⟩
    rw [← fits_letters_iff.mp hafter]
    exact List.suffix_append _ _
  · rintro ⟨piece, rfl⟩
    exact ⟨piece, letters, rfl, fits_letters_iff.mpr rfl⟩

@[simp]
theorem fits_infix_iff :
    Fits (.any :: (letters.map .exactly ++ [.any])) text ↔ letters <:+: text := by
  rw [fits_any_iff]
  constructor
  · rintro ⟨piece, _, rfl, hafter⟩
    obtain ⟨after, rfl⟩ := fits_prefix_iff.mp hafter
    exact ⟨piece, after, List.append_assoc _ _ _⟩
  · rintro ⟨piece, after, rfl⟩
    exact ⟨piece, letters ++ after, List.append_assoc _ _ _,
      fits_prefix_iff.mpr (List.prefix_append _ _)⟩

/-! ## Matching -/

/-- The list says of every place in the text whether the parts fit from there on. -/
def Marks (parts : List Wildcard) (text : List Char) (matched : List Bool) : Prop :=
  List.Forall₂ (fun m after => m = true ↔ Fits parts after) matched text.tails

variable {matched : List Bool}

theorem marks_nil_iff :
    Marks parts [] matched ↔ ∃ m, matched = [m] ∧ (m = true ↔ Fits parts []) := by
  constructor
  · intro h
    cases h with
    | cons hm hnil =>
        cases hnil
        exact ⟨_, rfl, hm⟩
  · rintro ⟨m, rfl, hm⟩
    exact .cons hm .nil

theorem marks_cons_iff :
    Marks parts (d :: text) matched ↔ ∃ m later, matched = m :: later ∧
      (m = true ↔ Fits parts (d :: text)) ∧ Marks parts text later := by
  constructor
  · intro h
    rw [Marks, List.tails] at h
    cases h with
    | cons hm hlater => exact ⟨_, _, rfl, hm, hlater⟩
  · rintro ⟨m, later, rfl, hm, hlater⟩
    exact .cons hm hlater

/-- There is a place more than there are characters. -/
theorem Marks.exists_cons (h : Marks parts text matched) :
    ∃ m later, matched = m :: later ∧ (m = true ↔ Fits parts text) := by
  cases text with
  | nil =>
      obtain ⟨m, rfl, hm⟩ := marks_nil_iff.mp h
      exact ⟨m, [], rfl, hm⟩
  | cons d text =>
      obtain ⟨m, later, rfl, hm, _⟩ := marks_cons_iff.mp h
      exact ⟨m, later, rfl, hm⟩

theorem Marks.exactly (c : Char) (h : Marks rest text matched) :
    Marks (.exactly c :: rest) text (step (.exactly c) text matched) := by
  induction text generalizing matched with
  | nil =>
      refine marks_nil_iff.mpr ⟨false, rfl, ?_⟩
      rw [fits_exactly_iff]
      simp
  | cons d text ih =>
      obtain ⟨_, later, rfl, _, hlater⟩ := marks_cons_iff.mp h
      obtain ⟨m, after, rfl, hm⟩ := hlater.exists_cons
      refine marks_cons_iff.mpr ⟨c == d && m, _, rfl, ?_, ih hlater⟩
      rw [fits_exactly_iff, Bool.and_eq_true, beq_iff_eq, hm]
      constructor
      · rintro ⟨rfl, hfits⟩
        exact ⟨text, rfl, hfits⟩
      · rintro ⟨_, htext, hfits⟩
        cases htext
        exact ⟨rfl, hfits⟩

theorem Marks.one (h : Marks rest text matched) :
    Marks (.one :: rest) text (step .one text matched) := by
  induction text generalizing matched with
  | nil =>
      obtain ⟨m, rfl, _⟩ := marks_nil_iff.mp h
      refine marks_nil_iff.mpr ⟨false, rfl, ?_⟩
      rw [fits_one_iff]
      simp
  | cons d text ih =>
      obtain ⟨_, later, rfl, _, hlater⟩ := marks_cons_iff.mp h
      obtain ⟨m, after, rfl, hm⟩ := hlater.exists_cons
      refine marks_cons_iff.mpr ⟨m, _, rfl, ?_, ih hlater⟩
      rw [fits_one_iff, hm]
      constructor
      · exact fun hfits => ⟨d, text, rfl, hfits⟩
      · rintro ⟨_, _, htext, hfits⟩
        cases htext
        exact hfits

/-- From the end of the text to its front: what is marked already, and whether anything
is. -/
theorem Marks.any (h : Marks rest text matched) :
    Marks (.any :: rest) text (step .any text matched) := by
  have hfold : Marks (.any :: rest) text
        (matched.foldr (fun m acc => ((m || acc.2) :: acc.1, m || acc.2)) ([], false)).1 ∧
      ((matched.foldr (fun m acc => ((m || acc.2) :: acc.1, m || acc.2))
        (([] : List Bool), false)).2 = true ↔ Fits (.any :: rest) text) := by
    induction text generalizing matched with
    | nil =>
        obtain ⟨m, rfl, hm⟩ := marks_nil_iff.mp h
        have hany : (m || false) = true ↔ Fits (.any :: rest) [] := by
          rw [Bool.or_false, hm, fits_any_iff]
          constructor
          · exact fun hfits => ⟨[], [], rfl, hfits⟩
          · rintro ⟨piece, after, htext, hfits⟩
            obtain ⟨rfl, rfl⟩ := List.append_eq_nil_iff.mp htext.symm
            exact hfits
        exact ⟨marks_nil_iff.mpr ⟨m || false, rfl, hany⟩, hany⟩
    | cons d text ih =>
        obtain ⟨m, later, rfl, hm, hlater⟩ := marks_cons_iff.mp h
        obtain ⟨hmarks, hsome⟩ := ih hlater
        have hany : (m || (later.foldr (fun m acc => ((m || acc.2) :: acc.1, m || acc.2))
            (([] : List Bool), false)).2) = true ↔ Fits (.any :: rest) (d :: text) := by
          rw [Bool.or_eq_true, hm, hsome, fits_any_cons_iff]
        exact ⟨marks_cons_iff.mpr ⟨_, _, rfl, hany, hmarks⟩, hany⟩
  exact hfold.1

/-- **One more part in front.** -/
theorem Marks.step (w : Wildcard) (h : Marks rest text matched) :
    Marks (w :: rest) text (step w text matched) := by
  cases w with
  | exactly c => exact h.exactly c
  | one => exact h.one
  | any => exact h.any

theorem marks_matchesFrom (text : List Char) (parts : List Wildcard) :
    Marks parts text (matchesFrom text parts) := by
  induction parts with
  | nil =>
      induction text with
      | nil => exact marks_nil_iff.mpr ⟨true, rfl, by simp⟩
      | cons d text ih => exact marks_cons_iff.mpr ⟨false, _, rfl, by simp, ih⟩
  | cons w rest ih => exact ih.step w

/-- **A pattern matches what can be cut into pieces for its parts.** -/
theorem matchesText_iff {p : LikePattern} : p.matchesText text = true ↔ Fits p.parts text := by
  obtain ⟨m, later, hmatched, hm⟩ := (marks_matchesFrom text p.parts).exists_cons
  rw [matchesText, hmatched]
  exact hm

end LikePattern

end RecordFilter
