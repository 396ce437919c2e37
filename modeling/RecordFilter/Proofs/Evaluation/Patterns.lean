/-
# `Proofs.Evaluation.Patterns` — a stored text against a pattern

A condition with a pattern is true of a text that, in lower case, can be cut into pieces,
one for each character of the pattern and in its order: `%` takes any piece, `_` one
character, and every other character itself (`LikePattern.CharTakes`).  Nothing is said here
of parts or of tables: that a prepared pattern has a part for each of its characters is
`fits_map_part_iff`, and that an evaluator has prepared it is `lookup_of_evaluator`.

What is matched is the text of a plain value, or of a list the texts of its plain elements,
one behind the other (`Json.letters`).
-/
import RecordFilter.Proofs.Evaluation.Comparison
import RecordFilter.Proofs.Like

namespace RecordFilter

/-! ## Characters of a pattern -/

namespace LikePattern

/-- The pieces that a character of a pattern takes. -/
inductive CharTakes : Char → List Char → Prop
  | any (piece : List Char) : CharTakes '%' piece
  | one (c : Char) : CharTakes '_' [c]
  | itself {c : Char} : c ≠ '%' → c ≠ '_' → CharTakes c [c]

/-- The text can be cut into pieces that the characters of the pattern take, one each and in
order. -/
def Cuts (pattern text : List Char) : Prop :=
  ∃ pieces : List (List Char), pieces.flatten = text ∧ List.Forall₂ CharTakes pattern pieces

theorem part_eq_exactly {c : Char} (hany : c ≠ '%') (hone : c ≠ '_') : part c = .exactly c := by
  unfold part
  split
  · exact absurd rfl hany
  · exact absurd rfl hone
  · rfl

theorem takes_part_iff {c : Char} {piece : List Char} :
    (part c).Takes piece ↔ CharTakes c piece := by
  constructor
  · intro h
    by_cases hany : c = '%'
    · subst hany
      exact .any piece
    · by_cases hone : c = '_'
      · subst hone
        cases h
        exact .one _
      · rw [part_eq_exactly hany hone] at h
        cases h
        exact .itself hany hone
  · intro h
    cases h with
    | any piece => exact .any piece
    | one d => exact .one d
    | itself hany hone =>
        rw [part_eq_exactly hany hone]
        exact .exactly c

theorem fits_map_part_iff {pattern text : List Char} :
    Fits (pattern.map part) text ↔ Cuts pattern text := by
  refine exists_congr fun pieces => and_congr_right fun _ => ?_
  rw [List.forall₂_map_left_iff]
  constructor
  · exact fun h => h.imp fun _ _ => takes_part_iff.mp
  · exact fun h => h.imp fun _ _ => takes_part_iff.mpr

/-- **A prepared pattern matches the texts that its characters cut.** -/
theorem matchesLower_iff {pattern text : String} :
    (ofText pattern).matchesLower text = true ↔
      Cuts pattern.toList (Text.lowerChars text.toList) :=
  matchesText_iff.trans fits_map_part_iff

end LikePattern

/-! ## Texts of values -/

/-- The letters of a plain value's text; none of another value. -/
def Json.letters : Json → List Char
  | .string s => s.toList
  | .number n => n.text.toList
  | .bool true => "true".toList
  | .bool false => "false".toList
  | .null => []
  | .array _ => []
  | .object _ => []

theorem Json.letters_eq (value : Json) :
    value.letters = (value.textOf.map String.toList).getD [] := by
  cases value with
  | bool b => cases b <;> rfl
  | _ => rfl

theorem Json.joinedText_array (items : List Json) :
    ∃ text, Json.joinedText (.array items) = some text ∧ text.toList = items.flatMap letters := by
  refine ⟨_, rfl, ?_⟩
  induction items with
  | nil => rfl
  | cons item items ih =>
      rw [List.flatMap_cons, ← ih, Json.letters_eq]
      cases htext : item.textOf with
      | none =>
          rw [List.filterMap_cons_none htext]
          rfl
      | some text =>
          rw [List.filterMap_cons_some htext, String.join_cons, String.toList_append]
          rfl

/-! ## Evaluators -/

theorem PatternEngine.lookup_of_evaluator {engine : PatternEngine} {f : Filter} {ev : Evaluator}
    {pattern : String} (hev : engine.evaluator f = .ok ev)
    (hpattern : pattern ∈ f.predicate.patterns) :
    ev.table.lookup pattern = some (.ofText pattern) := by
  obtain ⟨table, htable, rfl⟩ := evaluator_eq_ok_iff.mp hev
  exact PatternTable.serves_of_prepare htable pattern hpattern

/-! ## The theorem -/

/-- **Matching a pattern is cutting the text.**  Where an evaluator could be made, a
condition with one of its patterns is true or false of every stored value that has a text:
true if the lower-cased text can be cut into pieces for the characters of the pattern, and
the opposite of that if it is negated.  Of a stored list the same is said with the letters of
its elements, one behind the other. -/
theorem patterns_match_wildcards {engine : PatternEngine} {f : Filter} {ev : Evaluator}
    (hev : engine.evaluator f = .ok ev) {pattern : String}
    (hpattern : pattern ∈ f.predicate.patterns) {path : ResolvedPath} {record : Json} {row : Row}
    {stored : Json} (hread : path.read record row = some stored) :
    (∀ text, stored.textOf = some text →
      ∃ found, (found = true ↔
          LikePattern.Cuts pattern.toList (Text.lowerChars text.toList)) ∧
        ∀ negated, (Predicate.test path (.like pattern negated)).eval ev.table record row =
          some (found != negated)) ∧
      ∀ items, stored = .array items →
        ∃ found, (found = true ↔ LikePattern.Cuts pattern.toList
            (Text.lowerChars (items.flatMap Json.letters))) ∧
          (Predicate.test path (.joinedLike pattern)).eval ev.table record row = some found := by
  have hlookup := PatternEngine.lookup_of_evaluator hev hpattern
  constructor
  · intro text htext
    refine ⟨(LikePattern.ofText pattern).matchesLower text, LikePattern.matchesLower_iff, ?_⟩
    intro negated
    show Condition.eval ev.table (path.read record row) _ = _
    rw [hread]
    exact Condition.eval_like htext hlookup negated
  · rintro items rfl
    obtain ⟨text, hjoined, hletters⟩ := Json.joinedText_array items
    refine ⟨(LikePattern.ofText pattern).matchesLower text, ?_, ?_⟩
    · rw [LikePattern.matchesLower_iff, hletters]
    · show Condition.eval ev.table (path.read record row) _ = _
      rw [hread]
      exact Condition.eval_joinedLike hjoined hlookup

theorem pattern_matches_over_lines_and_elements :
    ∃ ev : Evaluator,
      PatternEngine.lenient.evaluator
          (.ofPredicate (.test ⟨[⟨"name", none⟩], .string⟩ (.like "j%n." true))) = .ok ev ∧
        (Predicate.test ⟨[⟨"name", none⟩], .string⟩ (.like "j%n." true)).eval ev.table
          (.object [("name", .string "JO\nHN.")]) [] = some false ∧
        (Predicate.test ⟨[⟨"tags", none⟩], .list⟩ (.joinedLike "j%n.")).eval ev.table
          (.object [("tags", .array [.string "J", .null, .bool true, .string "N."])]) [] =
            some true := by
  have hevaluator : PatternEngine.lenient.evaluator
      (.ofPredicate (.test ⟨[⟨"name", none⟩], .string⟩ (.like "j%n." true))) =
        .ok ⟨_, _, _⟩ := rfl
  have hcuts : ∀ middle, LikePattern.Cuts "j%n.".toList ('j' :: (middle ++ ['n', '.'])) := by
    intro middle
    refine ⟨[['j'], middle, ['n'], ['.']], rfl, ?_⟩
    exact .cons (.itself (by decide) (by decide)) (.cons (.any middle)
      (.cons (.itself (by decide) (by decide)) (.cons (.itself (by decide) (by decide)) .nil)))
  have htext : Text.lowerChars "JO\nHN.".toList =
      'j' :: (['o', '\n', 'h'] ++ ['n', '.']) := by decide +kernel
  have hletters : Text.lowerChars
      ([Json.string "J", .null, .bool true, .string "N."].flatMap Json.letters) =
        'j' :: (['t', 'r', 'u', 'e'] ++ ['n', '.']) := by decide +kernel
  have hname : ResolvedPath.read ⟨[⟨"name", none⟩], .string⟩
      (.object [("name", .string "JO\nHN.")]) [] = some (.string "JO\nHN.") := rfl
  have htags : ResolvedPath.read ⟨[⟨"tags", none⟩], .list⟩
      (.object [("tags", .array [.string "J", .null, .bool true, .string "N."])]) [] =
        some (.array [.string "J", .null, .bool true, .string "N."]) := rfl
  obtain ⟨found, hfound, hanswer⟩ :=
    (patterns_match_wildcards hevaluator List.mem_cons_self hname).1 _ rfl
  obtain ⟨found', hfound', hanswer'⟩ :=
    (patterns_match_wildcards hevaluator List.mem_cons_self htags).2 _ rfl
  refine ⟨_, hevaluator, ?_, ?_⟩
  · rw [hanswer true, hfound.mpr (htext ▸ hcuts _)]
    rfl
  · rw [hanswer', hfound'.mpr (hletters ▸ hcuts _)]

end RecordFilter
