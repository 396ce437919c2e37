/-
# `Proofs.Evaluation.Dates` — date operators follow the calendar

A date is compared after two readings: the argument's, by the pattern of the compiler,
and the stored text's, by the forms in which dates are stored.  Both are exact to the
millisecond, dates compare as their places in the row of all days, and moments as the
nanoseconds from its beginning; so each of the six comparison operators says of a
record how the stored moment lies to the argument in time
(`date_operators_follow_calendar`).

For a property of dates the time of day is dropped twice, on different ways: the
argument is read with its time, which is left out then, and a stored moment is read
as a moment only after it turned out to be no date.
-/
import RecordFilter.Proofs.Calendar.Moment
import RecordFilter.Proofs.Evaluation.Comparison

namespace RecordFilter

/-! ## Comparison operators -/

/-- The relation that a comparison operator asks for. -/
inductive Operator.Compares : Operator → (Int → Int → Prop) → Prop
  | equal : Compares .equal (· = ·)
  | notEqual : Compares .notEqual (· ≠ ·)
  | greaterThan : Compares .greaterThan (· > ·)
  | greaterOrEqual : Compares .greaterOrEqual (· ≥ ·)
  | lessThan : Compares .lessThan (· < ·)
  | lessOrEqual : Compares .lessOrEqual (· ≤ ·)

theorem Operator.Compares.takesValues {op : Operator} {relation : Int → Int → Prop}
    (h : op.Compares relation) : op.TakesValues := by
  cases h <;> exact trivial

section

variable {engine : PatternEngine} {c : Compiler} {e : Entity} {record stored : Json}
  {selector argument : String} {path : ResolvedPath} {op : Operator}
  {relation : Int → Int → Prop} {first : Value} {m n : Int}

/-- **An operator asks for its relation**, if the stored value compares to the argument as
two numbers do. -/
theorem Predicate.ofOperator_compares (hop : op.Compares relation) (hdate : path.type.IsDate)
    (hfirst : first.HasType path.type)
    (hcompare : stored.compareTo first = some (Ord.compare m n)) (selector : String)
    (values : List Value) :
    ∃ condition found, ofOperator selector path first values op = .ok (.test path condition) ∧
      (test path condition).patterns = [] ∧
      (∀ table, condition.eval table (some stored) = some found) ∧ (found = true ↔ relation m n) := by
  have hordered : ∀ r : Relation,
      ofOperator selector path first values op = .ok (.test path (Condition.ordered r first)) →
      (r.accepts (Ord.compare m n) = true ↔ relation m n) →
      ∃ condition found, ofOperator selector path first values op = .ok (.test path condition) ∧
        (test path condition).patterns = [] ∧
        (∀ table, condition.eval table (some stored) = some found) ∧
        (found = true ↔ relation m n) := by
    intro r hcondition hr
    rw [hfirst.ordered hdate r] at hcondition
    exact ⟨_, _, hcondition, rfl, fun table => Condition.eval_compare hcompare r, hr⟩
  cases hop with
  | equal =>
      refine ⟨.equal first, _, ?_, rfl, fun table => Condition.eval_equal hcompare, ?_⟩
      · rw [← hfirst.equalTo hdate.not_isText]
        rfl
      · rw [beq_iff_eq, Int.compare_eq_eq]
  | notEqual =>
      refine ⟨.notEqual first, _, ?_, rfl, fun table => Condition.eval_notEqual hcompare, ?_⟩
      · rw [← hfirst.notEqualTo hdate.not_isText]
        rfl
      · rw [Bool.not_eq_true', beq_eq_false_iff_ne, ne_eq, Int.compare_eq_eq]
  | greaterThan =>
      refine hordered .greater rfl ?_
      rw [Relation.accepts, beq_iff_eq, Int.compare_eq_gt]
  | greaterOrEqual =>
      refine hordered .greaterOrEqual rfl ?_
      rw [Relation.accepts, bne_iff_ne, ne_eq, Int.compare_eq_lt, Int.not_lt]
  | lessThan =>
      refine hordered .less rfl ?_
      rw [Relation.accepts, beq_iff_eq, Int.compare_eq_lt]
  | lessOrEqual =>
      refine hordered .lessOrEqual rfl ?_
      rw [Relation.accepts, bne_iff_ne, ne_eq, Int.compare_eq_gt, Int.not_lt]

theorem Compiler.says_dated (hstores : e.Stores record selector path stored)
    (hop : op.Compares relation) (hdate : path.type.IsDate)
    (hargument : path.type.coerce argument c.dateFormat = .ok first)
    (hcompare : stored.compareTo first = some (Ord.compare m n)) :
    ∃ found, c.Says engine e (.comparison ⟨selector, op, [argument]⟩) record found ∧
      (found = true ↔ relation m n) := by
  have hfirst := ValueType.hasType_of_coerce hargument
  obtain ⟨condition, found, hcondition, hpatterns, heval, hfound⟩ :=
    Predicate.ofOperator_compares hop hdate hfirst hcompare selector [first]
  have hvalues : path.type.coerceList c.dateFormat [argument] = .ok [first] := by
    simp only [ValueType.coerceList, hargument]
    rfl
  have hcompile : c.compileComparison e ⟨selector, op, [argument]⟩ = .ok (.test path condition) :=
    (compileComparison_of_values _ hstores.resolve hop.takesValues hvalues).trans hcondition
  have hanswer := says_test hstores hcompile (Predicate.runs_of_patterns_nil engine hpatterns)
    fun table _ => heval table
  rw [some_eq_true] at hanswer
  exact ⟨found, hanswer, hfound⟩

end

/-- **Date operators follow the calendar.**  With the standard date format, a comparison
operator on a property of moments says of a record how the stored moment lies to the
argument in time; on a property of dates, how the stored day lies to the argument's
day, whatever the time of day of either.  Moments are the nanoseconds from the beginning
of day 0, and days are counted in a row. -/
theorem date_operators_follow_calendar (engine : PatternEngine) (c : Compiler) (e : Entity)
    (record : Json) (selector text : String) (path : ResolvedPath) (a b : DateTime) (op : Operator)
    (relation : Int → Int → Prop) (hformat : c.dateFormat = .standard)
    (hstores : e.Stores record selector path (.string text)) (ha : a.IsWhole) (hb : b.IsWhole)
    (hop : op.Compares relation) :
    (path.type = .dateTime → text = a.written 'T' ∨ text = a.written ' ' →
      ∃ found, c.Says engine e (.comparison ⟨selector, op, [b.written ' ']⟩) record found ∧
        (found = true ↔ relation a.instant b.instant)) ∧
    (path.type = .date →
      text = a.date.text ∨ text = a.written 'T' ∨ text = a.written ' ' →
      ∃ found, c.Says engine e (.comparison ⟨selector, op, [b.written ' ']⟩) record found ∧
        (found = true ↔ relation a.date.dayNumber b.date.dayNumber)) := by
  constructor
  · intro htype htext
    have hargument : path.type.coerce (b.written ' ') c.dateFormat = .ok (.dateTime b) := by
      simp only [htype, hformat, ValueType.coerce, hb.readDateTime]
    have hread : DateTime.ofStored? text = some a := by
      rcases htext with rfl | rfl
      · exact ha.ofStored? (.inl rfl)
      · exact ha.ofStored? (.inr rfl)
    refine Compiler.says_dated hstores hop (.inr htype) hargument ?_
    simp only [Json.compareTo, hread, Option.map_some]
    rw [DateTime.compare_eq ha.toRegular hb.toRegular]
  · intro htype htext
    have hargument : path.type.coerce (b.written ' ') c.dateFormat = .ok (.date b.date) := by
      simp only [htype, hformat, ValueType.coerce, hb.readDate]
    have hread : Date.ofStored? text = some a.date := by
      rcases htext with rfl | rfl | rfl
      · exact Date.ofStored?_text ha.date
      · exact ha.dateOfStored? (.inl rfl)
      · exact ha.dateOfStored? (.inr rfl)
    refine Compiler.says_dated hstores hop (.inl htype) hargument ?_
    simp only [Json.compareTo, hread, Option.map_some]
    rw [Date.compare_eq ha.date hb.date]

/-- The last millisecond of a leap day is before the first of March, and its day is the
29th. -/
theorem date_operators_follow_calendar_leap_day :
    Compiler.standard.answer? .lenient ⟨"E", [("at", .basic .dateTime), ("day", .basic .date)]⟩
        "at=lt='2024-03-01 00:00:00.000'"
        (.object [("at", .string "2024-02-29T23:59:59.999")]) = some true ∧
      Compiler.standard.answer? .lenient ⟨"E", [("at", .basic .dateTime), ("day", .basic .date)]⟩
        "day!='2024-02-29 12:00:00.000'"
        (.object [("day", .string "2024-02-29 23:59:59.999")]) = some false := by
  let last : DateTime := ⟨⟨2024, 2, 29⟩, ⟨23, 59, 59, 999000000⟩⟩
  let noon : DateTime := ⟨⟨2024, 2, 29⟩, ⟨12, 0, 0, 0⟩⟩
  let march : DateTime := ⟨⟨2024, 3, 1⟩, ⟨0, 0, 0, 0⟩⟩
  have hlast : last.IsWhole := ⟨⟨rfl, by decide, by decide, by decide, by decide⟩, by decide⟩
  have hnoon : noon.IsWhole := ⟨⟨rfl, by decide, by decide, by decide, by decide⟩, by decide⟩
  have hmarch : march.IsWhole := ⟨⟨rfl, by decide, by decide, by decide, by decide⟩, by decide⟩
  have hat : Entity.Stores ⟨"E", [("at", .basic .dateTime), ("day", .basic .date)]⟩
      (.object [("at", .string "2024-02-29T23:59:59.999")]) "at" ⟨[⟨"at", none⟩], .dateTime⟩
      (.string "2024-02-29T23:59:59.999") :=
    ⟨toOption_eq_some_iff.mp (by decide +kernel), nofun, rfl, nofun⟩
  have hday : Entity.Stores ⟨"E", [("at", .basic .dateTime), ("day", .basic .date)]⟩
      (.object [("day", .string "2024-02-29 23:59:59.999")]) "day" ⟨[⟨"day", none⟩], .date⟩
      (.string "2024-02-29 23:59:59.999") :=
    ⟨toOption_eq_some_iff.mp (by decide +kernel), nofun, rfl, nofun⟩
  constructor
  · obtain ⟨found, hanswer, hfound⟩ := (date_operators_follow_calendar .lenient .standard _ _ _ _ _
      last march .lessThan _ rfl hat hlast hmarch .lessThan).1 rfl (.inl (by decide +kernel))
    have hparse : Compiler.standard.parse "at=lt='2024-03-01 00:00:00.000'" =
        .ok (.comparison ⟨"at", .lessThan, [march.written ' ']⟩) :=
      toOption_eq_some_iff.mp (by decide +kernel)
    rw [hanswer.parsed _ hparse, hfound.mpr (by decide)]
  · obtain ⟨found, hanswer, hfound⟩ := (date_operators_follow_calendar .lenient .standard _ _ _ _ _
      last noon .notEqual _ rfl hday hlast hnoon .notEqual).2 rfl (.inr (.inr (by decide +kernel)))
    have hparse : Compiler.standard.parse "day!='2024-02-29 12:00:00.000'" =
        .ok (.comparison ⟨"day", .notEqual, [noon.written ' ']⟩) :=
      toOption_eq_some_iff.mp (by decide +kernel)
    rw [hanswer.parsed _ hparse]
    have hsame : ¬ found = true := fun h => hfound.mp h rfl
    rw [Bool.eq_false_iff.mpr hsame]

end RecordFilter
