/-
# `Proofs.Evaluation.Complement` — a stored value matches a comparison or its opposite

A comparison is unknown where the stored value cannot be compared to the argument, and
then neither it nor its opposite matches.  A value of the shape that its property was
declared with can be compared to whatever an argument is turned into
(`Json.HasShape.comparable`), so

    one of `==` and `!=` matches, and not both                 (`says_equal_notEqual`)
    one of `=in=` and `=out=` matches, and not both            (`says_isIn_isNotIn`)

for every type but lists.  A list is searched as one text by `==` alone
(`says_equal_list`).  The other three operators compare it to a text as it is, which is
unknown, and never match (`says_list`).
-/
import RecordFilter.Proofs.Calendar.Reading
import RecordFilter.Proofs.Evaluation.Comparison
import RecordFilter.Proofs.Number.Decimal

namespace RecordFilter

/-! ## Shapes -/

/-- A moment as it is stored. -/
def DateTime.IsStamp (s : String) : Prop :=
  ∃ d separator hour minute second fraction nano, d.exists? = true ∧ Text.IsSeparator separator ∧
    Time.OnClock hour minute second ∧ Text.Fraction fraction nano ∧
    s = stamp d separator hour minute second fraction

/-- A number as it is stored for an integer: one of 64 bits, with a sign or without, or any
other that is read as a decimal. -/
def Json.Number.IsStored (n : Json.Number) : Prop :=
  (∃ k : Int, n = .integer k ∧ -(twoTo 63 : Int) ≤ k ∧ k < (twoTo 64 : Int)) ∨
    (Json.number n).decimal?.isSome

/-- The shape of the values of a type. -/
def Json.HasShape (type : ValueType) (stored : Json) : Prop :=
  match type with
  | .integer | .long | .byte => ∃ n, stored = .number n ∧ n.IsStored
  | .boolean => ∃ b, stored = .bool b
  | .date => ∃ d : Date, stored = .string d.text ∧ d.exists? = true
  | .dateTime => ∃ s, stored = .string s ∧ DateTime.IsStamp s
  | .string | .entity | .other => ∃ s, stored = .string s
  | .list => ∃ items : List String, stored = .array (items.map .string)

namespace Json

variable {stored : Json} {type : ValueType} {value : Value}

theorem Number.IsStored.decimal {n : Json.Number} (h : n.IsStored) :
    ∃ d, (Json.number n).decimal? = some d := by
  rcases h with ⟨k, rfl, hleast, hgreatest⟩ | h
  · have hbound : Decimal.bound = 79228162514264337593543950336 := rfl
    have hword : twoTo 63 = 9223372036854775808 := rfl
    have hword' : twoTo 64 = 18446744073709551616 := rfl
    exact ⟨_, decimal?_integer (by omega)⟩
  · exact Option.isSome_iff_exists.mp h

theorem HasShape.text {s : Json} (h : s.HasShape type) (htext : type.IsText)
    (hlist : type ≠ .list) : ∃ t, s = .string t := by
  rcases htext with rfl | rfl | rfl | rfl
  · exact h
  · exact absurd rfl hlist
  · exact h
  · exact h

theorem HasShape.array (h : stored.HasShape type) (hlist : type = .list) :
    ∃ items : List String, stored = .array (items.map .string) := by
  rw [hlist] at h
  exact h

/-- **A value of the declared shape can be compared** to the values of its type, unless it is
a list. -/
theorem HasShape.comparable (h : stored.HasShape type) (hlist : type ≠ .list)
    (hvalue : value.HasType type) : ∃ o, stored.compareTo value = some o := by
  cases hvalue with
  | @int w k _ =>
      obtain ⟨n, rfl, hn⟩ : ∃ n, stored = .number n ∧ n.IsStored := by cases w <;> exact h
      obtain ⟨d, hd⟩ := hn.decimal
      exact ⟨d.compareInt k, by rw [compareTo, hd, Option.map_some]⟩
  | boolean b =>
      obtain ⟨a, rfl⟩ := h
      exact ⟨_, rfl⟩
  | date d =>
      obtain ⟨own, rfl, hown⟩ := h
      exact ⟨own.compare d, by rw [compareTo, Date.ofStored?_text hown, Option.map_some]⟩
  | dateTime m =>
      obtain ⟨s, rfl, d, separator, hour, minute, second, fraction, nano, hd, hseparator, hclock,
        hfraction, rfl⟩ := h
      exact ⟨_, by rw [compareTo, DateTime.ofStored?_stamp hd hseparator hclock hfraction,
        Option.map_some]⟩
  | text s htext =>
      obtain ⟨t, rfl⟩ := h.text htext hlist
      exact ⟨_, rfl⟩

/-! ## One of several -/

theorem isOneOf_of_comparable {values : List Value}
    (h : ∀ value ∈ values, ∃ o, stored.compareTo value = some o) :
    ∃ b, stored.isOneOf values = some b := by
  induction values with
  | nil => exact ⟨false, rfl⟩
  | cons value values ih =>
      obtain ⟨⟨o, ho⟩, hrest⟩ := List.forall_mem_cons.mp h
      rw [isOneOf, ho]
      cases o with
      | eq => exact ⟨true, rfl⟩
      | lt => exact ih hrest
      | gt => exact ih hrest

/-- What can be compared to none of them is unknown. -/
theorem isOneOf_of_incomparable {values : List Value} (hne : values ≠ [])
    (h : ∀ value ∈ values, stored.compareTo value = none) : stored.isOneOf values = none := by
  induction values with
  | nil => exact absurd rfl hne
  | cons value values ih =>
      obtain ⟨hfirst, hrest⟩ := List.forall_mem_cons.mp h
      rw [isOneOf, hfirst]
      by_cases hlast : values = []
      · rw [hlast]
        rfl
      · rw [ih hlast hrest]

end Json

/-! ## Arguments -/

namespace ValueType

variable {type : ValueType} {format : DateFormat} {argument : String} {others : List String}
  {values : List Value}

theorem IsText.coerce (h : type.IsText) (argument : String) (format : DateFormat) :
    type.coerce argument format = .ok (.text argument) := by
  rcases h with rfl | rfl | rfl | rfl <;> rfl

theorem coerceList_cons_ok (h : type.coerceList format (argument :: others) = .ok values) :
    ∃ first rest, values = first :: rest ∧ type.coerce argument format = .ok first := by
  rw [coerceList] at h
  split at h
  · cases h
  · next first hfirst =>
      obtain ⟨rest, _, rfl⟩ := map_eq_ok_iff.mp h
      exact ⟨first, rest, rfl, hfirst⟩

end ValueType

/-! ## Comparisons and their opposites -/

namespace Compiler

variable {engine : PatternEngine} {c : Compiler} {e : Entity} {record stored : Json}
  {selector argument : String} {path : ResolvedPath} {others : List String} {first : Value}
  {values rest : List Value}

/-- **One of `==` and `!=` matches, and not both.** -/
theorem says_equal_notEqual (hstores : e.Stores record selector path stored)
    (hshape : stored.HasShape path.type) (hlist : path.type ≠ .list)
    (hvalues : path.type.coerceList c.dateFormat (argument :: others) = .ok values)
    (haccepts : path.type.IsText → engine.Accepts (Condition.likePattern argument)) :
    ∃ found, c.Says engine e (.comparison ⟨selector, .equal, argument :: others⟩) record found ∧
      c.Says engine e (.comparison ⟨selector, .notEqual, argument :: others⟩) record (!found) := by
  have hall := (ValueType.reads_of_coerceList hvalues).hasType
  obtain ⟨first, rest, rfl, hfirst⟩ := ValueType.coerceList_cons_ok hvalues
  have htype := hall first List.mem_cons_self
  have hequal := compileComparison_of_values ⟨selector, .equal, argument :: others⟩
    hstores.resolve trivial hvalues
  have hnotEqual := compileComparison_of_values ⟨selector, .notEqual, argument :: others⟩
    hstores.resolve trivial hvalues
  by_cases htext : path.type.IsText
  · rw [htext.coerce] at hfirst
    cases hfirst
    simp only [Predicate.ofOperator, Condition.equalTo.eq_def, if_neg hlist] at hequal
    obtain ⟨text, rfl⟩ := hshape.text htext hlist
    have hruns : ∀ negated,
        (Predicate.test path (.like (Condition.likePattern argument) negated)).Runs engine :=
      fun negated => (Predicate.runs_iff_of_pattern rfl).mpr (haccepts htext)
    have hyes := says_test hstores hequal (hruns false) fun table hserves =>
      Condition.eval_like rfl (hserves _ List.mem_cons_self) false
    have hno := says_test hstores hnotEqual (hruns true) fun table hserves =>
      Condition.eval_like rfl (hserves _ List.mem_cons_self) true
    rw [some_eq_true, Bool.bne_false] at hyes
    rw [some_eq_true, Bool.bne_true] at hno
    exact ⟨_, hyes, hno⟩
  · obtain ⟨o, ho⟩ := hshape.comparable hlist htype
    simp only [Predicate.ofOperator, htype.equalTo htext] at hequal
    simp only [Predicate.ofOperator, htype.notEqualTo htext] at hnotEqual
    have hyes := says_test hstores hequal (Predicate.runs_of_patterns_nil engine rfl)
      fun _ _ => Condition.eval_equal ho
    have hno := says_test hstores hnotEqual (Predicate.runs_of_patterns_nil engine rfl)
      fun _ _ => Condition.eval_notEqual ho
    rw [some_eq_true] at hyes hno
    exact ⟨_, hyes, hno⟩

theorem says_isIn (engine : PatternEngine) (hstores : e.Stores record selector path stored)
    (hvalues : path.type.coerceList c.dateFormat (argument :: others) = .ok values) {truth : Truth}
    (htruth : stored.isOneOf values = truth) :
    c.Says engine e (.comparison ⟨selector, .isIn, argument :: others⟩) record
        (truth == some true) ∧
      c.Says engine e (.comparison ⟨selector, .isNotIn, argument :: others⟩) record
        (truth == some false) := by
  obtain ⟨first, rest, rfl, _⟩ := ValueType.coerceList_cons_ok hvalues
  have hin := compileComparison_of_values ⟨selector, .isIn, argument :: others⟩
    hstores.resolve trivial hvalues
  have hout := compileComparison_of_values ⟨selector, .isNotIn, argument :: others⟩
    hstores.resolve trivial hvalues
  exact ⟨says_test hstores hin (Predicate.runs_of_patterns_nil engine rfl) fun _ _ => htruth,
    says_not hstores hout (Predicate.runs_of_patterns_nil engine rfl) fun _ _ => htruth⟩

/-- **One of `=in=` and `=out=` matches, and not both.** -/
theorem says_isIn_isNotIn (hstores : e.Stores record selector path stored)
    (hshape : stored.HasShape path.type) (hlist : path.type ≠ .list)
    (hvalues : path.type.coerceList c.dateFormat (argument :: others) = .ok values) :
    ∃ found, c.Says engine e (.comparison ⟨selector, .isIn, argument :: others⟩) record found ∧
      c.Says engine e (.comparison ⟨selector, .isNotIn, argument :: others⟩) record (!found) := by
  have hall := (ValueType.reads_of_coerceList hvalues).hasType
  obtain ⟨found, hfound⟩ := Json.isOneOf_of_comparable fun value hvalue =>
    hshape.comparable hlist (hall value hvalue)
  have hanswer := says_isIn engine hstores hvalues hfound
  rw [some_eq_true, some_eq_false] at hanswer
  exact ⟨found, hanswer⟩

/-- **On a list `==` decides**: it searches the texts of the elements, one behind the
other. -/
theorem says_equal_list {items : List String}
    (hstores : e.Stores record selector path (.array (items.map .string)))
    (hlist : path.type = .list)
    (hvalues : path.type.coerceList c.dateFormat (argument :: others) = .ok values)
    (haccepts : engine.Accepts (Condition.likePattern argument)) :
    ∃ found, c.Says engine e (.comparison ⟨selector, .equal, argument :: others⟩) record found ∧
      (found = true ↔ LikePattern.Fits ((Text.lowerChars argument.toList).map Wildcard.ofArgument)
        (Text.lowerChars (String.join items).toList)) := by
  have htext : path.type.IsText := .inr (.inl hlist)
  obtain ⟨first, rest, rfl, hfirst⟩ := ValueType.coerceList_cons_ok hvalues
  have hequal := compileComparison_of_values ⟨selector, .equal, argument :: others⟩
    hstores.resolve trivial hvalues
  rw [htext.coerce] at hfirst
  cases hfirst
  simp only [Predicate.ofOperator, Condition.equalTo.eq_def, if_pos hlist] at hequal
  have hjoined : Json.joinedText (.array (items.map .string)) = some (String.join items) := by
    have htexts : (items.map Json.string).filterMap Json.textOf = items :=
      (List.filterMap_map ..).trans List.filterMap_some
    rw [Json.joinedText, htexts]
  have hruns : (Predicate.test path (.joinedLike (Condition.likePattern argument))).Runs engine :=
    (Predicate.runs_iff_of_pattern rfl).mpr haccepts
  have hanswer := says_test hstores hequal hruns fun table hserves =>
    Condition.eval_joinedLike hjoined (hserves _ List.mem_cons_self)
  rw [some_eq_true] at hanswer
  exact ⟨_, hanswer, Condition.matchesLower_likePattern_iff⟩

/-- **A list matches none of `!=`, `=in=` and `=out=`**, whatever the argument. -/
theorem says_list {items : List String}
    (hstores : e.Stores record selector path (.array (items.map .string)))
    (hlist : path.type = .list)
    (hvalues : path.type.coerceList c.dateFormat (argument :: others) = .ok values) :
    (engine.Accepts (Condition.likePattern argument) →
      c.Says engine e (.comparison ⟨selector, .notEqual, argument :: others⟩) record false) ∧
    c.Says engine e (.comparison ⟨selector, .isIn, argument :: others⟩) record false ∧
    c.Says engine e (.comparison ⟨selector, .isNotIn, argument :: others⟩) record false := by
  have htext : path.type.IsText := .inr (.inl hlist)
  have hall := (ValueType.reads_of_coerceList hvalues).hasType
  have hincomparable : ∀ value ∈ values,
      (Json.array (items.map .string)).compareTo value = none := by
    intro value hvalue
    obtain ⟨s, rfl⟩ := (hall value hvalue).isText_iff.mp htext
    rfl
  obtain ⟨first, rest, rfl, hfirst⟩ := ValueType.coerceList_cons_ok hvalues
  refine ⟨fun haccepts => ?_, ?_⟩
  · have hnotEqual := compileComparison_of_values ⟨selector, .notEqual, argument :: others⟩
      hstores.resolve trivial hvalues
    rw [htext.coerce] at hfirst
    cases hfirst
    exact says_test hstores hnotEqual ((Predicate.runs_iff_of_pattern rfl).mpr haccepts)
      fun _ _ => rfl
  · exact says_isIn engine hstores hvalues
      (Json.isOneOf_of_incomparable (List.cons_ne_nil _ _) hincomparable)

/-- Where the pattern of the argument is refused neither `==` nor `!=` can be run. -/
theorem verdict?_of_refused (hstores : e.Stores record selector path stored)
    (htext : path.type.IsText)
    (hvalues : path.type.coerceList c.dateFormat (argument :: others) = .ok values)
    (hrefused : ¬ engine.Accepts (Condition.likePattern argument)) :
    c.verdict? engine e (.comparison ⟨selector, .equal, argument :: others⟩) record = none ∧
      c.verdict? engine e (.comparison ⟨selector, .notEqual, argument :: others⟩) record =
        none := by
  have hnone : ∀ {op : Operator} {p : Predicate},
      c.compileComparison e ⟨selector, op, argument :: others⟩ = .ok p →
      p.patterns = [Condition.likePattern argument] →
      c.verdict? engine e (.comparison ⟨selector, op, argument :: others⟩) record = none := by
    intro op p hcompile hpatterns
    rw [verdict?, compileNode, hcompile]
    show (engine.evaluator (.ofPredicate p)).toOption.map _ = none
    have hstuck : ¬ p.Runs engine := (Predicate.runs_iff_of_pattern hpatterns).not.mpr hrefused
    rw [Predicate.evaluator_of_not_runs hstuck]
    rfl
  obtain ⟨first, rest, rfl, hfirst⟩ := ValueType.coerceList_cons_ok hvalues
  rw [htext.coerce] at hfirst
  cases hfirst
  have hequal := compileComparison_of_values ⟨selector, .equal, argument :: others⟩
    hstores.resolve trivial hvalues
  have hnotEqual := compileComparison_of_values ⟨selector, .notEqual, argument :: others⟩
    hstores.resolve trivial hvalues
  refine ⟨hnone hequal ?_, hnone hnotEqual rfl⟩
  rw [Condition.equalTo.eq_def]
  split <;> rfl

end Compiler

/-- **A stored value matches a comparison or its opposite, but for lists.**  Of a record that
stores a value of the declared shape, one of `==` and `!=` with the same arguments says
that it matches, and the other that it does not; so with `=in=` and `=out=`.  On a list
`==` searches the texts of the elements as one, and `!=`, `=in=` and `=out=` never
match, so there `==` has no opposite.  With a text, `==` and `!=` can be run if the engine
takes the pattern of the argument, and else neither can. -/
theorem stored_value_matches_one (engine : PatternEngine) (c : Compiler) (e : Entity)
    (record stored : Json) (selector : String) (path : ResolvedPath) (argument : String)
    (others : List String) (values : List Value) (hstores : e.Stores record selector path stored)
    (hshape : stored.HasShape path.type)
    (hvalues : path.type.coerceList c.dateFormat (argument :: others) = .ok values) :
    (path.type ≠ .list →
      ((path.type.IsText → engine.Accepts (Condition.likePattern argument)) →
        ∃ found, c.Says engine e (.comparison ⟨selector, .equal, argument :: others⟩) record found ∧
          c.Says engine e (.comparison ⟨selector, .notEqual, argument :: others⟩) record (!found)) ∧
      ∃ found, c.Says engine e (.comparison ⟨selector, .isIn, argument :: others⟩) record found ∧
        c.Says engine e (.comparison ⟨selector, .isNotIn, argument :: others⟩) record (!found)) ∧
    (path.type = .list →
      (engine.Accepts (Condition.likePattern argument) →
        (∃ items found, stored = .array (items.map .string) ∧
          c.Says engine e (.comparison ⟨selector, .equal, argument :: others⟩) record found ∧
          (found = true ↔
            LikePattern.Fits ((Text.lowerChars argument.toList).map Wildcard.ofArgument)
              (Text.lowerChars (String.join items).toList))) ∧
        c.Says engine e (.comparison ⟨selector, .notEqual, argument :: others⟩) record false) ∧
      c.Says engine e (.comparison ⟨selector, .isIn, argument :: others⟩) record false ∧
      c.Says engine e (.comparison ⟨selector, .isNotIn, argument :: others⟩) record false) ∧
    (path.type.IsText → ¬ engine.Accepts (Condition.likePattern argument) →
      c.verdict? engine e (.comparison ⟨selector, .equal, argument :: others⟩) record = none ∧
        c.verdict? engine e (.comparison ⟨selector, .notEqual, argument :: others⟩) record =
          none) := by
  refine ⟨fun hlist => ⟨Compiler.says_equal_notEqual hstores hshape hlist hvalues,
      Compiler.says_isIn_isNotIn hstores hshape hlist hvalues⟩, fun hlist => ?_,
    fun htext => Compiler.verdict?_of_refused hstores htext hvalues⟩
  obtain ⟨items, rfl⟩ := hshape.array hlist
  obtain ⟨hnotEqual, hmembers⟩ := Compiler.says_list hstores hlist hvalues
  refine ⟨fun haccepts => ⟨?_, hnotEqual haccepts⟩, hmembers⟩
  obtain ⟨found, hanswer, hfound⟩ := Compiler.says_equal_list hstores hlist hvalues haccepts
  exact ⟨items, found, rfl, hanswer, hfound⟩

/-- An integer is one of two arguments, or not, and a list is not unequal to a text. -/
theorem stored_value_matches_one_age_tags :
    (∃ found, Compiler.standard.answer? .lenient
          ⟨"E", [("age", .basic .byte), ("tags", .basic .list)]⟩
        "age=in=(5,-3)" (.object [("age", .number (.integer (-3)))]) = some found ∧
      Compiler.standard.answer? .lenient ⟨"E", [("age", .basic .byte), ("tags", .basic .list)]⟩
        "age=out=(5,-3)" (.object [("age", .number (.integer (-3)))]) = some (!found)) ∧
    Compiler.standard.answer? .lenient ⟨"E", [("age", .basic .byte), ("tags", .basic .list)]⟩
      "tags!=b" (.object [("tags", .array [.string "a"])]) = some false := by
  have hage : Entity.Stores ⟨"E", [("age", .basic .byte), ("tags", .basic .list)]⟩
      (.object [("age", .number (.integer (-3)))]) "age" ⟨[⟨"age", none⟩], .byte⟩
      (.number (.integer (-3))) :=
    ⟨toOption_eq_some_iff.mp (by decide +kernel), nofun, rfl, nofun⟩
  have htags : Entity.Stores ⟨"E", [("age", .basic .byte), ("tags", .basic .list)]⟩
      (.object [("tags", .array [.string "a"])]) "tags" ⟨[⟨"tags", none⟩], .list⟩
      (.array [.string "a"]) :=
    ⟨toOption_eq_some_iff.mp (by decide +kernel), nofun, rfl, nofun⟩
  constructor
  · obtain ⟨found, hin, hout⟩ := ((stored_value_matches_one .lenient .standard _ _ _ _ _ "5" ["-3"]
      [.int .byte 5, .int .byte (-3)] hage ⟨_, rfl, .inl ⟨-3, rfl, by decide, by decide⟩⟩
      (toOption_eq_some_iff.mp (by decide +kernel))).1 nofun).2
    exact ⟨found, hin.parsed _ (toOption_eq_some_iff.mp (by decide +kernel)),
      hout.parsed _ (toOption_eq_some_iff.mp (by decide +kernel))⟩
  · have hlist := (stored_value_matches_one .lenient .standard _ _ _ _ _ "b" [] [.text "b"] htags
      ⟨["a"], rfl⟩ (toOption_eq_some_iff.mp (by decide +kernel))).2.1 rfl
    exact (hlist.1 (PatternEngine.lenient_accepts _)).2.parsed _
      (toOption_eq_some_iff.mp (by decide +kernel))

/-- A list without the argument matches neither `==` nor `!=`, and neither `=in=` nor
`=out=`. -/
theorem stored_list_matches_neither :
    Compiler.standard.answer? .lenient ⟨"E", [("tags", .basic .list)]⟩ "tags==b"
        (.object [("tags", .array [.string "a"])]) = some false ∧
      Compiler.standard.answer? .lenient ⟨"E", [("tags", .basic .list)]⟩ "tags!=b"
        (.object [("tags", .array [.string "a"])]) = some false ∧
      Compiler.standard.answer? .lenient ⟨"E", [("tags", .basic .list)]⟩ "tags=in=(b)"
        (.object [("tags", .array [.string "a"])]) = some false ∧
      Compiler.standard.answer? .lenient ⟨"E", [("tags", .basic .list)]⟩ "tags=out=(b)"
        (.object [("tags", .array [.string "a"])]) = some false := by
  decide +kernel

end RecordFilter
