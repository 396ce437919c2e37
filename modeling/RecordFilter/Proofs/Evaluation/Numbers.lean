/-
# `Proofs.Evaluation.Numbers` — which stored numbers are decided

A stored number of any kind is compared with an integer through its text.  The text
denotes one rational (`Json.Number.denotes`, `Text.Denotes.unique`), and `==` is right
about it whatever it is: what is not read as a decimal is no integer that an argument can
be.  With `!=` that is not so.  A number that is not read is unknown to both, so it does
not match `!=` either, though it differs from the argument
(`great_number_matches_neither`).
-/
import RecordFilter.Proofs.Evaluation.Integers
import RecordFilter.Proofs.Number.Reading

namespace RecordFilter

namespace Json.Number

variable {n : Json.Number} {w : Width} {a : Int}

theorem holds_of_width (h : w.holds a = true) : Decimal.Holds a := by
  have hbounds := Width.holds_iff.mp h
  have hleast : -(twoTo 63 : Int) ≤ w.least := by
    cases w <;> decide
  have hgreatest : w.greatest < (twoTo 63 : Int) := by
    cases w <;> decide
  have hbound : Decimal.bound = 79228162514264337593543950336 := rfl
  have hword : twoTo 63 = 9223372036854775808 := rfl
  rw [Decimal.holds_int_iff]
  omega

theorem compareTo_of_holds (h : Decimal.Holds n.value) (w : Width) (a : Int) :
    ∃ o, (Json.number n).compareTo (.int w a) = some o ∧ (o = .eq ↔ n.value = a) := by
  obtain ⟨d, hd, hequal⟩ := n.readsAs.read h
  refine ⟨d.compareInt a, ?_, ?_⟩
  · show (Decimal.ofText n.text.toList).map _ = _
    rw [hd]
    rfl
  · exact (d.compareInt_eq_iff a).trans (hequal a)

theorem compareTo_of_not_holds (h : ¬ Decimal.Holds n.value) (w : Width) (a : Int) :
    (Json.number n).compareTo (.int w a) = none := by
  show (Decimal.ofText n.text.toList).map _ = _
  rw [n.readsAs.refused h]
  rfl

end Json.Number

/-- **Stored numbers are decided as far as they are read.**  Let a record store any number
at a property of integers.  The text of the number denotes one rational, its value.  With
an argument that is turned into an integer, `==` matches if and only if the value is the
integer.  And `!=` matches if and only if it is not, and can be read as a decimal: it is
zero or at least `10^(-28)` away from it, and less than `2^96` away.  What is nearer or
further, other than zero, is unknown, and matches neither. -/
theorem stored_numbers_decided (engine : PatternEngine) (c : Compiler) (e : Entity)
    (record : Json) (selector : String) (path : ResolvedPath) (w : Width) (n : Json.Number)
    (hstores : e.Stores record selector path (.number n)) (htype : path.type = w.type) :
    (Text.Denotes n.text.toList n.value ∧
      ∀ v, Text.Denotes n.text.toList v → v = n.value) ∧
    ∀ (argument : String) (a : Int),
      path.type.coerce argument c.dateFormat = .ok (.int w a) →
      c.Says engine e (.comparison ⟨selector, .equal, [argument]⟩) record (decide (n.value = a)) ∧
      c.Says engine e (.comparison ⟨selector, .notEqual, [argument]⟩) record
        (decide (n.value ≠ a ∧ Decimal.Holds n.value)) := by
  refine ⟨⟨n.denotes, fun v hv => hv.unique n.denotes⟩, ?_⟩
  intro argument a hcoerce
  have hargument : w.Denotes argument a := Width.coerce_eq_ok_iff.mp (htype ▸ hcoerce)
  have hequal := Compiler.says_equal_int (c := c) engine hstores htype hargument
  have hnotEqual := Compiler.says_notEqual_int (c := c) engine hstores htype hargument
  by_cases hholds : Decimal.Holds n.value
  · obtain ⟨o, ho, heq⟩ := Json.Number.compareTo_of_holds hholds w a
    rw [ho, Option.map_some, Compiler.some_eq_true] at hequal hnotEqual
    have hyes : (o == .eq) = decide (n.value = a) := by
      rw [Bool.eq_iff_iff, beq_iff_eq, decide_eq_true_eq]
      exact heq
    have hno : (o != .eq) = decide (n.value ≠ a ∧ Decimal.Holds n.value) := by
      rw [Bool.eq_iff_iff, bne_iff_ne, decide_eq_true_eq, and_iff_left hholds]
      exact not_congr heq
    rw [hyes] at hequal
    rw [hno] at hnotEqual
    exact ⟨hequal, hnotEqual⟩
  · rw [Json.Number.compareTo_of_not_holds hholds, Option.map_none] at hequal hnotEqual
    have hne : n.value ≠ a := by
      intro heq
      rw [heq] at hholds
      exact hholds (Json.Number.holds_of_width hargument.2)
    rw [decide_eq_false hne, decide_eq_false fun h => hholds h.2]
    exact ⟨hequal, hnotEqual⟩

/-- Two and a half is not two, and what is written with an exponent is the integer that it
denotes. -/
theorem stored_numbers_decided_halves :
    (Compiler.standard.answer? .lenient ⟨"E", [("p", .basic .long)]⟩ "p==2"
        (.object [("p", .number (.float ⟨false, 5629499534213120, -51⟩))]) = some false ∧
      Compiler.standard.answer? .lenient ⟨"E", [("p", .basic .long)]⟩ "p!=2"
        (.object [("p", .number (.float ⟨false, 5629499534213120, -51⟩))]) = some true) ∧
    Compiler.standard.answer? .lenient ⟨"E", [("p", .basic .long)]⟩ "p==20000000000000000"
        (.object [("p", .number (.float ⟨false, 5000000000000000, 2⟩))]) = some true ∧
      Compiler.standard.answer? .lenient ⟨"E", [("p", .basic .long)]⟩ "p!=20000000000000000"
        (.object [("p", .number (.float ⟨false, 5000000000000000, 2⟩))]) = some false := by
  have hstores : ∀ n : Json.Number, Entity.Stores ⟨"E", [("p", .basic .long)]⟩
      (.object [("p", .number n)]) "p" ⟨[⟨"p", none⟩], .long⟩ (.number n) := by
    intro n
    refine Entity.stores_basic (by decide) (by decide) rfl rfl ?_
    intro hnull
    cases hnull
  have hhalf : Json.Number.value (.float ⟨false, 5629499534213120, -51⟩) = 25 / 10 := by
    have hshortest : Binary64.shortest ⟨false, 5629499534213120, -51⟩ = ⟨25, -1⟩ := by
      decide +kernel
    show ShortDecimal.value (Binary64.shortest _) = _
    rw [hshortest]
    norm_num [ShortDecimal.value]
  have hwhole : Json.Number.value (.float ⟨false, 5000000000000000, 2⟩) = 20000000000000000 := by
    have hshortest : Binary64.shortest ⟨false, 5000000000000000, 2⟩ = ⟨2, 16⟩ := by
      decide +kernel
    show ShortDecimal.value (Binary64.shortest _) = _
    rw [hshortest]
    norm_num [ShortDecimal.value]
  have htwo : Width.long.type.coerce "2" Compiler.standard.dateFormat = .ok (.int .long 2) := rfl
  have hgreat : Width.long.type.coerce "20000000000000000" Compiler.standard.dateFormat =
      .ok (.int .long 20000000000000000) := rfl
  constructor
  · obtain ⟨hequal, hnotEqual⟩ :=
      (stored_numbers_decided .lenient .standard _ _ "p" _ .long _ (hstores _) rfl).2 _ _ htwo
    have hne : ¬ Json.Number.value (.float ⟨false, 5629499534213120, -51⟩) = (2 : Int) := by
      rw [hhalf]
      norm_num
    have hread : Decimal.Holds (Json.Number.value (.float ⟨false, 5629499534213120, -51⟩)) := by
      rw [hhalf]
      norm_num [Decimal.Holds, Decimal.maxScale, Decimal.bound, twoTo]
    rw [decide_eq_false hne] at hequal
    rw [decide_eq_true ⟨hne, hread⟩] at hnotEqual
    exact ⟨hequal.parsed _ (toOption_eq_some_iff.mp (by decide +kernel)),
      hnotEqual.parsed _ (toOption_eq_some_iff.mp (by decide +kernel))⟩
  · obtain ⟨hequal, hnotEqual⟩ :=
      (stored_numbers_decided .lenient .standard _ _ "p" _ .long _ (hstores _) rfl).2 _ _ hgreat
    have heq : Json.Number.value (.float ⟨false, 5000000000000000, 2⟩) =
        (20000000000000000 : Int) := by
      rw [hwhole]
      norm_num
    rw [decide_eq_true heq] at hequal
    rw [decide_eq_false fun h => h.1 heq] at hnotEqual
    exact ⟨hequal.parsed _ (toOption_eq_some_iff.mp (by decide +kernel)),
      hnotEqual.parsed _ (toOption_eq_some_iff.mp (by decide +kernel))⟩

/-- A number beyond `2^96` and one that is nearer to zero than `10^(-28)` differ from five, and
match neither `==` nor `!=`. -/
theorem great_number_matches_neither :
    (Json.Number.value (.float ⟨false, 5684341886080801, 44⟩) ≠ 5 ∧
      Compiler.standard.answer? .lenient ⟨"E", [("p", .basic .integer)]⟩ "p==5"
        (.object [("p", .number (.float ⟨false, 5684341886080801, 44⟩))]) = some false ∧
      Compiler.standard.answer? .lenient ⟨"E", [("p", .basic .integer)]⟩ "p!=5"
        (.object [("p", .number (.float ⟨false, 5684341886080801, 44⟩))]) = some false) ∧
    Json.Number.value (.float ⟨false, 5708990770823840, -152⟩) ≠ 5 ∧
      Compiler.standard.answer? .lenient ⟨"E", [("p", .basic .integer)]⟩ "p==5"
        (.object [("p", .number (.float ⟨false, 5708990770823840, -152⟩))]) = some false ∧
      Compiler.standard.answer? .lenient ⟨"E", [("p", .basic .integer)]⟩ "p!=5"
        (.object [("p", .number (.float ⟨false, 5708990770823840, -152⟩))]) = some false := by
  have hgreat : Binary64.shortest ⟨false, 5684341886080801, 44⟩ = ⟨1, 29⟩ := by
    decide +kernel
  have hsmall : Binary64.shortest ⟨false, 5708990770823840, -152⟩ = ⟨1, -30⟩ := by
    decide +kernel
  refine ⟨⟨?_, by decide +kernel, by decide +kernel⟩, ?_, by decide +kernel, by decide +kernel⟩
  · show ShortDecimal.value (Binary64.shortest _) ≠ 5
    rw [hgreat]
    norm_num [ShortDecimal.value]
  · show ShortDecimal.value (Binary64.shortest _) ≠ 5
    rw [hsmall]
    norm_num [ShortDecimal.value]

end RecordFilter
