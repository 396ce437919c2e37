/-
# `Proofs.Evaluation.Integers` — integers compare exactly

A stored integer goes to the comparison through its text, which is read as a decimal of
96 bits; an argument goes there through a reader of integers of its own, which knows the
size of the property.  Both ends keep the integer (`Json.compareTo_integer`,
`Width.coerce_eq_ok_iff`), so a comparison says of the two texts what is true of the two
integers.

    what a stored value says of one integer                    (`says_equal_int`)
    what it says of several                                    (`isOneOf_integers`)
-/
import RecordFilter.Proofs.Evaluation.Complement
import RecordFilter.Proofs.Value.Integer

namespace RecordFilter

theorem Width.type_not_isText (w : Width) : ¬ w.type.IsText := by
  cases w <;> simp [Width.type, ValueType.IsText]

theorem Json.isOneOf_integers {s : Int} (h : s.natAbs < Decimal.bound) (w : Width)
    (ns : List Int) :
    (Json.number (.integer s)).isOneOf (ns.map (.int w)) = some (decide (s ∈ ns)) := by
  induction ns with
  | nil => rfl
  | cons n ns ih =>
      rw [List.map_cons, isOneOf, compareTo_integer h, ih]
      have hmem : s ∈ n :: ns ↔ s = n ∨ s ∈ ns := List.mem_cons
      cases hcompare : (Ord.compare s n : Ordering) with
      | eq =>
          have heq : s = n := Int.compare_eq_eq.mp hcompare
          exact congrArg some (decide_eq_true (hmem.mpr (.inl heq))).symm
      | lt =>
          have hne : s ≠ n := Int.ne_of_lt (Int.compare_eq_lt.mp hcompare)
          exact congrArg some (decide_eq_decide.mpr (hmem.trans (or_iff_right hne)).symm)
      | gt =>
          have hne : s ≠ n := Int.ne_of_gt (Int.compare_eq_gt.mp hcompare)
          exact congrArg some (decide_eq_decide.mpr (hmem.trans (or_iff_right hne)).symm)

namespace Compiler

variable {engine : PatternEngine} {c : Compiler} {e : Entity} {record stored : Json}
  {selector argument : String} {path : ResolvedPath} {w : Width} {n : Int}

theorem says_equal_int (engine : PatternEngine) (hstores : e.Stores record selector path stored)
    (htype : path.type = w.type) (hargument : w.Denotes argument n) :
    c.Says engine e (.comparison ⟨selector, .equal, [argument]⟩) record
      ((stored.compareTo (.int w n)).map (· == .eq) == some true) := by
  have hvalues := Width.coerceList_of_denotes (.cons hargument .nil) c.dateFormat
  rw [← htype] at hvalues
  have hcompile := compileComparison_of_values (c := c) ⟨selector, .equal, [argument]⟩
    hstores.resolve trivial hvalues
  have hvalue : (Value.int w n).HasType path.type := htype ▸ .int hargument.2
  simp only [Predicate.ofOperator, hvalue.equalTo (htype ▸ w.type_not_isText)] at hcompile
  exact says_test hstores hcompile (Predicate.runs_of_patterns_nil engine rfl) fun _ _ => rfl

theorem says_notEqual_int (engine : PatternEngine) (hstores : e.Stores record selector path stored)
    (htype : path.type = w.type) (hargument : w.Denotes argument n) :
    c.Says engine e (.comparison ⟨selector, .notEqual, [argument]⟩) record
      ((stored.compareTo (.int w n)).map (· != .eq) == some true) := by
  have hvalues := Width.coerceList_of_denotes (.cons hargument .nil) c.dateFormat
  rw [← htype] at hvalues
  have hcompile := compileComparison_of_values (c := c) ⟨selector, .notEqual, [argument]⟩
    hstores.resolve trivial hvalues
  have hvalue : (Value.int w n).HasType path.type := htype ▸ .int hargument.2
  simp only [Predicate.ofOperator, hvalue.notEqualTo (htype ▸ w.type_not_isText)] at hcompile
  exact says_test hstores hcompile (Predicate.runs_of_patterns_nil engine rfl) fun _ _ => rfl

end Compiler

/-- **Integers compare exactly.**  Let a record store an integer of 64 bits, with a sign or
without, at a property of integers of any size.  An argument that denotes an integer of the
size is equal to it if the two integers are, and unequal if they are not; and the stored
integer is one of several arguments, or none of them, if it is so of the integers that they
denote. -/
theorem integers_compare_exactly (engine : PatternEngine) (c : Compiler) (e : Entity)
    (record : Json) (selector : String) (path : ResolvedPath) (w : Width) (s : Int)
    (hstores : e.Stores record selector path (.number (.integer s)))
    (htype : path.type = w.type) (hleast : -(twoTo 63 : Int) ≤ s)
    (hgreatest : s < (twoTo 64 : Int)) :
    (∀ (argument : String) (n : Int), w.Denotes argument n →
      c.Says engine e (.comparison ⟨selector, .equal, [argument]⟩) record (decide (s = n)) ∧
      c.Says engine e (.comparison ⟨selector, .notEqual, [argument]⟩) record (decide (s ≠ n))) ∧
    ∀ (arguments : List String) (ns : List Int), arguments ≠ [] →
      List.Forall₂ w.Denotes arguments ns →
      c.Says engine e (.comparison ⟨selector, .isIn, arguments⟩) record (decide (s ∈ ns)) ∧
      c.Says engine e (.comparison ⟨selector, .isNotIn, arguments⟩) record (decide (s ∉ ns)) := by
  have hfits : s.natAbs < Decimal.bound := by
    have hbound : Decimal.bound = 79228162514264337593543950336 := rfl
    have hword : twoTo 63 = 9223372036854775808 := rfl
    have hword' : twoTo 64 = 18446744073709551616 := rfl
    omega
  constructor
  · intro argument n hargument
    have hequal := Compiler.says_equal_int (c := c) engine hstores htype hargument
    have hnotEqual := Compiler.says_notEqual_int (c := c) engine hstores htype hargument
    rw [Json.compareTo_integer hfits, Option.map_some, Compiler.some_eq_true] at hequal hnotEqual
    have heq : (Ord.compare s n == .eq) = decide (s = n) := by
      rw [Bool.eq_iff_iff, beq_iff_eq, decide_eq_true_eq]
      exact Int.compare_eq_eq
    have hne : (Ord.compare s n != .eq) = decide (s ≠ n) := by
      rw [bne, heq, decide_not]
    rw [heq] at hequal
    rw [hne] at hnotEqual
    exact ⟨hequal, hnotEqual⟩
  · intro arguments ns hne hdenote
    obtain ⟨argument, others, rfl⟩ := List.exists_cons_of_ne_nil hne
    have hvalues := Width.coerceList_of_denotes hdenote c.dateFormat
    rw [← htype] at hvalues
    have hmembers := Compiler.says_isIn (c := c) engine hstores hvalues
      (Json.isOneOf_integers hfits w ns)
    rw [Compiler.some_eq_true, Compiler.some_eq_false, ← decide_not] at hmembers
    exact hmembers

/-- Two neighbours that floating-point numbers do not tell apart, behind a plus sign and
zeros, and the greatest number of 64 bits, which no signed one of them is. -/
theorem integers_compare_exactly_neighbours :
    Compiler.standard.answer? .lenient ⟨"E", [("id", .basic .long)]⟩ "id==+009007199254740993"
        (.object [("id", .number (.integer 9007199254740993))]) = some true ∧
      Compiler.standard.answer? .lenient ⟨"E", [("id", .basic .long)]⟩ "id==9007199254740992"
        (.object [("id", .number (.integer 9007199254740993))]) = some false ∧
      Compiler.standard.answer? .lenient ⟨"E", [("id", .basic .long)]⟩
        "id=out=(-1,9223372036854775807)"
        (.object [("id", .number (.integer 18446744073709551615))]) = some true := by
  have hstores : ∀ k : Int, Entity.Stores ⟨"E", [("id", .basic .long)]⟩
      (.object [("id", .number (.integer k))]) "id" ⟨[⟨"id", none⟩], .long⟩
      (.number (.integer k)) := by
    intro k
    refine Entity.stores_basic (by decide) (by decide) rfl rfl ?_
    intro hnull
    cases hnull
  have hplus : Width.long.Denotes "+009007199254740993" 9007199254740993 :=
    Width.integerOfText_eq_ok_iff.mp rfl
  have hbelow : Width.long.Denotes "9007199254740992" 9007199254740992 :=
    Width.integerOfText_eq_ok_iff.mp rfl
  have hminus : Width.long.Denotes "-1" (-1) :=
    Width.integerOfText_eq_ok_iff.mp rfl
  have hgreatest : Width.long.Denotes "9223372036854775807" 9223372036854775807 :=
    Width.integerOfText_eq_ok_iff.mp rfl
  refine ⟨?_, ?_, ?_⟩
  · have h := ((integers_compare_exactly .lenient .standard _ _ "id" _ .long 9007199254740993
      (hstores _) rfl (by decide) (by decide)).1 _ _ hplus).1
    exact h.parsed _ (toOption_eq_some_iff.mp (by decide +kernel))
  · have h := ((integers_compare_exactly .lenient .standard _ _ "id" _ .long 9007199254740993
      (hstores _) rfl (by decide) (by decide)).1 _ _ hbelow).1
    exact h.parsed _ (toOption_eq_some_iff.mp (by decide +kernel))
  · have h := ((integers_compare_exactly .lenient .standard _ _ "id" _ .long 18446744073709551615
      (hstores _) rfl (by decide) (by decide)).2 _ _ (List.cons_ne_nil _ _)
      (.cons hminus (.cons hgreatest .nil))).2
    exact h.parsed _ (toOption_eq_some_iff.mp (by decide +kernel))

end RecordFilter
