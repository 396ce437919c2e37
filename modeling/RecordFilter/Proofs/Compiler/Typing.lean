/-
# `Proofs.Compiler.Typing` — compiled predicates are well typed

Running a filter asks no questions: a condition that compares a value with an argument
of another type is unknown, and nobody is told.  So it has to be known of the compiler
that it makes no such condition.  `Condition.WellTyped path` says which conditions may
be asked of a path, in terms of its type alone, and of whether it is a collection; no
operator is mentioned.

    an argument is turned into a value of its type      (`ValueType.hasType_of_coerce`)
    an operator asks for a well-typed condition         (`Predicate.Asks.tests_eq`)
    a tree compiles to the tests of its comparisons, each in its place
                                                        (`compiled_tests_wellTyped`)

The tree need not be one that a text can give: its groups may be empty, its comparisons
may have any number of arguments, and its selectors may be any text.
-/
import Mathlib.Data.List.Forall2
import RecordFilter.Proofs.Compiler.Paths
import RecordFilter.Proofs.Predicate.Through

namespace RecordFilter

/-! ## Values and their types -/

/-- The type whose arguments are integers of a size. -/
def Width.type : Width → ValueType
  | byte => .byte
  | integer => .integer
  | long => .long

/-- The types whose arguments stay texts. -/
def ValueType.IsText (type : ValueType) : Prop :=
  type = .string ∨ type = .list ∨ type = .entity ∨ type = .other

/-- The types whose values are ordered by the calendar. -/
def ValueType.IsDate (type : ValueType) : Prop :=
  type = .date ∨ type = .dateTime

/-- `v.HasType type`: an argument of a property of this type may be turned into `v`.  Nothing
is turned into null. -/
inductive Value.HasType : Value → ValueType → Prop
  | int {w : Width} {n : Int} : w.holds n = true → HasType (.int w n) w.type
  | boolean (b : Bool) : HasType (.boolean b) .boolean
  | date (d : Date) : HasType (.date d) .date
  | dateTime (m : DateTime) : HasType (.dateTime m) .dateTime
  | text {type : ValueType} (s : String) : type.IsText → HasType (.text s) type

namespace Value.HasType

variable {v : Value} {type : ValueType}

theorem isText_iff (h : v.HasType type) : type.IsText ↔ ∃ s, v = .text s := by
  cases h with
  | @int w n _ => cases w <;> simp [ValueType.IsText, Width.type]
  | text s htext => exact ⟨fun _ => ⟨s, rfl⟩, fun _ => htext⟩
  | _ => simp [ValueType.IsText]

theorem isDate_iff (h : v.HasType type) :
    type.IsDate ↔ (∃ d, v = .date d) ∨ ∃ m, v = .dateTime m := by
  cases h with
  | @int w n _ => cases w <;> simp [ValueType.IsDate, Width.type]
  | text s htext => rcases htext with rfl | rfl | rfl | rfl <;> simp [ValueType.IsDate]
  | _ => simp [ValueType.IsDate]

end Value.HasType

/-! ### Reading arguments -/

theorem Width.holds_of_readInteger {w : Width} {negative : Bool} {text : List Char} {n m : Int}
    (hn : w.holds n = true) (h : w.readInteger negative n text = .ok m) : w.holds m = true := by
  induction text generalizing n with
  | nil =>
      cases h
      exact hn
  | cons c rest ih =>
      rw [readInteger] at h
      split at h
      · cases h
      · dsimp only at h
        generalize (if negative = true then n * 10 - ((c.toNat - '0'.toNat : Nat) : Int)
          else n * 10 + ((c.toNat - '0'.toNat : Nat) : Int)) = next at h
        split at h
        · cases h
        · next hleast =>
            split at h
            · cases h
            · next hgreatest =>
                refine ih ?_ h
                rw [holds, Bool.and_eq_true, decide_eq_true_eq, decide_eq_true_eq]
                exact ⟨Int.not_lt.mp hleast, Int.not_lt.mp hgreatest⟩

@[simp]
theorem Width.holds_zero (w : Width) : w.holds 0 = true := by
  cases w <;> decide

theorem Width.holds_of_integerOfText {w : Width} {text : List Char} {n : Int}
    (h : w.integerOfText text = .ok n) : w.holds n = true := by
  unfold integerOfText at h
  split at h
  · cases h
  · cases h
  · cases h
  · exact holds_of_readInteger w.holds_zero h
  · exact holds_of_readInteger w.holds_zero h
  · exact holds_of_readInteger w.holds_zero h

/-- **An argument is turned into a value of its type.** -/
theorem ValueType.hasType_of_coerce {type : ValueType} {argument : String} {format : DateFormat}
    {v : Value} (h : type.coerce argument format = .ok v) : v.HasType type := by
  cases type with
  | integer =>
      simp only [coerce] at h
      split at h <;> cases h
      next hn => exact .int (Width.holds_of_integerOfText hn)
  | long =>
      simp only [coerce] at h
      split at h <;> cases h
      next hn => exact .int (Width.holds_of_integerOfText hn)
  | byte =>
      simp only [coerce] at h
      split at h <;> cases h
      next hn => exact .int (Width.holds_of_integerOfText hn)
  | boolean => cases h; exact .boolean _
  | date =>
      simp only [coerce] at h
      split at h <;> cases h
      exact .date _
  | dateTime =>
      simp only [coerce] at h
      split at h <;> cases h
      exact .dateTime _
  | string => cases h; exact .text _ (.inl rfl)
  | list => cases h; exact .text _ (.inr (.inl rfl))
  | entity => cases h; exact .text _ (.inr (.inr (.inl rfl)))
  | other => cases h; exact .text _ (.inr (.inr (.inr rfl)))

/-- The values are what the arguments are turned into, one by one and in order. -/
def ValueType.Reads (type : ValueType) (format : DateFormat) (arguments : List String)
    (values : List Value) : Prop :=
  List.Forall₂ (fun argument v => type.coerce argument format = .ok v) arguments values

theorem ValueType.Reads.hasType {type : ValueType} {format : DateFormat}
    {arguments : List String} {values : List Value} (h : type.Reads format arguments values) :
    ∀ v ∈ values, v.HasType type := by
  induction h with
  | nil => exact fun v hv => nomatch hv
  | cons hv _ ih => exact List.forall_mem_cons.mpr ⟨hasType_of_coerce hv, ih⟩

theorem ValueType.reads_of_coerceList {type : ValueType} {format : DateFormat}
    {arguments : List String} :
    ∀ {values : List Value}, type.coerceList format arguments = .ok values →
      type.Reads format arguments values := by
  induction arguments with
  | nil =>
      intro values h
      cases h
      exact .nil
  | cons argument arguments ih =>
      intro values h
      rw [coerceList] at h
      split at h
      · cases h
      · next v hv =>
          obtain ⟨rest, hrest, rfl⟩ := map_eq_ok_iff.mp h
          exact .cons hv (ih hrest)

/-! ## Conditions and their paths -/

/-- The conditions that may be asked of a path: values of its type where values are
compared, patterns where its values are texts, and elements where it has any. -/
inductive Condition.WellTyped (path : ResolvedPath) : Condition → Prop
  | isNull : WellTyped path .isNull
  | isNotNull : WellTyped path .isNotNull
  | isEmpty : path.isCollection = true → WellTyped path .isEmpty
  | isNotEmpty : path.isCollection = true → WellTyped path .isNotEmpty
  | equal {v : Value} : v.HasType path.type → ¬ path.type.IsText → WellTyped path (.equal v)
  | notEqual {v : Value} :
      v.HasType path.type → ¬ path.type.IsText → WellTyped path (.notEqual v)
  | like (pattern : String) :
      path.type.IsText → path.type ≠ .list → WellTyped path (.like pattern false)
  | notLike (pattern : String) : path.type.IsText → WellTyped path (.like pattern true)
  | joinedLike (pattern : String) : path.type = .list → WellTyped path (.joinedLike pattern)
  | compare {v : Value} (relation : Relation) :
      v.HasType path.type → path.type.IsDate → WellTyped path (.compare relation v)
  | compareText (relation : Relation) (text : String) :
      ¬ path.type.IsDate → WellTyped path (.compareText relation text)
  | isIn {values : List Value} :
      values ≠ [] → (∀ v ∈ values, v.HasType path.type) → WellTyped path (.isIn values)

namespace Condition

variable {path : ResolvedPath} {v : Value}

theorem wellTyped_equalTo (h : v.HasType path.type) : (equalTo path.type v).WellTyped path := by
  unfold equalTo
  split
  · next hlist => exact .joinedLike _ hlist
  · next hlist =>
      have hvalue := h.isText_iff
      cases v with
      | null => cases h
      | text s => exact .like _ (hvalue.mpr ⟨s, rfl⟩) hlist
      | _ => exact .equal h fun htext => nomatch hvalue.mp htext

theorem wellTyped_notEqualTo (h : v.HasType path.type) : (notEqualTo v).WellTyped path := by
  have hvalue := h.isText_iff
  cases v with
  | null => cases h
  | text s => exact .notLike _ (hvalue.mpr ⟨s, rfl⟩)
  | _ => exact .notEqual h fun htext => nomatch hvalue.mp htext

theorem wellTyped_ordered (relation : Relation) (h : v.HasType path.type) :
    (ordered relation v).WellTyped path := by
  have hvalue := h.isDate_iff
  cases v with
  | date d => exact .compare _ h (hvalue.mpr (.inl ⟨d, rfl⟩))
  | dateTime m => exact .compare _ h (hvalue.mpr (.inr ⟨m, rfl⟩))
  | _ => exact .compareText _ _ fun hdate => by simpa using hvalue.mp hdate

theorem equalTo_ne_isIn (type : ValueType) (v : Value) (values : List Value) :
    equalTo type v ≠ .isIn values := by
  unfold equalTo
  split
  · nofun
  · cases v <;> nofun

theorem notEqualTo_ne_isIn (v : Value) (values : List Value) : notEqualTo v ≠ .isIn values := by
  cases v <;> nofun

theorem ordered_ne_isIn (relation : Relation) (v : Value) (values : List Value) :
    ordered relation v ≠ .isIn values := by
  cases v <;> nofun

end Condition

/-! ## Comparisons and their tests -/

mutual

/-- The conditions that a predicate asks for, each with its path, from left to right. -/
def Predicate.tests : Predicate → List (ResolvedPath × Condition)
  | .all operands => Predicate.testsList operands
  | .any operands => Predicate.testsList operands
  | .not operand => operand.tests
  | .test path condition => [(path, condition)]

def Predicate.testsList : List Predicate → List (ResolvedPath × Condition)
  | [] => []
  | operand :: operands => operand.tests ++ Predicate.testsList operands

end

theorem Predicate.mem_testsList {operands : List Predicate} {test : ResolvedPath × Condition} :
    test ∈ testsList operands ↔ ∃ operand ∈ operands, test ∈ operand.tests := by
  induction operands with
  | nil =>
      constructor
      · intro h
        cases h
      · rintro ⟨_, h, _⟩
        cases h
  | cons operand operands ih =>
      simp only [testsList, List.mem_append, ih, List.mem_cons, exists_eq_or_imp]

mutual

@[simp]
theorem Predicate.map_fst_tests : ∀ p : Predicate, p.tests.map Prod.fst = p.paths
  | .all operands => Predicate.map_fst_testsList operands
  | .any operands => Predicate.map_fst_testsList operands
  | .not operand => Predicate.map_fst_tests operand
  | .test _ _ => rfl

theorem Predicate.map_fst_testsList : ∀ operands : List Predicate,
    (Predicate.testsList operands).map Prod.fst = Predicate.pathsList operands
  | [] => rfl
  | operand :: operands => by
      rw [Predicate.testsList, Predicate.pathsList, List.map_append,
        Predicate.map_fst_tests operand, Predicate.map_fst_testsList operands]

end

mutual

/-- The comparisons of an expression, from left to right. -/
def Node.clauses : Node → List Comparison
  | .all children => Node.clausesList children
  | .any children => Node.clausesList children
  | .comparison clause => [clause]

def Node.clausesList : List Node → List Comparison
  | [] => []
  | child :: children => child.clauses ++ Node.clausesList children

end

/-- The operators whose arguments are values of the property's type. -/
def Operator.TakesValues : Operator → Prop
  | .isNull | .isEmpty => False
  | _ => True

theorem Operator.takesValues_iff {operator : Operator} :
    operator.TakesValues ↔ operator ≠ .isNull ∧ operator ≠ .isEmpty := by
  cases operator <;> simp [TakesValues]

/-- What a comparison may ask for: a well-typed condition on the path that its selector
resolves to.  Where it asks for one of several values, these are its arguments, turned
into values one by one and in order. -/
structure Comparison.AsksFor (c : Compiler) (e : Entity) (clause : Comparison)
    (test : ResolvedPath × Condition) : Prop where
  property : test.1.property = clause.selector
  resolve : e.resolve test.1.property = .ok test.1
  wellTyped : test.2.WellTyped test.1
  values : ∀ values, test.2 = .isIn values →
    test.1.type.Reads c.dateFormat clause.arguments values

/-- A condition that an operator may ask of a path: where it asks for one of several values,
these are the operator's. -/
structure Condition.AskedBy (path : ResolvedPath) (operator : Operator) (values : List Value)
    (condition : Condition) : Prop where
  wellTyped : condition.WellTyped path
  values : ∀ values', condition = .isIn values' → operator.TakesValues ∧ values' = values

theorem Condition.WellTyped.askedBy {path : ResolvedPath} {operator : Operator}
    {values : List Value} {condition : Condition} (h : condition.WellTyped path)
    (hne : ∀ values, condition ≠ .isIn values) : condition.AskedBy path operator values :=
  ⟨h, fun values' heq => absurd heq (hne values')⟩

/-- **An operator asks for one well-typed condition.** -/
theorem Predicate.Asks.tests_eq {path : ResolvedPath} {first : Value} {rest : List Value}
    {operator : Operator} {p : Predicate} (h : Asks path first (first :: rest) operator p)
    (hvalues : operator.TakesValues → ∀ v ∈ first :: rest, v.HasType path.type) :
    ∃ condition, p.tests = [(path, condition)] ∧
      condition.AskedBy path operator (first :: rest) := by
  have hfirst : operator.TakesValues → first.HasType path.type :=
    fun hop => hvalues hop first List.mem_cons_self
  have hordered : ∀ relation, operator.TakesValues →
      (Condition.ordered relation first).AskedBy path operator (first :: rest) :=
    fun relation hop => (Condition.wellTyped_ordered relation (hfirst hop)).askedBy
      (Condition.ordered_ne_isIn relation first)
  have hmembers : operator.TakesValues →
      (Condition.isIn (first :: rest)).AskedBy path operator (first :: rest) :=
    fun hop => ⟨.isIn (List.cons_ne_nil _ _) (hvalues hop),
      fun values heq => ⟨hop, (Condition.isIn.inj heq).symm⟩⟩
  cases h with
  | equal =>
      exact ⟨_, rfl, (Condition.wellTyped_equalTo (hfirst trivial)).askedBy
        (Condition.equalTo_ne_isIn path.type first)⟩
  | notEqual =>
      exact ⟨_, rfl, (Condition.wellTyped_notEqualTo (hfirst trivial)).askedBy
        (Condition.notEqualTo_ne_isIn first)⟩
  | greaterThan => exact ⟨_, rfl, hordered _ trivial⟩
  | greaterOrEqual => exact ⟨_, rfl, hordered _ trivial⟩
  | lessThan => exact ⟨_, rfl, hordered _ trivial⟩
  | lessOrEqual => exact ⟨_, rfl, hordered _ trivial⟩
  | isIn => exact ⟨_, rfl, hmembers trivial⟩
  | isNotIn => exact ⟨_, rfl, hmembers trivial⟩
  | isNull _ => exact ⟨_, rfl, Condition.WellTyped.isNull.askedBy fun _ h => by cases h⟩
  | isNotNull _ => exact ⟨_, rfl, Condition.WellTyped.isNotNull.askedBy fun _ h => by cases h⟩
  | isEmpty hcollection _ =>
      exact ⟨_, rfl, (Condition.WellTyped.isEmpty hcollection).askedBy fun _ h => by cases h⟩
  | isNotEmpty hcollection _ =>
      exact ⟨_, rfl, (Condition.WellTyped.isNotEmpty hcollection).askedBy fun _ h => by cases h⟩

/-! ## Whole expressions -/

theorem ValueType.coerceArguments_eq {operator : Operator} (h : operator.TakesValues)
    (type : ValueType) (arguments : List String) (format : DateFormat) :
    type.coerceArguments operator arguments format = type.coerceList format arguments := by
  cases operator with
  | isNull => cases h
  | isEmpty => cases h
  | _ => rfl

theorem ValueType.reads_of_coerceArguments {type : ValueType} {operator : Operator}
    {arguments : List String} {format : DateFormat} {values : List Value}
    (h : type.coerceArguments operator arguments format = .ok values)
    (hop : operator.TakesValues) : type.Reads format arguments values := by
  rw [coerceArguments_eq hop] at h
  exact reads_of_coerceList h

namespace Compiler

variable {c : Compiler} {e : Entity}

/-- A comparison is compiled to one test, and may ask for it. -/
theorem asksFor_of_compileComparison {clause : Comparison} {p : Predicate}
    (h : c.compileComparison e clause = .ok p) :
    ∃ test, p.tests = [test] ∧ clause.AsksFor c e test := by
  obtain ⟨path, first, rest, hpath, hvalues, hask⟩ := asks_of_compileComparison h
  have hreads := ValueType.reads_of_coerceArguments hvalues
  obtain ⟨condition, htests, hasked⟩ := hask.tests_eq fun hop => (hreads hop).hasType
  have hproperty := Entity.property_of_resolve hpath
  refine ⟨_, htests, hproperty, hproperty.symm ▸ hpath, hasked.wellTyped, ?_⟩
  rintro values heq
  obtain ⟨hop, rfl⟩ := hasked.values values heq
  exact hreads hop

mutual

theorem asksFor_of_compileNode : ∀ {n : Node} {p : Predicate}, c.compileNode e n = .ok p →
    List.Forall₂ (Comparison.AsksFor c e) n.clauses p.tests
  | .all children, p, h => by
      rw [compileNode, map_eq_ok_iff] at h
      obtain ⟨operands, hchildren, rfl⟩ := h
      exact asksFor_of_compileNodes hchildren
  | .any children, p, h => by
      rw [compileNode, map_eq_ok_iff] at h
      obtain ⟨operands, hchildren, rfl⟩ := h
      exact asksFor_of_compileNodes hchildren
  | .comparison clause, p, h => by
      obtain ⟨test, htests, hasks⟩ := asksFor_of_compileComparison h
      rw [htests]
      exact .cons hasks .nil

theorem asksFor_of_compileNodes : ∀ {children : List Node} {ps : List Predicate},
    c.compileNodes e children = .ok ps →
    List.Forall₂ (Comparison.AsksFor c e) (Node.clausesList children) (Predicate.testsList ps)
  | [], ps, h => by
      cases h
      exact .nil
  | child :: children, ps, h => by
      obtain ⟨operand, operands, hchild, hchildren, rfl⟩ := compileNodes_cons_ok h
      exact List.rel_append (asksFor_of_compileNode hchild) (asksFor_of_compileNodes hchildren)

end

end Compiler

/-- **Compiled predicates are well typed.**  Whatever tree compiles, each path of the
predicate is the one that its own text resolves to, and each condition is one that may be
asked of its path.  The conditions are those of the comparisons, each in its place, and
where one asks for one of several values, these are the arguments of its comparison,
turned into values of the path's type one by one and in order. -/
theorem compiled_tests_wellTyped (c : Compiler) (e : Entity) (n : Node) (p : Predicate)
    (h : c.compileNode e n = .ok p) :
    (∀ path ∈ p.paths, e.resolve path.property = .ok path) ∧
    (∀ test ∈ p.tests, test.2.WellTyped test.1) ∧
    List.Forall₂ (fun clause test => test.1.property = clause.selector ∧
      ∀ values, test.2 = .isIn values →
        test.1.type.Reads c.dateFormat clause.arguments values) n.clauses p.tests := by
  have hasks := Compiler.asksFor_of_compileNode h
  have hall : ∀ test ∈ p.tests,
      e.resolve test.1.property = .ok test.1 ∧ test.2.WellTyped test.1 :=
    ((List.forall₂_and_left _ _).mp
      (hasks.flip.imp fun _ _ hclause => ⟨⟨hclause.resolve, hclause.wellTyped⟩, hclause⟩)).1
  refine ⟨fun path hpath => ?_, fun test htest => (hall test htest).2, ?_⟩
  · rw [← Predicate.map_fst_tests] at hpath
    obtain ⟨test, htest, rfl⟩ := List.mem_map.mp hpath
    exact (hall test htest).1
  · exact hasks.imp fun clause test hclause => ⟨hclause.property, hclause.values⟩

/-- An empty group, which no text gives, and the least byte among the arguments. -/
theorem compiled_tests_wellTyped_bytes :
    Compiler.standard.compileNode ⟨"E", [("level", .basic .byte), ("tags", .basic .list)]⟩
        (.all [.any [], .comparison ⟨"level", .isNotIn, ["7", "-128"]⟩,
          .comparison ⟨"tags", .notEqual, ["a*"]⟩]) =
      .ok (.all [.any [],
        .not (.test ⟨[⟨"level", none⟩], .byte⟩ (.isIn [.int .byte 7, .int .byte (-128)])),
        .test ⟨[⟨"tags", none⟩], .list⟩ (.like "a%" true)]) ∧
      (Condition.isIn [.int .byte 7, .int .byte (-128)]).WellTyped ⟨[⟨"level", none⟩], .byte⟩ ∧
      (Condition.like "a%" true).WellTyped ⟨[⟨"tags", none⟩], .list⟩ := by
  have hcompile : Compiler.standard.compileNode
      ⟨"E", [("level", .basic .byte), ("tags", .basic .list)]⟩
        (.all [.any [], .comparison ⟨"level", .isNotIn, ["7", "-128"]⟩,
          .comparison ⟨"tags", .notEqual, ["a*"]⟩]) =
      .ok (.all [.any [],
        .not (.test ⟨[⟨"level", none⟩], .byte⟩ (.isIn [.int .byte 7, .int .byte (-128)])),
        .test ⟨[⟨"tags", none⟩], .list⟩ (.like "a%" true)]) := by
    rfl
  have htests := (compiled_tests_wellTyped _ _ _ _ hcompile).2.1
  exact ⟨hcompile, htests _ List.mem_cons_self,
    htests _ (List.mem_cons_of_mem _ List.mem_cons_self)⟩

end RecordFilter
