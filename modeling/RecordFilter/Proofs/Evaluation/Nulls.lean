/-
# `Proofs.Evaluation.Nulls` — nulls never flip an answer

Unknown is the lack of an answer.  A condition on a value has none where there is no
value, and the connectives are monotone in the order in which unknown lies below both
answers (`Truth.Kept`).  So an answer was given without the values that are missing, and
it stands whatever these turn out to be:

    conditions on a value have no answer without one      (`Condition.AsksValue.eval_none`)
    answers stand when values are filled in               (`Predicate.eval_kept`)
    without any value there is no answer at all           (`Predicate.Populated.eval_unknown`)

The last one wants an operand in every connective, since the empty ones are true and false
by themselves.  Expressions that can be written have two (`Node.WellFormed`), and what
their paths read begins with an attribute of the record.  Where none of these is there, no
row of the record has a value for any path (`Entity.reachFrom_eq_none`), whatever is joined.
-/
import RecordFilter.Proofs.Compiler.Filters
import RecordFilter.Proofs.Compiler.Leaves
import RecordFilter.Proofs.Evaluation.Comparison
import RecordFilter.Proofs.Evaluation.Kleene

namespace RecordFilter

/-! ## Conditions on a value -/

/-- The conditions on a value.  The others ask whether there is one, or any element of
it. -/
def Condition.AsksValue : Condition → Prop
  | .isNull | .isNotNull | .isEmpty | .isNotEmpty => False
  | _ => True

namespace Condition

variable {type : ValueType} {v : Value}

theorem asksValue_equalTo (h : v.HasType type) : (equalTo type v).AsksValue := by
  unfold equalTo
  split
  · trivial
  · cases h <;> trivial

theorem asksValue_notEqualTo (h : v.HasType type) : (notEqualTo v).AsksValue := by
  cases h <;> trivial

theorem asksValue_ordered (relation : Relation) (v : Value) : (ordered relation v).AsksValue := by
  cases v <;> trivial

end Condition

/-- **An operator asks for a value, unless it takes a flag.** -/
theorem Predicate.Asks.asksValue {path : ResolvedPath} {first : Value} {values : List Value}
    {op : Operator} {p : Predicate} (h : Asks path first values op p) (hop : op.TakesValues)
    (hfirst : first.HasType path.type) : ∀ test ∈ p.tests, test.2.AsksValue := by
  cases h with
  | equal => exact List.forall_mem_singleton.mpr (Condition.asksValue_equalTo hfirst)
  | notEqual => exact List.forall_mem_singleton.mpr (Condition.asksValue_notEqualTo hfirst)
  | greaterThan => exact List.forall_mem_singleton.mpr (Condition.asksValue_ordered _ first)
  | greaterOrEqual => exact List.forall_mem_singleton.mpr (Condition.asksValue_ordered _ first)
  | lessThan => exact List.forall_mem_singleton.mpr (Condition.asksValue_ordered _ first)
  | lessOrEqual => exact List.forall_mem_singleton.mpr (Condition.asksValue_ordered _ first)
  | isIn => exact List.forall_mem_singleton.mpr trivial
  | isNotIn => exact List.forall_mem_singleton.mpr trivial
  | isNull _ => exact hop.elim
  | isNotNull _ => exact hop.elim
  | isEmpty _ _ => exact hop.elim
  | isNotEmpty _ _ => exact hop.elim

/-- **A condition on a value has no answer without one.** -/
theorem Condition.AsksValue.eval_none {condition : Condition} (h : condition.AsksValue)
    (table : PatternTable) : condition.eval table none = none := by
  cases condition with
  | isNull => exact h.elim
  | isNotNull => exact h.elim
  | isEmpty => exact h.elim
  | isNotEmpty => exact h.elim
  | _ => rfl

/-! ## Answers that stand -/

/-- Where there is an answer it stays; what was unknown may be anything. -/
def Truth.Kept (s t : Truth) : Prop :=
  ∀ answer, s = some answer → t = some answer

namespace Truth.Kept

theorem of_eq_none {s : Truth} (h : s = none) (t : Truth) : Kept s t := by
  intro answer hs
  rw [h] at hs
  cases hs

theorem not {s t : Truth} (h : Kept s t) : Kept (s.map (!·)) (t.map (!·)) := by
  intro answer hs
  obtain ⟨answer', hs', rfl⟩ := Option.map_eq_some_iff.mp hs
  rw [h answer' hs']
  rfl

end Truth.Kept

namespace Predicate

variable {table : PatternTable} {record record' : Json} {row row' : Row} {p : Predicate}
  {ps : List Predicate}

theorem evalAll_kept
    (h : ∀ p ∈ ps, Truth.Kept (p.eval table record row) (p.eval table record' row')) :
    Truth.Kept (evalAll table record row ps) (evalAll table record' row' ps) := by
  intro answer hs
  cases answer with
  | true =>
      rw [evalAll_eq_true_iff] at hs ⊢
      intro p hp
      exact h p hp true (hs p hp)
  | false =>
      rw [evalAll_eq_false_iff] at hs ⊢
      obtain ⟨p, hp, hfalse⟩ := hs
      exact ⟨p, hp, h p hp false hfalse⟩

theorem evalAny_kept
    (h : ∀ p ∈ ps, Truth.Kept (p.eval table record row) (p.eval table record' row')) :
    Truth.Kept (evalAny table record row ps) (evalAny table record' row' ps) := by
  intro answer hs
  cases answer with
  | true =>
      rw [evalAny_eq_true_iff] at hs ⊢
      obtain ⟨p, hp, htrue⟩ := hs
      exact ⟨p, hp, h p hp true htrue⟩
  | false =>
      rw [evalAny_eq_false_iff] at hs ⊢
      intro p hp
      exact h p hp false (hs p hp)

mutual

/-- **An answer stands when values are filled in.** -/
theorem eval_kept : ∀ p : Predicate, (∀ test ∈ p.tests, test.2.AsksValue) →
    (∀ path ∈ p.paths,
      path.read record row = none ∨ path.read record' row' = path.read record row) →
    Truth.Kept (p.eval table record row) (p.eval table record' row')
  | .all ps, hasks, hreads => evalAll_kept (eval_kept_of_mem ps hasks hreads)
  | .any ps, hasks, hreads => evalAny_kept (eval_kept_of_mem ps hasks hreads)
  | .not p, hasks, hreads => (eval_kept p hasks hreads).not
  | .test path condition, hasks, hreads => by
      rw [eval, eval]
      rcases hreads path List.mem_cons_self with hnone | hsame
      · rw [hnone]
        exact .of_eq_none ((hasks _ List.mem_cons_self).eval_none table) _
      · rw [hsame]
        intro answer h
        exact h

theorem eval_kept_of_mem : ∀ ps : List Predicate, (∀ test ∈ testsList ps, test.2.AsksValue) →
    (∀ path ∈ pathsList ps,
      path.read record row = none ∨ path.read record' row' = path.read record row) →
    ∀ p ∈ ps, Truth.Kept (p.eval table record row) (p.eval table record' row')
  | [], _, _ => List.forall_mem_nil _
  | p :: ps, hasks, hreads => by
      obtain ⟨hask, hasks⟩ := List.forall_mem_append.mp hasks
      obtain ⟨hread, hreads⟩ := List.forall_mem_append.mp hreads
      exact List.forall_mem_cons.mpr ⟨eval_kept p hask hread, eval_kept_of_mem ps hasks hreads⟩

end

/-! ## No answer at all -/

/-- **Without any value a predicate is unknown.** -/
theorem Populated.eval_unknown (h : p.Populated) (hasks : ∀ test ∈ p.tests, test.2.AsksValue)
    (hreads : ∀ path ∈ p.paths, path.read record row = none) :
    p.eval table record row = none := by
  have hmember : ∀ {ps : List Predicate}, (∀ test ∈ testsList ps, test.2.AsksValue) →
      (∀ path ∈ pathsList ps, path.read record row = none) → ∀ p ∈ ps,
      (∀ test ∈ p.tests, test.2.AsksValue) ∧ ∀ path ∈ p.paths, path.read record row = none := by
    intro ps hasks hreads p hp
    exact ⟨fun test htest => hasks test (mem_testsList.mpr ⟨p, hp, htest⟩),
      fun path hpath => hreads path (mem_pathsList.mpr ⟨p, hp, hpath⟩)⟩
  induction h with
  | all hne _ ih =>
      refine evalAll_of_unknown hne fun p hp => ?_
      obtain ⟨hask, hread⟩ := hmember hasks hreads p hp
      exact ih p hp hask hread
  | any hne _ ih =>
      refine evalAny_of_unknown hne fun p hp => ?_
      obtain ⟨hask, hread⟩ := hmember hasks hreads p hp
      exact ih p hp hask hread
  | not _ ih =>
      rw [eval, ih hasks hreads]
      rfl
  | test path condition =>
      rw [eval, hreads path List.mem_cons_self]
      exact (hasks _ List.mem_cons_self).eval_none table

end Predicate

/-! ## Records without the attributes of an expression -/

/-- The attributes of a record that an expression goes through first: the first names of
its selectors. -/
def Node.roots (n : Node) : List String :=
  n.clauses.filterMap fun clause => (Text.dotted clause.selector).head?

theorem Json.present?_eq_none_iff {found : Option Json} :
    present? found = none ↔ found = none ∨ found = some .null := by
  match found with
  | none => exact ⟨fun _ => .inl rfl, fun _ => rfl⟩
  | some .null => exact ⟨fun _ => .inr rfl, fun _ => rfl⟩
  | some (.bool _) | some (.number _) | some (.string _) | some (.array _) | some (.object _) =>
      simp [present?]

theorem Link.present?_enter {link : Link} {found : Option Json} (h : Json.present? found = none)
    (i : Nat) : Json.present? (link.enter i found) = none := by
  rcases Json.present?_eq_none_iff.mp h with rfl | rfl
  · rcases link with _ | _ | _ <;> rfl
  · rcases link with _ | _ | _ <;> rfl

/-- **Names lead to nothing if the first of them does**, whatever the links on the way
are. -/
theorem Entity.reachFrom_eq_none {choice : Choice} (names : List String) :
    ∀ {here : Entity} {before : Alias} {value : Option Json} {name : String},
      Json.present? (value.bind (·.get? name)) = none →
      Json.present? (here.reachFrom choice before value (name :: names)) = none := by
  induction names with
  | nil =>
      intro here before value name h
      rw [reachFrom]
      exact h
  | cons next names ih =>
      intro here before value name h
      rw [reachFrom]
      · split
        · refine ih ?_
          rw [← Json.bind_get?_present?, Link.present?_enter h]
          rfl
        · rfl
      · exact List.cons_ne_nil _ _

/-- A record has a value at none of the names: each of them is missing or null. -/
def Json.HasNone (record : Json) (names : List String) : Prop :=
  ∀ name ∈ names, record.get? name = none ∨ record.get? name = some .null

namespace Compiler

variable {c : Compiler} {e : Entity} {n : Node} {p : Predicate} {record : Json} {row : Row}

/-! ### Compiled trees -/

/-- Each test of a compiled tree comes from one of the comparisons: its path has the names
of the selector, and only a flag asks whether there is a value. -/
theorem exists_clause_of_compileNode (h : c.compileNode e n = .ok p)
    {test : ResolvedPath × Condition} (htest : test ∈ p.tests) :
    ∃ clause ∈ n.clauses, test.1.names = Text.dotted clause.selector ∧
      (clause.operator.TakesValues → test.2.AsksValue) := by
  obtain ⟨f, hf, rfl⟩ := exists_graft_of_compileNode h
  rw [Node.tests_graft, List.mem_flatMap] at htest
  obtain ⟨clause, hclause, htest⟩ := htest
  obtain ⟨path, first, rest, hpath, hvalues, hasks⟩ := asks_of_compileComparison (hf clause hclause)
  refine ⟨clause, hclause, ?_, fun hop => ?_⟩
  · have hmem : test.1 ∈ (f clause).paths := by
      rw [← Predicate.map_fst_tests]
      exact List.mem_map_of_mem htest
    rw [hasks.paths_eq, List.mem_singleton] at hmem
    rw [hmem]
    exact (Entity.leads_of_walk hpath).1
  · have hfirst := (ValueType.reads_of_coerceArguments hvalues hop).hasType
    exact hasks.asksValue hop (hfirst first List.mem_cons_self) test htest

/-- **A compiled tree reads nothing from a record without its attributes**, on any row of
its plan. -/
theorem read_eq_none_of_compileNode (h : c.compileNode e n = .ok p)
    (hnone : record.HasNone n.roots) (hrow : row ∈ Row.ofRecord record p.joins) :
    ∀ path ∈ p.paths, path.read record row = none := by
  intro path hpath
  obtain ⟨choice, hfollows⟩ := (Row.mem_ofRecord_iff (Join.plan_ordered p.paths)).mp hrow
  rw [hfollows.read_eq (resolves_of_compileNode h) hpath]
  rw [← Predicate.map_fst_tests] at hpath
  obtain ⟨test, htest, rfl⟩ := List.mem_map.mp hpath
  obtain ⟨clause, hclause, hnames, _⟩ := exists_clause_of_compileNode h htest
  obtain ⟨name, names, hdotted⟩ := List.exists_cons_of_ne_nil (Text.dotted_ne_nil clause.selector)
  have hroot : name ∈ n.roots := by
    refine List.mem_filterMap.mpr ⟨clause, hclause, ?_⟩
    rw [hdotted, List.head?_cons]
  rw [hnames, hdotted]
  exact Entity.reachFrom_eq_none names (Json.present?_eq_none_iff.mpr (hnone name hroot))

end Compiler

/-! ## The theorem -/

/-- **Nulls never flip an answer.**  Where all conditions of a predicate are conditions on a
value, and each of its paths reads nothing on one row or the same on both, an answer on the
one is the answer on the other.  Where every path reads nothing and every connective has an
operand there is no answer.  So a compiled text without `=isnull=` and `=isempty=` never
lets a record through that has none of the attributes that its selectors begin with. -/
theorem nulls_never_flip_answers :
    (∀ (table : PatternTable) (p : Predicate) (record record' : Json) (row row' : Row),
      (∀ test ∈ p.tests, test.2.AsksValue) →
      (∀ path ∈ p.paths,
        path.read record row = none ∨ path.read record' row' = path.read record row) →
      ∀ answer, p.eval table record row = some answer → p.eval table record' row' = some answer) ∧
    (∀ (table : PatternTable) (p : Predicate) (record : Json) (row : Row),
      (∀ test ∈ p.tests, test.2.AsksValue) → p.Populated →
      (∀ path ∈ p.paths, path.read record row = none) → p.eval table record row = none) ∧
    ∀ (engine : PatternEngine) (c : Compiler) (e : Entity) (text : String) (n : Node) (f : Filter)
      (ev : Evaluator) (record : Json), c.parse text = .ok n →
      (∀ clause ∈ n.clauses, clause.operator ≠ .isNull ∧ clause.operator ≠ .isEmpty) →
      c.compile e (some text) = .ok (some f) ∨ c.compileDistinct e (some text) = .ok (some f) →
      engine.evaluator f = .ok ev → record.HasNone n.roots → ev.isMatch record = false := by
  refine ⟨?_, ?_, ?_⟩
  · intro table p record record' row row' hasks hreads
    exact Predicate.eval_kept p hasks hreads
  · intro table p record row hasks hp hreads
    exact hp.eval_unknown hasks hreads
  · intro engine c e text n f ev record hparse hoperators hcompile hev hnone
    have hnode := Compiler.compileNode_of_compile hparse hcompile
    have hpopulated := Compiler.populated_of_compileNode (Compiler.wellFormed_of_parse hparse) hnode
    have hasks : ∀ test ∈ f.predicate.tests, test.2.AsksValue := by
      intro test htest
      obtain ⟨clause, hclause, _, hasks⟩ := Compiler.exists_clause_of_compileNode hnode htest
      obtain ⟨hnull, hempty⟩ := hoperators clause hclause
      exact hasks (Operator.takesValues_iff.mpr ⟨hnull, hempty⟩)
    obtain ⟨table, _, rfl⟩ := PatternEngine.evaluator_eq_ok_iff.mp hev
    rw [Bool.eq_false_iff, ne_eq, Predicate.isMatch_iff]
    rintro ⟨row, hrow, htrue⟩
    have hreads := Compiler.read_eq_none_of_compileNode hnode hnone hrow
    rw [hpopulated.eval_unknown hasks hreads] at htrue
    cases htrue

/-- An age that is null leaves a disjunction true by the name, and it stays true when the age
turns out to be one of those excluded; a record whose dogs are null, and which has no age, is
not found by what its dogs' ages or its own are not. -/
theorem nulls_never_flip_answers_age :
    (Predicate.any [.not (.test ⟨[⟨"age", none⟩], .integer⟩ (.isIn [.int .integer 5])),
        .test ⟨[⟨"name", none⟩], .string⟩ (.compareText .greater "a")]).eval []
      (.object [("name", .string "b"), ("age", .number (.integer 5))]) [] = some true ∧
    (Predicate.all [.not (.test ⟨[⟨"age", none⟩], .integer⟩ (.isIn [.int .integer 5]))]).eval []
      (.object [("age", .null)]) [] = none ∧
    ∃ f ev, Compiler.standard.compile
        ⟨"E", [("age", .basic .integer),
          ("dogs", .link (.relation .toMany) "Dog" [("age", .basic .integer)])]⟩
        (some "dogs.age=out=(5,7),age!=3") = .ok (some f) ∧
      PatternEngine.lenient.evaluator f = .ok ev ∧
      ev.isMatch (.object [("dogs", .null)]) = false := by
  obtain ⟨hkept, hunknown, hcompiled⟩ := nulls_never_flip_answers
  refine ⟨?_, ?_, ?_⟩
  · refine hkept [] _ (.object [("name", .string "b"), ("age", .null)]) _ [] []
      (List.forall_mem_cons.mpr ⟨trivial, List.forall_mem_singleton.mpr trivial⟩)
      (List.forall_mem_cons.mpr ⟨.inl rfl, List.forall_mem_singleton.mpr (.inr rfl)⟩) true ?_
    decide +kernel
  · exact hunknown [] _ _ [] (List.forall_mem_singleton.mpr trivial)
      (.all (List.cons_ne_nil _ _) (List.forall_mem_singleton.mpr (.not (.test _ _))))
      (List.forall_mem_singleton.mpr rfl)
  · have hparse : Compiler.standard.parse "dogs.age=out=(5,7),age!=3" =
        .ok (.any [.comparison ⟨"dogs.age", .isNotIn, ["5", "7"]⟩,
          .comparison ⟨"age", .notEqual, ["3"]⟩]) :=
      toOption_eq_some_iff.mp (by decide +kernel)
    have hcompile := Compiler.compile_of_parse (e := ⟨"E", [("age", .basic .integer),
      ("dogs", .link (.relation .toMany) "Dog" [("age", .basic .integer)])]⟩) hparse
    refine ⟨_, _, hcompile, rfl, ?_⟩
    refine hcompiled .lenient _ _ _ _ _ _ _ hparse ?_ (.inl hcompile) rfl ?_
    · simp [Node.clauses, Node.clausesList]
    · have hroots : Node.roots (.any [.comparison ⟨"dogs.age", .isNotIn, ["5", "7"]⟩,
          .comparison ⟨"age", .notEqual, ["3"]⟩]) = ["dogs", "age"] := by
        decide +kernel
      rw [hroots]
      exact List.forall_mem_cons.mpr ⟨.inr rfl, List.forall_mem_singleton.mpr (.inl rfl)⟩

end RecordFilter
