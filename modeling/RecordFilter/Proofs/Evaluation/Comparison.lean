/-
# `Proofs.Evaluation.Comparison` — what a comparison says of one value

Where no relation to many is on the way, a path reads on every row of a record what its
names lead to in the record itself.  A comparison on such a path is then decided by one
stored value: its condition has the same truth on all rows, and there is a row at least.

    names lead to the same on every row                        (`reachFrom_single`)
    a stored value is what the path reads                      (`Entity.Stores.read`)
    the truth for that value is what the comparison says       (`Compiler.says_of_eval`)

`Compiler.Says` is about the comparison and about every text that is read as it.
-/
import RecordFilter.Proofs.Compiler.Typing
import RecordFilter.Proofs.Evaluation.Reach
import RecordFilter.Proofs.Evaluation.TextSearch

namespace RecordFilter

/-! ## Stored values -/

namespace Json

@[simp]
theorem descend_cons (value : Json) (name : String) (names : List String) :
    value.descend (name :: names) = (value.get? name).bind (·.descend names) := by
  rw [descend]
  cases value.get? name <;> rfl

theorem descend_singleton (value : Json) (name : String) :
    value.descend [name] = value.get? name :=
  (descend_cons value name []).trans (Option.bind_fun_some _)

/-- Names lead to the same from a value as from what a link is entered with there, unless
it leads to many. -/
theorem bind_descend_enter {link : Link} (hlink : link ≠ .relation .toMany) {names : List String}
    (hne : names ≠ []) (i : Nat) (value : Option Json) :
    (link.enter i value).bind (·.descend names) = value.bind (·.descend names) := by
  cases names with
  | nil => exact absurd rfl hne
  | cons name names =>
      have hpresent : (present? value).bind (·.descend (name :: names)) =
          value.bind (·.descend (name :: names)) := by
        simp only [descend_cons, ← Option.bind_assoc]
        rw [bind_get?_present?]
      cases link with
      | embedded => rfl
      | relation cardinality =>
          cases cardinality with
          | toOne => exact hpresent
          | toMany => exact absurd rfl hlink

end Json

/-- A record stores a value at a property: the property resolves to a path, no relation to
many is on the way, and in the record its names lead to the value, which is not null. -/
structure Entity.Stores (e : Entity) (record : Json) (property : String) (path : ResolvedPath)
    (stored : Json) : Prop where
  resolve : e.resolve property = .ok path
  single : ∀ s ∈ path.segments.dropLast, s.link ≠ some (.relation .toMany)
  descend : record.descend path.names = some stored
  present : stored ≠ .null

theorem Entity.stores_basic {e : Entity} {record stored : Json} {property : String}
    {type : ValueType} (hname : property ≠ "") (hdotless : '.' ∉ property.toList)
    (hattribute : e.attribute? property = some (.basic type))
    (hget : record.get? property = some stored) (hpresent : stored ≠ .null) :
    e.Stores record property ⟨[⟨property, none⟩], type⟩ stored where
  resolve := by
    rw [resolve, Text.dotted_of_notMem hdotless, walk, if_neg hname, hattribute]
  single := List.forall_mem_nil _
  descend := by
    rw [← hget]
    exact Json.descend_singleton record property
  present := hpresent

namespace Entity

variable {e here : Entity} {record stored : Json} {row : Row} {choice : Choice}
  {property : String} {path : ResolvedPath}

/-- **Names lead to the same under every choice**, where no relation to many is on the
way. -/
theorem reachFrom_single {segments : List Segment} {type : ValueType}
    (hleads : here.Leads segments type) (hne : segments ≠ [])
    (hsingle : ∀ s ∈ segments.dropLast, s.link ≠ some (.relation .toMany)) (before : Alias)
    (value : Option Json) :
    here.reachFrom choice before value (segments.map (·.name)) =
      value.bind (·.descend (segments.map (·.name))) := by
  induction hleads generalizing before value with
  | here => exact absurd rfl hne
  | basic _ _ => exact congrArg (Option.bind value) (funext fun v => (v.descend_singleton _).symm)
  | @link here name link target attributes segments type _ hattribute _ ih =>
      by_cases hlast : segments = []
      · subst hlast
        exact congrArg (Option.bind value) (funext fun v => (v.descend_singleton _).symm)
      · obtain ⟨hlink, hrest⟩ : link ≠ .relation .toMany ∧
            ∀ s ∈ segments.dropLast, s.link ≠ some (.relation .toMany) := by
          rw [List.dropLast_cons_of_ne_nil hlast, List.forall_mem_cons] at hsingle
          exact ⟨fun h => hsingle.1 (congrArg some h), hsingle.2⟩
        have hnames : segments.map (·.name) ≠ [] := mt List.map_eq_nil_iff.mp hlast
        rw [List.map_cons, reachFrom_link hattribute hnames, ih hlast hrest,
          Json.bind_descend_enter hlink hnames, Option.bind_assoc]
        exact congrArg (Option.bind value) (funext fun v => (v.descend_cons _ _).symm)

/-- **A stored value is what the path reads**, on every row of a plan. -/
theorem Stores.read (h : e.Stores record property path stored) {paths : List ResolvedPath}
    (hpaths : ∀ p ∈ paths, e.Resolves p) (hpath : path ∈ paths)
    (hrow : row ∈ Row.ofRecord record (Join.plan paths)) : path.read record row = some stored := by
  obtain ⟨choice, hfollows⟩ := (Row.mem_ofRecord_iff (Join.plan_ordered paths)).mp hrow
  have hresolves := hpaths path hpath
  rw [hfollows.read_eq hpaths hpath, reach, ResolvedPath.names,
    reachFrom_single hresolves.leads hresolves.segments_ne_nil h.single, Option.bind_some,
    ← ResolvedPath.names, h.descend]
  have hpresent := h.present
  cases stored <;> first | rfl | exact absurd rfl hpresent

end Entity

/-! ## What operators ask for -/

theorem ValueType.IsDate.not_isText {type : ValueType} (h : type.IsDate) : ¬ type.IsText := by
  rcases h with rfl | rfl <;> simp [ValueType.IsText]

namespace Value.HasType

variable {v : Value} {type : ValueType}

theorem equalTo (h : v.HasType type) (htext : ¬ type.IsText) :
    Condition.equalTo type v = .equal v := by
  cases h with
  | @int w n _ => cases w <;> rfl
  | text s h => exact absurd h htext
  | _ => rfl

theorem notEqualTo (h : v.HasType type) (htext : ¬ type.IsText) :
    Condition.notEqualTo v = .notEqual v := by
  cases h with
  | text s h => exact absurd h htext
  | _ => rfl

theorem ordered (h : v.HasType type) (hdate : type.IsDate) (relation : Relation) :
    Condition.ordered relation v = .compare relation v := by
  rcases h.isDate_iff.mp hdate with ⟨d, rfl⟩ | ⟨m, rfl⟩ <;> rfl

end Value.HasType

namespace Condition

variable {table : PatternTable} {stored : Json} {value : Value} {o : Ordering}

theorem eval_equal (h : stored.compareTo value = some o) :
    (equal value).eval table (some stored) = some (o == .eq) := by
  simp only [eval, Option.bind_some, h, Option.map_some]

theorem eval_notEqual (h : stored.compareTo value = some o) :
    (notEqual value).eval table (some stored) = some (!(o == .eq)) := by
  simp only [eval, Option.bind_some, h, Option.map_some]
  rfl

theorem eval_compare (h : stored.compareTo value = some o) (relation : Relation) :
    (compare relation value).eval table (some stored) = some (relation.accepts o) := by
  simp only [eval, Option.bind_some, h, Option.map_some]

theorem eval_like {pattern text : String} {prepared : LikePattern}
    (htext : stored.textOf = some text) (h : table.lookup pattern = some prepared)
    (negated : Bool) :
    (like pattern negated).eval table (some stored) =
      some (prepared.matchesLower text != negated) := by
  simp only [eval, Option.bind_some, htext, PatternTable.like, h, Option.map_some]

theorem eval_joinedLike {pattern text : String} {prepared : LikePattern}
    (htext : stored.joinedText = some text) (h : table.lookup pattern = some prepared) :
    (joinedLike pattern).eval table (some stored) = some (prepared.matchesLower text) := by
  simp only [eval, Option.bind_some, htext, PatternTable.like, h, Option.map_some]

end Condition

/-! ## What a comparison says -/

/-- What an expression says of a record, run with an engine; nothing where it cannot be
compiled or run. -/
def Compiler.verdict? (c : Compiler) (engine : PatternEngine) (e : Entity) (n : Node)
    (record : Json) : Option Bool :=
  (c.compileNode e n).toOption.bind fun p =>
    (engine.evaluator (.ofPredicate p)).toOption.map (·.isMatch record)

/-- An expression says of a record whether it matches, and so does each text that is read
as the expression. -/
structure Compiler.Says (c : Compiler) (engine : PatternEngine) (e : Entity) (n : Node)
    (record : Json) (found : Bool) : Prop where
  verdict : c.verdict? engine e n record = some found
  parsed : ∀ query, c.parse query = .ok n → c.answer? engine e query record = some found

namespace Compiler

variable {engine : PatternEngine} {c : Compiler} {e : Entity} {record stored : Json}
  {path : ResolvedPath} {n : Node} {clause : Comparison} {p : Predicate} {found : Bool}

theorem parse_empty_ne (n : Node) : c.parse "" ≠ .ok n := by
  intro h
  have hnode : Node.parse "" c.operators = .ok n := by
    rw [← toOption_eq_some_iff, ← toOption_mapError Error.malformed, toOption_eq_some_iff]
    exact h
  have hend : (Lexer.ofString "").next.1.outcome = .ok none := rfl
  rw [Parser.parse_of_end hend] at hnode
  cases hnode

theorem compile_of_parse {query : String} (h : c.parse query = .ok n) :
    c.compile e (some query) = (c.compileNode e n).map fun p => some (.ofPredicate p) := by
  have hne : query ≠ "" := by
    rintro rfl
    exact parse_empty_ne n h
  rw [compile, if_neg hne, h]

theorem answer?_of_parse {query : String} (h : c.parse query = .ok n) (record : Json) :
    c.answer? engine e query record = c.verdict? engine e n record := by
  rw [answer?, compile_of_parse h, verdict?]
  cases c.compileNode e n <;> rfl

theorem Says.of_verdict (h : c.verdict? engine e n record = some found) :
    c.Says engine e n record found :=
  ⟨h, fun _ hquery => (answer?_of_parse hquery record).trans h⟩

/-- What a comparison compiles to, once its property is resolved and its arguments are
read. -/
theorem compileComparison_of_values (clause : Comparison)
    (hresolve : e.resolve clause.selector = .ok path) (hop : clause.operator.TakesValues)
    {first : Value} {rest : List Value}
    (hvalues : path.type.coerceList c.dateFormat clause.arguments = .ok (first :: rest)) :
    c.compileComparison e clause =
      Predicate.ofOperator clause.selector path first (first :: rest) clause.operator := by
  have harguments : path.type.coerceArguments clause.operator clause.arguments c.dateFormat =
      .ok (first :: rest) := by
    rw [← hvalues, ValueType.coerceArguments_eq hop]
  rw [compileComparison, hresolve]
  simp only [harguments]

/-- **The truth for the stored value is what the comparison says.** -/
theorem says_of_eval (h : e.Stores record clause.selector path stored)
    (hcompile : c.compileComparison e clause = .ok p) (hpaths : p.paths = [path])
    (hruns : p.Runs engine)
    (heval : ∀ (table : PatternTable) (row : Row), table.Serves p.patterns →
      path.read record row = some stored → (p.eval table record row == some true) = found) :
    c.Says engine e (.comparison clause) record found := by
  obtain ⟨ev, hev⟩ := hruns
  obtain ⟨table, htable, rfl⟩ := Predicate.evaluator_eq_ok_iff.mp hev
  have hserves := PatternTable.serves_of_prepare htable
  have hresolved : ∀ q ∈ p.paths, e.Resolves q := by
    rw [hpaths, List.forall_mem_singleton]
    exact ⟨_, h.resolve⟩
  have hrows : ∀ row ∈ Row.ofRecord record p.joins,
      (p.eval table record row == some true) = found := fun row hrow =>
    heval table row hserves (h.read hresolved (hpaths ▸ List.mem_singleton_self path) hrow)
  obtain ⟨row, hrow⟩ := List.exists_mem_of_ne_nil _ (Row.expand_ne_nil record p.joins [])
  have hmatch : Evaluator.isMatch ⟨.ofPredicate p, p.joins, table⟩ record = found := by
    rw [Bool.eq_iff_iff, Predicate.isMatch_iff]
    constructor
    · rintro ⟨row, hrow, htrue⟩
      exact (hrows row hrow).symm.trans (beq_iff_eq.mpr htrue)
    · intro hfound
      exact ⟨row, hrow, beq_iff_eq.mp ((hrows row hrow).trans hfound)⟩
  refine .of_verdict ?_
  rw [verdict?, compileNode, hcompile]
  show (engine.evaluator (.ofPredicate p)).toOption.map _ = _
  rw [hev]
  exact congrArg some hmatch

theorem some_eq_true (b : Bool) : ((some b : Truth) == some true) = b := by
  cases b <;> rfl

theorem some_eq_false (b : Bool) : ((some b : Truth) == some false) = !b := by
  cases b <;> rfl

theorem says_test (h : e.Stores record clause.selector path stored) {condition : Condition}
    (hcompile : c.compileComparison e clause = .ok (.test path condition))
    (hruns : (Predicate.test path condition).Runs engine) {truth : Truth}
    (heval : ∀ table : PatternTable, table.Serves (Predicate.test path condition).patterns →
      condition.eval table (some stored) = truth) :
    c.Says engine e (.comparison clause) record (truth == some true) := by
  refine says_of_eval h hcompile rfl hruns fun table row hserves hread => ?_
  rw [Predicate.eval, hread, heval table hserves]

/-- A comparison by the opposite of a condition holds where the condition is false, and not where it
is unknown. -/
theorem says_not (h : e.Stores record clause.selector path stored) {condition : Condition}
    (hcompile : c.compileComparison e clause = .ok (.not (.test path condition)))
    (hruns : (Predicate.test path condition).Runs engine) {truth : Truth}
    (heval : ∀ table : PatternTable, table.Serves (Predicate.test path condition).patterns →
      condition.eval table (some stored) = truth) :
    c.Says engine e (.comparison clause) record (truth == some false) := by
  have hpatterns := Predicate.runs_iff.mp hruns
  have hnot : (Predicate.not (.test path condition)).Runs engine :=
    Predicate.runs_iff.mpr hpatterns
  refine says_of_eval h hcompile rfl hnot fun table row hserves hread => ?_
  rw [Predicate.eval, Predicate.eval, hread, heval table hserves]
  cases truth with
  | none => rfl
  | some b => cases b <;> rfl

end Compiler

end RecordFilter
