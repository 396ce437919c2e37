/-
# `Proofs.Evaluation.Membership` — membership is a disjunction of equalities

`isIn` has a loop of its own, with its own way of going on past what is unknown, and its
arguments are read all at once.  A disjunction of equalities reads them one by one and
goes through the loop of disjunctions.

    one loop takes the steps of the other                        (`isOneOf_eq_evalAny`)
    so membership and the disjunction are equally true           (`eval_isIn`)
    and so are their opposites                                   (`eval_not_isIn`)
    arguments are read alike, at once and one by one             (`compileNodes_each`)

Of the arguments only the set matters to a row (`Shuffles`), since a disjunction may have
its operands in any order and number.  Their order decides which of several unreadable
arguments is told, and nothing else.
-/
import RecordFilter.Proofs.Evaluation.Comparison
import RecordFilter.Proofs.Evaluation.Kleene

namespace RecordFilter

theorem ne_nil_of_same_members {α : Type} {xs ys : List α} (h : ∀ a, a ∈ ys ↔ a ∈ xs)
    (hne : xs ≠ []) : ys ≠ [] := by
  obtain ⟨a, ha⟩ := List.exists_mem_of_ne_nil xs hne
  exact List.ne_nil_of_mem ((h a).mpr ha)

/-! ## Truth -/

namespace Predicate

variable {table : PatternTable} {record stored : Json} {row : Row} {path : ResolvedPath}
  {values : List Value}

/-- The loop of membership takes the steps of the loop of disjunctions. -/
theorem isOneOf_eq_evalAny (hread : path.read record row = some stored) (values : List Value) :
    stored.isOneOf values =
      evalAny table record row (values.map fun v => .test path (.equal v)) := by
  induction values with
  | nil => rfl
  | cons v values ih =>
      rw [Json.isOneOf, List.map_cons, evalAny, ← ih, eval, hread]
      simp only [Condition.eval, Option.bind_some]
      cases stored.compareTo v with
      | none => rfl
      | some o => cases o <;> rfl

/-- **Membership is as true as the disjunction of the equalities.** -/
theorem eval_isIn (hne : values ≠ []) :
    (test path (.isIn values)).eval table record row =
      (any (values.map fun v => .test path (.equal v))).eval table record row := by
  rw [eval, eval]
  cases hread : path.read record row with
  | some stored => exact isOneOf_eq_evalAny hread values
  | none =>
      refine (evalAny_of_unknown (mt List.map_eq_nil_iff.mp hne) ?_).symm
      rw [List.forall_mem_map]
      intro v _
      rw [eval, hread]
      rfl

/-- The opposite of an equality is the inequality, unknown where that is. -/
theorem eval_not_equal (v : Value) :
    (Predicate.not (.test path (.equal v))).eval table record row =
      (test path (.notEqual v)).eval table record row := by
  simp only [eval, Condition.eval, Option.map_bind]
  refine congrArg _ (funext fun stored => ?_)
  exact Option.map_map ..

/-- **The opposite of membership is as true as the conjunction of the inequalities.** -/
theorem eval_not_isIn (hne : values ≠ []) :
    (Predicate.not (.test path (.isIn values))).eval table record row =
      (all (values.map fun v => .test path (.notEqual v))).eval table record row := by
  have hopposite : (Predicate.not (.test path (.isIn values))).eval table record row =
      evalAll table record row ((values.map fun v => .test path (.equal v)).map .not) := by
    rw [eval, eval_isIn hne, evalAll_map_not, eval]
  rw [hopposite, eval]
  refine evalAll_eq_of_le_iff fun n => ?_
  simp only [List.map_map, List.forall_mem_map, Function.comp, eval_not_equal]

end Predicate

/-! ## Groups -/

/-- What a group of operands compiles to: the only operand stands for itself. -/
def Predicate.group (make : List Predicate → Predicate) : List Predicate → Predicate
  | [operand] => operand
  | operands => make operands

namespace Predicate

variable {table : PatternTable} {record : Json} {row : Row}

@[simp]
theorem eval_group_any (ps : List Predicate) :
    (group .any ps).eval table record row = (any ps).eval table record row := by
  rcases ps with _ | ⟨p, _ | ⟨q, ps⟩⟩
  · rfl
  · rw [group, eval, evalAny]
    cases p.eval table record row with
    | none => rfl
    | some b => cases b <;> rfl
  · rfl

@[simp]
theorem eval_group_all (ps : List Predicate) :
    (group .all ps).eval table record row = (all ps).eval table record row := by
  rcases ps with _ | ⟨p, _ | ⟨q, ps⟩⟩
  · rfl
  · rw [group, eval, evalAll]
    cases p.eval table record row with
    | none => rfl
    | some b => cases b <;> rfl
  · rfl

@[simp]
theorem paths_group {make : List Predicate → Predicate}
    (hmake : ∀ ps, (make ps).paths = pathsList ps) (ps : List Predicate) :
    (group make ps).paths = pathsList ps := by
  rcases ps with _ | ⟨p, _ | ⟨q, ps⟩⟩
  · exact hmake []
  · exact (List.append_nil p.paths).symm
  · exact hmake _

@[simp]
theorem patterns_group {make : List Predicate → Predicate}
    (hmake : ∀ ps, (make ps).patterns = patternsList ps) (ps : List Predicate) :
    (group make ps).patterns = patternsList ps := by
  rcases ps with _ | ⟨p, _ | ⟨q, ps⟩⟩
  · exact hmake []
  · exact (List.append_nil p.patterns).symm
  · exact hmake _

end Predicate

namespace Compiler

variable {c : Compiler} {e : Entity} {m n : Node} {selector : String} {arguments : List String}
  {path : ResolvedPath}

theorem compileNode_group {make : List Node → Node} {make' : List Predicate → Predicate}
    (hmake : ∀ children, c.compileNode e (make children) = (c.compileNodes e children).map make')
    (children : List Node) :
    c.compileNode e (Node.group make children) =
      (c.compileNodes e children).map (Predicate.group make') := by
  rcases children with _ | ⟨child, _ | ⟨child', children⟩⟩
  · exact hmake []
  · rw [Node.group, compileNodes]
    cases c.compileNode e child <;> rfl
  · rw [Node.group, hmake]
    · cases h : c.compileNodes e (child :: child' :: children) with
      | error _ => rfl
      | ok ps =>
          obtain ⟨p, _, _, hrest, rfl⟩ := compileNodes_cons_ok h
          obtain ⟨q, _, _, _, rfl⟩ := compileNodes_cons_ok hrest
          rfl
    · simp

/-! ## Arguments -/

theorem compileComparison_at_once {op : Operator} {ask : List Value → Predicate}
    (hresolve : e.resolve selector = .ok path) (hop : op.TakesValues)
    (hask : ∀ first rest, Predicate.ofOperator selector path first (first :: rest) op =
      .ok (ask (first :: rest)))
    (hne : arguments ≠ []) :
    c.compileComparison e ⟨selector, op, arguments⟩ =
      ((path.type.coerceList c.dateFormat arguments).map ask).mapError .coercion := by
  rw [compileComparison, hresolve]
  simp only [ValueType.coerceArguments_eq hop]
  cases hvalues : path.type.coerceList c.dateFormat arguments with
  | error _ => rfl
  | ok values =>
      cases ValueType.reads_of_coerceList hvalues with
      | nil => exact absurd rfl hne
      | cons _ _ => exact hask _ _

/-- **Comparisons with one argument each read what one comparison with all of them does**,
and fail over the same argument. -/
theorem compileNodes_each {op : Operator} {ask : Value → Condition}
    (hresolve : e.resolve selector = .ok path) (hop : op.TakesValues)
    (hask : ∀ v, v.HasType path.type →
      Predicate.ofOperator selector path v [v] op = .ok (.test path (ask v)))
    (arguments : List String) :
    c.compileNodes e (arguments.map fun a => .comparison ⟨selector, op, [a]⟩) =
      ((path.type.coerceList c.dateFormat arguments).map
        fun values => values.map fun v => .test path (ask v)).mapError .coercion := by
  induction arguments with
  | nil => rfl
  | cons a arguments ih =>
      rw [List.map_cons, compileNodes, compileNode, ih, compileComparison, hresolve]
      simp only [ValueType.coerceArguments_eq hop, ValueType.coerceList]
      cases hvalue : path.type.coerce a c.dateFormat with
      | error _ => rfl
      | ok v =>
          have htest := hask v (ValueType.hasType_of_coerce hvalue)
          simp only [Except.map, htest]
          cases path.type.coerceList c.dateFormat arguments <;> rfl

end Compiler

namespace ValueType

variable {type : ValueType} {format : DateFormat} {arguments arguments' : List String}

theorem coerceList_ok_iff {arguments : List String} :
    (∃ values, type.coerceList format arguments = .ok values) ↔
      ∀ a ∈ arguments, ∃ v, type.coerce a format = .ok v := by
  induction arguments with
  | nil =>
      constructor
      · intro _ a ha
        cases ha
      · intro _
        exact ⟨[], rfl⟩
  | cons a arguments ih =>
      rw [List.forall_mem_cons, ← ih, coerceList]
      cases type.coerce a format with
      | error _ =>
          constructor
          · rintro ⟨_, h⟩
            cases h
          · rintro ⟨⟨_, h⟩, _⟩
            cases h
      | ok v =>
          cases type.coerceList format arguments with
          | error _ =>
              constructor
              · rintro ⟨_, h⟩
                cases h
              · rintro ⟨_, _, h⟩
                cases h
          | ok values => exact ⟨fun _ => ⟨⟨v, rfl⟩, ⟨values, rfl⟩⟩, fun _ => ⟨_, rfl⟩⟩

theorem Reads.mem_iff {values : List Value} (h : type.Reads format arguments values) {v : Value} :
    v ∈ values ↔ ∃ a ∈ arguments, type.coerce a format = .ok v := by
  induction h with
  | nil =>
      constructor
      · intro hv
        cases hv
      · rintro ⟨_, ha, _⟩
        cases ha
  | @cons a w arguments values ha _ ih =>
      rw [List.mem_cons, ih]
      simp only [List.mem_cons, exists_eq_or_imp, ha, Except.ok.injEq, @eq_comm _ v]

/-- Of arguments in another order or number all can be read or not, and to the same
values. -/
theorem coerceList_same (h : ∀ a, a ∈ arguments' ↔ a ∈ arguments) :
    Option.Rel (fun values values' => ∀ v, v ∈ values' ↔ v ∈ values)
      (type.coerceList format arguments).toOption (type.coerceList format arguments').toOption := by
  have hok : (∃ values, type.coerceList format arguments = .ok values) ↔
      ∃ values', type.coerceList format arguments' = .ok values' := by
    simp only [coerceList_ok_iff, h]
  cases hvalues : type.coerceList format arguments with
  | error _ =>
      rw [hvalues] at hok
      cases hvalues' : type.coerceList format arguments' with
      | error _ => exact .none
      | ok values' => cases (hok.mpr ⟨values', hvalues'⟩).choose_spec
  | ok values =>
      obtain ⟨values', hvalues'⟩ := hok.mp ⟨values, hvalues⟩
      rw [hvalues']
      refine .some fun v => ?_
      rw [(reads_of_coerceList hvalues).mem_iff, (reads_of_coerceList hvalues').mem_iff]
      simp only [h]

end ValueType

/-! ## Outcomes -/

/-- Two expressions come to the same: both compile or neither, to filters with the same
rows, and so do texts that are read as them. -/
structure Compiler.SameOutcome (c : Compiler) (e : Entity) (m n : Node) : Prop where
  compiled : Option.Rel (fun p q => Filter.SameRows (.ofPredicate p) (.ofPredicate q))
    (c.compileNode e m).toOption (c.compileNode e n).toOption
  parsed : ∀ query query', c.parse query = .ok m → c.parse query' = .ok n →
    Option.Rel (Option.Rel Filter.SameRows) (c.compile e (some query)).toOption
      (c.compile e (some query')).toOption

namespace Compiler

variable {c : Compiler} {e : Entity} {m n : Node} {selector : String}
  {arguments arguments' : List String} {path : ResolvedPath}

theorem SameOutcome.of_compiled
    (h : Option.Rel (fun p q => Filter.SameRows (.ofPredicate p) (.ofPredicate q))
      (c.compileNode e m).toOption (c.compileNode e n).toOption) : c.SameOutcome e m n := by
  refine ⟨h, fun query query' hm hn => ?_⟩
  rw [compile_of_parse hm, compile_of_parse hn, toOption_map, toOption_map]
  generalize (c.compileNode e m).toOption = p at h ⊢
  generalize (c.compileNode e n).toOption = q at h ⊢
  cases h with
  | none => exact .none
  | some hrows => exact .some (.some hrows)

end Compiler

namespace Filter

variable {e : Entity} {path : ResolvedPath} {values values' : List Value}

/-- A predicate on one path has the rows of a group of tests of the path that is as
true. -/
theorem sameRows_group (hpath : e.Resolves path) {p : Predicate} (hpaths : p.paths = [path])
    (hpatterns : p.patterns = []) {make : List Predicate → Predicate}
    (hmake : ∀ ps, (make ps).paths = Predicate.pathsList ps ∧
      (make ps).patterns = Predicate.patternsList ps)
    {ask : Value → Condition} (hask : ∀ v, (Predicate.test path (ask v)).patterns = [])
    (hne : values ≠ [])
    (heval : ∀ table record row, p.eval table record row =
      (Predicate.group make (values.map fun v => .test path (ask v))).eval table record row) :
    SameRows (.ofPredicate p)
      (.ofPredicate (.group make (values.map fun v => .test path (ask v)))) := by
  refine sameRows_of_eval_eq (fun pattern => ?_) ?_ heval
  · rw [hpatterns, Predicate.patterns_group fun ps => (hmake ps).2, Predicate.mem_patternsList]
    constructor
    · intro hpattern
      cases hpattern
    · rintro ⟨_, hq, hpattern⟩
      obtain ⟨v, _, rfl⟩ := List.mem_map.mp hq
      rw [hask v] at hpattern
      cases hpattern
  · have hset : ∀ q, q ∈ Predicate.pathsList (values.map fun v => .test path (ask v)) ↔
        q ∈ [path] := by
      intro q
      rw [Predicate.mem_pathsList]
      constructor
      · rintro ⟨_, hp, hq⟩
        obtain ⟨v, _, rfl⟩ := List.mem_map.mp hp
        exact hq
      · intro hq
        obtain ⟨v, hv⟩ := List.exists_mem_of_ne_nil values hne
        exact ⟨_, List.mem_map_of_mem hv, hq⟩
    rw [Predicate.joins, Predicate.joins, hpaths, Predicate.paths_group fun ps => (hmake ps).1]
    refine (Join.plan_congr (e := e) ?_ hset).symm
    exact List.forall_mem_singleton.mpr hpath

/-- **Membership has the rows of the disjunction**, with the values in any order and
number. -/
theorem sameRows_isIn (hpath : e.Resolves path) (hne : values ≠ [])
    (hmem : ∀ v, v ∈ values' ↔ v ∈ values) :
    SameRows (.ofPredicate (.test path (.isIn values)))
      (.ofPredicate (.group .any (values'.map fun v => .test path (.equal v)))) := by
  refine sameRows_group hpath rfl rfl (fun _ => ⟨rfl, rfl⟩) (fun _ => rfl)
    (ne_nil_of_same_members hmem hne) ?_
  intro table record row
  rw [Predicate.eval_group_any, Predicate.eval_isIn hne]
  refine Predicate.Shuffles.eval_eq (.any fun p => ?_)
  simp only [List.mem_map, hmem]

/-- **The opposite has the rows of the conjunction.** -/
theorem sameRows_not_isIn (hpath : e.Resolves path) (hne : values ≠ [])
    (hmem : ∀ v, v ∈ values' ↔ v ∈ values) :
    SameRows (.ofPredicate (.not (.test path (.isIn values))))
      (.ofPredicate (.group .all (values'.map fun v => .test path (.notEqual v)))) := by
  refine sameRows_group hpath rfl rfl (fun _ => ⟨rfl, rfl⟩) (fun _ => rfl)
    (ne_nil_of_same_members hmem hne) ?_
  intro table record row
  rw [Predicate.eval_group_all, Predicate.eval_not_isIn hne]
  refine Predicate.Shuffles.eval_eq (.all fun p => ?_)
  simp only [List.mem_map, hmem]

end Filter

namespace Compiler

variable {c : Compiler} {e : Entity} {selector : String} {arguments arguments' : List String}

theorem compileNode_group_unknown {op : Operator} {make : List Node → Node}
    {make' : List Predicate → Predicate} {u : UnknownProperty}
    (hresolve : e.resolve selector = .error u)
    (hmake : ∀ children, c.compileNode e (make children) = (c.compileNodes e children).map make')
    (hne : arguments ≠ []) :
    c.compileNode e (.group make (arguments.map fun a => .comparison ⟨selector, op, [a]⟩)) =
      .error (.unknownProperty u) := by
  obtain ⟨a, rest, rfl⟩ := List.exists_cons_of_ne_nil hne
  rw [compileNode_group hmake, List.map_cons, compileNodes, compileNode, compileComparison,
    hresolve]
  rfl

theorem compileNode_group_each {op : Operator} {make : List Node → Node}
    {make' : List Predicate → Predicate} {ask : Value → Condition} {path : ResolvedPath}
    (hresolve : e.resolve selector = .ok path) (hop : op.TakesValues)
    (hmake : ∀ children, c.compileNode e (make children) = (c.compileNodes e children).map make')
    (hask : ∀ v, v.HasType path.type →
      Predicate.ofOperator selector path v [v] op = .ok (.test path (ask v)))
    (arguments : List String) :
    c.compileNode e (.group make (arguments.map fun a => .comparison ⟨selector, op, [a]⟩)) =
      ((path.type.coerceList c.dateFormat arguments).map fun values =>
        Predicate.group make' (values.map fun v => .test path (ask v))).mapError .coercion := by
  rw [compileNode_group hmake, compileNodes_each hresolve hop hask]
  cases path.type.coerceList c.dateFormat arguments <;> rfl

/-- **One comparison that asks for all its arguments, and a group that asks for them one by
one**, fail over the same argument.  They come to the same if they do so wherever all
arguments can be read. -/
theorem sameOutcome_group {op op' : Operator} (ask : ResolvedPath → List Value → Predicate)
    (ask' : Value → Condition) {make : List Node → Node} {make' : List Predicate → Predicate}
    (hop : op.TakesValues) (hop' : op'.TakesValues)
    (hask : ∀ path first rest, Predicate.ofOperator selector path first (first :: rest) op =
      .ok (ask path (first :: rest)))
    (hmake : ∀ children, c.compileNode e (make children) = (c.compileNodes e children).map make')
    (hask' : ∀ path v, e.resolve selector = .ok path → v.HasType path.type →
      Predicate.ofOperator selector path v [v] op' = .ok (.test path (ask' v)))
    (hrows : ∀ (path : ResolvedPath) (values values' : List Value), e.Resolves path →
      values ≠ [] → (∀ v, v ∈ values' ↔ v ∈ values) →
      Filter.SameRows (.ofPredicate (ask path values))
        (.ofPredicate (.group make' (values'.map fun v => .test path (ask' v)))))
    (hne : arguments ≠ []) (hmem : ∀ a, a ∈ arguments' ↔ a ∈ arguments) :
    c.SameOutcome e (.comparison ⟨selector, op, arguments⟩)
        (.group make (arguments'.map fun a => .comparison ⟨selector, op', [a]⟩)) ∧
      ∀ error, c.compileNode e (.comparison ⟨selector, op, arguments⟩) = .error error ↔
        c.compileNode e (.group make (arguments.map fun a => .comparison ⟨selector, op', [a]⟩)) =
          .error error := by
  cases hresolve : e.resolve selector with
  | error u =>
      have hne' : arguments' ≠ [] := ne_nil_of_same_members hmem hne
      have hone : c.compileNode e (.comparison ⟨selector, op, arguments⟩) =
          .error (.unknownProperty u) := by
        rw [compileNode, compileComparison, hresolve]
      refine ⟨.of_compiled ?_, fun error => ?_⟩
      · rw [hone, compileNode_group_unknown hresolve hmake hne']
        exact .none
      · rw [hone, compileNode_group_unknown hresolve hmake hne]
  | ok path =>
      have hone := compileComparison_at_once (c := c) hresolve hop (hask path) hne
      have hgroup := compileNode_group_each (c := c) hresolve hop' hmake fun v =>
        hask' path v hresolve
      refine ⟨.of_compiled ?_, fun error => ?_⟩
      · have hsame := @ValueType.coerceList_same path.type c.dateFormat _ _ hmem
        simp only [compileNode, hone, hgroup, toOption_mapError, toOption_map]
        cases hvalues : path.type.coerceList c.dateFormat arguments with
        | error _ =>
            rw [hvalues] at hsame
            generalize (path.type.coerceList c.dateFormat arguments').toOption = found at hsame ⊢
            cases hsame with
            | none => exact .none
        | ok values =>
            have hvalues_ne : values ≠ [] := by
              rintro rfl
              cases ValueType.reads_of_coerceList hvalues
              exact hne rfl
            rw [hvalues] at hsame
            generalize (path.type.coerceList c.dateFormat arguments').toOption = found at hsame ⊢
            cases hsame with
            | some hvalues' => exact .some (hrows path values _ ⟨_, hresolve⟩ hvalues_ne hvalues')
      · rw [compileNode, hone, hgroup]
        cases path.type.coerceList c.dateFormat arguments with
        | error _ => exact Iff.rfl
        | ok _ =>
            constructor
            · intro h
              cases h
            · intro h
              cases h

end Compiler

/-- **Membership is a disjunction of equalities.**  On every row a condition that asks for
one of several values, whatever these are, is as true as the disjunction of the
equalities, and its opposite as true as the conjunction of the inequalities.  For a
property whose arguments are no texts, `=in=` with some arguments has the outcome of the
`==` with one of them each, in any order and number, and `=out=` that of the `!=`: as many
rows match of every record, and where an argument cannot be read there is no filter.  With
the arguments in one order the error is the same as well. -/
theorem membership_is_disjunction :
    (∀ (table : PatternTable) (record : Json) (row : Row) (path : ResolvedPath)
      (values : List Value), values ≠ [] →
      (Predicate.test path (.isIn values)).eval table record row =
          (Predicate.any (values.map fun v => .test path (.equal v))).eval table record row ∧
        (Predicate.not (.test path (.isIn values))).eval table record row =
          (Predicate.all (values.map fun v => .test path (.notEqual v))).eval table record row) ∧
    ∀ (c : Compiler) (e : Entity) (selector : String) (arguments arguments' : List String),
      (∀ path, e.resolve selector = .ok path → ¬ path.type.IsText) → arguments ≠ [] →
      (∀ a, a ∈ arguments' ↔ a ∈ arguments) →
      (c.SameOutcome e (.comparison ⟨selector, .isIn, arguments⟩)
          (.group .any (arguments'.map fun a => .comparison ⟨selector, .equal, [a]⟩)) ∧
        ∀ error, c.compileNode e (.comparison ⟨selector, .isIn, arguments⟩) = .error error ↔
          c.compileNode e (.group .any (arguments.map fun a =>
            .comparison ⟨selector, .equal, [a]⟩)) = .error error) ∧
      (c.SameOutcome e (.comparison ⟨selector, .isNotIn, arguments⟩)
          (.group .all (arguments'.map fun a => .comparison ⟨selector, .notEqual, [a]⟩)) ∧
        ∀ error, c.compileNode e (.comparison ⟨selector, .isNotIn, arguments⟩) = .error error ↔
          c.compileNode e (.group .all (arguments.map fun a =>
            .comparison ⟨selector, .notEqual, [a]⟩)) = .error error) := by
  refine ⟨?_, ?_⟩
  · intro table record row path values hne
    exact ⟨Predicate.eval_isIn hne, Predicate.eval_not_isIn hne⟩
  · intro c e selector arguments arguments' htext hne hmem
    constructor
    · refine Compiler.sameOutcome_group (fun path values => .test path (.isIn values)) .equal
        trivial trivial (fun _ _ _ => rfl) (fun _ => rfl) ?_ ?_ hne hmem
      · intro path v hresolve hv
        rw [Predicate.ofOperator, hv.equalTo (htext path hresolve)]
      · intro path values values' hpath
        exact Filter.sameRows_isIn hpath
    · refine Compiler.sameOutcome_group (fun path values => .not (.test path (.isIn values)))
        .notEqual trivial trivial (fun _ _ _ => rfl) (fun _ => rfl) ?_ ?_ hne hmem
      · intro path v hresolve hv
        rw [Predicate.ofOperator, hv.notEqualTo (htext path hresolve)]
      · intro path values values' hpath
        exact Filter.sameRows_not_isIn hpath

/-- Two bytes, and the same two the other way round with one of them twice; a record without
the property is neither one of them nor none of them. -/
theorem membership_is_disjunction_age :
    (∃ f f', Compiler.standard.compile ⟨"E", [("age", .basic .byte)]⟩ (some "age=in=(5,-3)") =
        .ok (some f) ∧
      Compiler.standard.compile ⟨"E", [("age", .basic .byte)]⟩ (some "age==-3,age==5,age==-3") =
        .ok (some f') ∧ Filter.SameRows f f') ∧
    (∃ f f', Compiler.standard.compile ⟨"E", [("age", .basic .byte)]⟩ (some "age=out=(5,-3)") =
        .ok (some f) ∧
      Compiler.standard.compile ⟨"E", [("age", .basic .byte)]⟩ (some "age!=-3;age!=5;age!=-3") =
        .ok (some f') ∧ Filter.SameRows f f') ∧
    (Predicate.all [.test ⟨[⟨"age", none⟩], .byte⟩ (.notEqual (.int .byte 5)),
      .test ⟨[⟨"age", none⟩], .byte⟩ (.notEqual (.int .byte (-3)))]).eval [] (.object []) [] =
        none := by
  have htext : ∀ path, Entity.resolve ⟨"E", [("age", .basic .byte)]⟩ "age" = .ok path →
      ¬ path.type.IsText := by
    rintro path ⟨⟩
    simp [ValueType.IsText]
  have hmem : ∀ a, a ∈ ["-3", "5", "-3"] ↔ a ∈ ["5", "-3"] := by
    intro a
    simp only [List.mem_cons, List.not_mem_nil, or_false]
    tauto
  obtain ⟨⟨hin, _⟩, hout, _⟩ := membership_is_disjunction.2 .standard
    ⟨"E", [("age", .basic .byte)]⟩ "age" ["5", "-3"] ["-3", "5", "-3"] htext
    (List.cons_ne_nil _ _) hmem
  refine ⟨?_, ?_, ?_⟩
  · have hone : Compiler.standard.parse "age=in=(5,-3)" =
        .ok (.comparison ⟨"age", .isIn, ["5", "-3"]⟩) :=
      toOption_eq_some_iff.mp (by decide +kernel)
    have heach : Compiler.standard.parse "age==-3,age==5,age==-3" =
        .ok (.group .any (["-3", "5", "-3"].map fun a => .comparison ⟨"age", .equal, [a]⟩)) :=
      toOption_eq_some_iff.mp (by decide +kernel)
    refine ⟨_, _, Compiler.compile_of_parse hone, Compiler.compile_of_parse heach, ?_⟩
    cases hin.compiled with
    | some hrows => exact hrows
  · have hone : Compiler.standard.parse "age=out=(5,-3)" =
        .ok (.comparison ⟨"age", .isNotIn, ["5", "-3"]⟩) :=
      toOption_eq_some_iff.mp (by decide +kernel)
    have heach : Compiler.standard.parse "age!=-3;age!=5;age!=-3" =
        .ok (.group .all (["-3", "5", "-3"].map fun a => .comparison ⟨"age", .notEqual, [a]⟩)) :=
      toOption_eq_some_iff.mp (by decide +kernel)
    refine ⟨_, _, Compiler.compile_of_parse hone, Compiler.compile_of_parse heach, ?_⟩
    cases hout.compiled with
    | some hrows => exact hrows
  · exact (membership_is_disjunction.1 [] (.object []) [] ⟨[⟨"age", none⟩], .byte⟩
      [.int .byte 5, .int .byte (-3)] (List.cons_ne_nil _ _)).2.symm

end RecordFilter
