/-
# `Proofs.Compiler.Leaves` — a tree compiles as its comparisons do

A compiler goes through a tree from left to right and stops at the first failure.  So its
outcome is known from the outcomes of the comparisons, each compiled on its own:

    all of them compile    the tree of the same shape, with each comparison replaced by
                           what it compiles to                     (`compileNode_graft`)
    some of them fail      the error of the first that does      (`errorOf_compileNode`)

The errors of one comparison have an order, too.  The property is resolved before any
argument is read, and arguments are read up to the first that cannot be
(`compileComparison_eq_unknown_iff`, `compileComparison_eq_coercion_iff`).  The pattern
of dates is a matter of the settings: no expression is ever blamed for it.
-/
import RecordFilter.Proofs.Compiler.Typing

namespace RecordFilter

/-! ## Trees of one shape -/

mutual

/-- The predicate of the same shape, with `f` of each comparison in its place. -/
def Node.graft (f : Comparison → Predicate) : Node → Predicate
  | .all children => .all (Node.graftList f children)
  | .any children => .any (Node.graftList f children)
  | .comparison clause => f clause

def Node.graftList (f : Comparison → Predicate) : List Node → List Predicate
  | [] => []
  | child :: children => child.graft f :: Node.graftList f children

end

namespace Node

variable (f : Comparison → Predicate)

mutual

@[simp]
theorem tests_graft : ∀ n : Node,
    (n.graft f).tests = n.clauses.flatMap fun clause => (f clause).tests
  | .all children => testsList_graftList children
  | .any children => testsList_graftList children
  | .comparison _ => (List.flatMap_singleton ..).symm

theorem testsList_graftList : ∀ children : List Node,
    Predicate.testsList (graftList f children) =
      (clausesList children).flatMap fun clause => (f clause).tests
  | [] => rfl
  | child :: children => by
      rw [graftList, Predicate.testsList, clausesList, List.flatMap_append, tests_graft child,
        testsList_graftList children]

end

end Node

namespace Compiler

variable {c : Compiler} {e : Entity} {f : Comparison → Predicate}

mutual

/-- **A tree whose comparisons compile compiles to the tree of their predicates.** -/
theorem compileNode_graft : ∀ n : Node,
    (∀ clause ∈ n.clauses, c.compileComparison e clause = .ok (f clause)) →
    c.compileNode e n = .ok (n.graft f)
  | .all children, h => by
      rw [compileNode, compileNodes_graft children h]
      rfl
  | .any children, h => by
      rw [compileNode, compileNodes_graft children h]
      rfl
  | .comparison clause, h => h clause List.mem_cons_self

theorem compileNodes_graft : ∀ children : List Node,
    (∀ clause ∈ Node.clausesList children, c.compileComparison e clause = .ok (f clause)) →
    c.compileNodes e children = .ok (Node.graftList f children)
  | [], _ => rfl
  | child :: children, h => by
      obtain ⟨hchild, hchildren⟩ := List.forall_mem_append.mp h
      rw [compileNodes, compileNode_graft child hchild, compileNodes_graft children hchildren]
      rfl

end

mutual

/-- **The error of a tree is the first of the errors of its comparisons.** -/
theorem errorOf_compileNode : ∀ n : Node,
    errorOf (c.compileNode e n) =
      n.clauses.findSome? fun clause => errorOf (c.compileComparison e clause)
  | .all children => by simp [compileNode, errorOf_compileNodes children, Node.clauses]
  | .any children => by simp [compileNode, errorOf_compileNodes children, Node.clauses]
  | .comparison clause => by simp [compileNode, Node.clauses]

theorem errorOf_compileNodes : ∀ children : List Node,
    errorOf (c.compileNodes e children) =
      (Node.clausesList children).findSome? fun clause => errorOf (c.compileComparison e clause)
  | [] => rfl
  | child :: children => by
      rw [compileNodes, Node.clausesList, List.findSome?_append, ← errorOf_compileNode child,
        ← errorOf_compileNodes children]
      cases c.compileNode e child with
      | error _ => rfl
      | ok _ => exact errorOf_map _ _

end

/-- What all comparisons compile to, in one function. -/
theorem exists_compiled {clauses : List Comparison}
    (h : ∀ clause ∈ clauses, ∃ p, c.compileComparison e clause = .ok p) :
    ∃ f : Comparison → Predicate,
      ∀ clause ∈ clauses, c.compileComparison e clause = .ok (f clause) := by
  refine ⟨fun clause => (c.compileComparison e clause).toOption.getD default, ?_⟩
  intro clause hclause
  obtain ⟨p, hp⟩ := h clause hclause
  simp only [hp, Except.toOption, Option.getD_some]

theorem exists_graft_of_compileNode {n : Node} {p : Predicate} (h : c.compileNode e n = .ok p) :
    ∃ f : Comparison → Predicate,
      (∀ clause ∈ n.clauses, c.compileComparison e clause = .ok (f clause)) ∧ p = n.graft f := by
  have hnone := errorOf_eq_none_iff.mpr ⟨p, h⟩
  rw [errorOf_compileNode, List.findSome?_eq_none_iff] at hnone
  obtain ⟨f, hf⟩ := exists_compiled fun clause hclause =>
    errorOf_eq_none_iff.mp (hnone clause hclause)
  refine ⟨f, hf, ?_⟩
  rw [compileNode_graft n hf] at h
  exact (Except.ok.inj h).symm

end Compiler

/-! ## The errors of one comparison -/

/-- Once there are values, an operator may only refuse them or the property. -/
theorem Predicate.error_of_ofOperator {selector : String} {path : ResolvedPath} {first : Value}
    {values : List Value} {operator : Operator} {error : Error}
    (h : ofOperator selector path first values operator = .error error) :
    ∃ property fault, error = .compilation property fault := by
  have hflag : ∀ {error : Error}, path.flag first = .error error →
      ∃ property fault, error = .compilation property fault := by
    intro error h
    cases first with
    | text text =>
        simp only [ResolvedPath.flag] at h
        split at h
        · cases h
        · split at h
          · cases h
          · cases h
            exact ⟨_, _, rfl⟩
    | _ =>
        cases h
        exact ⟨_, _, rfl⟩
  cases operator with
  | isNull =>
      simp only [ofOperator] at h
      cases hcase : path.flag first with
      | error other =>
          rw [hcase] at h
          cases h
          exact hflag hcase
      | ok flag =>
          rw [hcase] at h
          cases flag <;> cases h
  | isEmpty =>
      simp only [ofOperator] at h
      split at h
      · cases h
        exact ⟨_, _, rfl⟩
      · cases hcase : path.flag first with
        | error other =>
            rw [hcase] at h
            cases h
            exact hflag hcase
        | ok flag =>
            rw [hcase] at h
            cases flag <;> cases h
  | _ => cases h

namespace ValueType

variable {type : ValueType} {format : DateFormat}

theorem errorOf_coerceList (arguments : List String) :
    errorOf (type.coerceList format arguments) =
      arguments.findSome? fun argument => errorOf (type.coerce argument format) := by
  induction arguments with
  | nil => rfl
  | cons argument arguments ih =>
      rw [coerceList, List.findSome?_cons, ← ih]
      cases type.coerce argument format with
      | error _ => rfl
      | ok _ => exact errorOf_map _ _

/-- **Arguments are read up to the first that cannot be**, unless they are no data. -/
theorem coerceArguments_eq_error_iff {operator : Operator} {arguments : List String}
    {error : CoercionError} :
    type.coerceArguments operator arguments format = .error error ↔
      operator.TakesValues ∧ ∃ front argument back, arguments = front ++ argument :: back ∧
        (∀ other ∈ front, ∃ v, type.coerce other format = .ok v) ∧
        type.coerce argument format = .error error := by
  by_cases hop : operator.TakesValues
  · rw [coerceArguments_eq hop, ← errorOf_eq_some_iff, errorOf_coerceList,
      findSome?_errorOf_eq_some_iff]
    exact (and_iff_right hop).symm
  · constructor
    · intro h
      cases operator with
      | isNull => cases h
      | isEmpty => cases h
      | _ => exact absurd trivial hop
    · rintro ⟨h, _⟩
      exact absurd h hop

end ValueType

namespace Compiler

variable {c : Compiler} {e : Entity} {clause : Comparison}

/-- **The property comes first**: a comparison is blamed for it whatever its arguments. -/
theorem compileComparison_eq_unknown_iff {u : UnknownProperty} :
    c.compileComparison e clause = .error (.unknownProperty u) ↔
      e.resolve clause.selector = .error u := by
  rw [compileComparison]
  cases e.resolve clause.selector with
  | error other => simp only [Except.error.injEq, Error.unknownProperty.injEq]
  | ok path =>
      dsimp only
      constructor
      · intro h
        split at h
        · cases h
        · cases h
        · obtain ⟨_, _, herror⟩ := Predicate.error_of_ofOperator h
          cases herror
      · intro h
        cases h

/-- **Arguments come second**, and of these the first that cannot be read. -/
theorem compileComparison_eq_coercion_iff {error : CoercionError} :
    c.compileComparison e clause = .error (.coercion error) ↔
      ∃ path, e.resolve clause.selector = .ok path ∧
        path.type.coerceArguments clause.operator clause.arguments c.dateFormat = .error error := by
  rw [compileComparison]
  cases e.resolve clause.selector with
  | error other =>
      constructor
      · intro h
        cases h
      · rintro ⟨_, h, _⟩
        cases h
  | ok path =>
      simp only [Except.ok.injEq, exists_eq_left']
      constructor
      · intro h
        split at h
        · next herror =>
            cases h
            exact herror
        · cases h
        · obtain ⟨_, _, herror⟩ := Predicate.error_of_ofOperator h
          cases herror
      · intro h
        rw [h]

theorem isClientError_of_compileComparison {error : Error}
    (h : c.compileComparison e clause = .error error) : error.isClientError = true := by
  rw [compileComparison] at h
  split at h
  · cases h
    rfl
  · split at h
    · cases h
      rfl
    · cases h
      rfl
    · obtain ⟨_, _, rfl⟩ := Predicate.error_of_ofOperator h
      rfl

theorem isClientError_of_compileNode {n : Node} {error : Error}
    (h : c.compileNode e n = .error error) : error.isClientError = true := by
  rw [← errorOf_eq_some_iff, errorOf_compileNode, findSome?_errorOf_eq_some_iff] at h
  obtain ⟨_, _, _, _, _, hclause⟩ := h
  exact isClientError_of_compileComparison hclause

theorem isClientError_of_compile {query : Option String} {error : Error}
    (h : c.compile e query = .error error) : error.isClientError = true := by
  cases query with
  | none => cases h
  | some text =>
      rw [compile] at h
      split at h
      · cases h
      · split at h
        · next hparse =>
            cases h
            rw [parse] at hparse
            cases hnode : Node.parse text c.operators with
            | error _ =>
                rw [hnode] at hparse
                cases hparse
                rfl
            | ok _ =>
                rw [hnode] at hparse
                cases hparse
        · exact isClientError_of_compileNode (map_eq_error_iff.mp h)

end Compiler

/-- **Compilation is all or nothing, and the leftmost error is told.**  If all comparisons of
a tree compile on their own, the tree compiles to the predicate of its shape with each of
them replaced.  If not, its error is that of the first comparison that fails.  A comparison
fails for its property as soon as this does not resolve, whatever the arguments; and for an
argument if the property resolves and the arguments in front of it can be read.  Whatever
the error of a compilation is, the text of the filter is to blame and not the pattern of
dates. -/
theorem compile_all_or_nothing (c : Compiler) (e : Entity) :
    (∀ n : Node, (∀ clause ∈ n.clauses, ∃ p, c.compileComparison e clause = .ok p) →
      ∃ f : Comparison → Predicate,
        (∀ clause ∈ n.clauses, c.compileComparison e clause = .ok (f clause)) ∧
        c.compileNode e n = .ok (n.graft f)) ∧
    (∀ n : Node, ¬ (∀ clause ∈ n.clauses, ∃ p, c.compileComparison e clause = .ok p) →
      ∃ front clause back error, n.clauses = front ++ clause :: back ∧
        (∀ other ∈ front, ∃ p, c.compileComparison e other = .ok p) ∧
        c.compileComparison e clause = .error error ∧ c.compileNode e n = .error error) ∧
    (∀ clause u, c.compileComparison e clause = .error (.unknownProperty u) ↔
      e.resolve clause.selector = .error u) ∧
    (∀ clause error, c.compileComparison e clause = .error (.coercion error) ↔
      ∃ path, e.resolve clause.selector = .ok path ∧ clause.operator.TakesValues ∧
        ∃ front argument back, clause.arguments = front ++ argument :: back ∧
          (∀ other ∈ front, ∃ v, path.type.coerce other c.dateFormat = .ok v) ∧
          path.type.coerce argument c.dateFormat = .error error) ∧
    ∀ error, (∃ n, c.compileNode e n = .error error) ∨
        (∃ query, c.compile e query = .error error ∨ c.compileDistinct e query = .error error) →
      (∀ pattern fault, error ≠ .datePattern pattern fault) ∧ error.isClientError = true := by
  refine ⟨?_, ?_, ?_, ?_, ?_⟩
  · intro n h
    obtain ⟨f, hf⟩ := Compiler.exists_compiled h
    exact ⟨f, hf, Compiler.compileNode_graft n hf⟩
  · intro n h
    cases herror : n.clauses.findSome? fun clause => errorOf (c.compileComparison e clause) with
    | none =>
        refine absurd (fun clause hclause => ?_) h
        exact errorOf_eq_none_iff.mp (List.findSome?_eq_none_iff.mp herror clause hclause)
    | some error =>
        obtain ⟨front, clause, back, hclauses, hfront, hclause⟩ :=
          findSome?_errorOf_eq_some_iff.mp herror
        refine ⟨front, clause, back, error, hclauses, hfront, hclause, ?_⟩
        rw [← errorOf_eq_some_iff, Compiler.errorOf_compileNode, herror]
  · intro clause u
    exact Compiler.compileComparison_eq_unknown_iff
  · intro clause error
    simp only [Compiler.compileComparison_eq_coercion_iff, ValueType.coerceArguments_eq_error_iff]
  · intro error h
    have hclient : error.isClientError = true := by
      rcases h with ⟨n, h⟩ | ⟨query, h | h⟩
      · exact Compiler.isClientError_of_compileNode h
      · exact Compiler.isClientError_of_compile h
      · exact Compiler.isClientError_of_compile (map_eq_error_iff.mp h)
    refine ⟨?_, hclient⟩
    rintro pattern fault rfl
    cases hclient

/-- A tree of two levels that compiles, and one where the second of three ages is no number
and a later property is not known. -/
theorem compile_all_or_nothing_ages :
    (∃ f : Comparison → Predicate, Compiler.standard.compileNode
        ⟨"E", [("age", .basic .integer), ("name", .basic .string)]⟩
        (.all [.comparison ⟨"name", .equal, ["a*"]⟩,
          .any [.comparison ⟨"age", .isIn, ["5", "7"]⟩]]) =
      .ok (.all [f ⟨"name", .equal, ["a*"]⟩, .any [f ⟨"age", .isIn, ["5", "7"]⟩]])) ∧
    Compiler.standard.compileComparison
        ⟨"E", [("age", .basic .integer), ("name", .basic .string)]⟩
        ⟨"age", .isIn, ["5", "old", "older"]⟩ =
      .error (.coercion ⟨"old", .integer, .integer .invalidDigit⟩) ∧
    ∃ error, Compiler.standard.compileNode
        ⟨"E", [("age", .basic .integer), ("name", .basic .string)]⟩
        (.any [.comparison ⟨"age", .isIn, ["5", "old", "older"]⟩,
          .comparison ⟨"rank", .equal, ["1"]⟩]) = .error error ∧ error.isClientError = true := by
  obtain ⟨hall, hfirst, _, hargument, hclient⟩ := compile_all_or_nothing .standard
    ⟨"E", [("age", .basic .integer), ("name", .basic .string)]⟩
  have hold := (hargument ⟨"age", .isIn, ["5", "old", "older"]⟩
    ⟨"old", .integer, .integer .invalidDigit⟩).mpr
    ⟨⟨[⟨"age", none⟩], .integer⟩, rfl, trivial, ["5"], "old", ["older"], rfl,
      List.forall_mem_singleton.mpr ⟨.int .integer 5, rfl⟩, rfl⟩
  refine ⟨?_, hold, ?_⟩
  · obtain ⟨f, _, hf⟩ := hall (.all [.comparison ⟨"name", .equal, ["a*"]⟩,
      .any [.comparison ⟨"age", .isIn, ["5", "7"]⟩]])
      (List.forall_mem_cons.mpr ⟨⟨_, rfl⟩, List.forall_mem_singleton.mpr ⟨_, rfl⟩⟩)
    exact ⟨f, hf⟩
  · obtain ⟨_, _, _, error, _, _, _, herror⟩ := hfirst
      (.any [.comparison ⟨"age", .isIn, ["5", "old", "older"]⟩,
        .comparison ⟨"rank", .equal, ["1"]⟩]) (fun h => by
      obtain ⟨p, hp⟩ := h _ List.mem_cons_self
      rw [hold] at hp
      cases hp)
    exact ⟨error, herror, (hclient error (.inl ⟨_, herror⟩)).2⟩

end RecordFilter
