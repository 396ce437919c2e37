/-
# `Proofs.Compiler.Paths` — compiling for another entity

A compiler looks at an entity through its resolved paths only: at what a selector
resolves to, and of that at the type and at whether it is a collection.  So where
the selectors of one entity, written another way, resolve on another entity to
paths of the same types (`Entity.Rerouted`), an expression compiles there to the
same predicate over the other paths (`Compiler.compileNode_rerouted`).  Messages
may tell a path in another way, so the two are compared up to the error.

An expression that was read has members in every group, and so has the predicate that it
is compiled to (`Compiler.populated_of_compileNode`); a compiled predicate has resolved
paths only.  Both are wanted of the plan that the predicate gets.
-/
import RecordFilter.Compiler
import RecordFilter.Proofs.Evaluation.Truth
import RecordFilter.Proofs.Node.RoundTrip
import RecordFilter.Proofs.Outcome
import RecordFilter.Proofs.Path.Resolution

namespace RecordFilter

/-! ## Other selectors -/

mutual

/-- The expression with each selector written another way. -/
def Node.mapSelectors (g : String → String) : Node → Node
  | .all children => .all (Node.mapSelectorsList g children)
  | .any children => .any (Node.mapSelectorsList g children)
  | .comparison clause => .comparison { clause with selector := g clause.selector }

def Node.mapSelectorsList (g : String → String) : List Node → List Node
  | [] => []
  | child :: children => child.mapSelectors g :: Node.mapSelectorsList g children

end

namespace Node

mutual

@[simp]
theorem mapSelectors_id : ∀ n : Node, n.mapSelectors id = n
  | .all children => by rw [mapSelectors, mapSelectorsList_id children]
  | .any children => by rw [mapSelectors, mapSelectorsList_id children]
  | .comparison _ => rfl

theorem mapSelectorsList_id : ∀ children : List Node, mapSelectorsList id children = children
  | [] => rfl
  | child :: children => by
      rw [mapSelectorsList, mapSelectors_id child, mapSelectorsList_id children]

end

end Node

/-- Selectors of `e`, written as `g` says, resolve on `e'` to the paths that `f`
gives for theirs, and these hold values of the same types. -/
structure Entity.Rerouted (e e' : Entity) (g : String → String)
    (f : ResolvedPath → ResolvedPath) : Prop where
  resolve : ∀ selector,
    (e'.resolve (g selector)).toOption = (e.resolve selector).toOption.map f
  type : ∀ path, e.Resolves path → (f path).type = path.type
  isCollection : ∀ path, e.Resolves path → (f path).isCollection = path.isCollection

/-! ## One comparison -/

theorem ResolvedPath.flag_toOption (path path' : ResolvedPath) (argument : Value) :
    (path.flag argument).toOption = (path'.flag argument).toOption := by
  cases argument with
  | text text =>
      simp only [ResolvedPath.flag]
      split
      · rfl
      · split <;> rfl
  | _ => rfl

section Compiling

variable {c : Compiler} {e e' : Entity} {g : String → String} {f : ResolvedPath → ResolvedPath}

theorem Predicate.ofOperator_mapPaths {path : ResolvedPath} (htype : (f path).type = path.type)
    (hcollection : (f path).isCollection = path.isCollection) (selector selector' : String)
    (first : Value) (values : List Value) (operator : Operator) :
    (Predicate.ofOperator selector' (f path) first values operator).toOption =
      (Predicate.ofOperator selector path first values operator).toOption.map
        (Predicate.mapPaths f) := by
  have hflag := ResolvedPath.flag_toOption (f path) path first
  cases operator with
  | equal =>
      simp only [Predicate.ofOperator, htype]
      rfl
  | isNull =>
      simp only [Predicate.ofOperator, toOption_bind, hflag]
      cases (path.flag first).toOption with
      | none => rfl
      | some flag => cases flag <;> rfl
  | isEmpty =>
      simp only [Predicate.ofOperator, hcollection]
      cases path.isCollection with
      | false => rfl
      | true =>
          simp only [Bool.not_true, Bool.false_eq_true, if_false, toOption_bind, hflag]
          cases (path.flag first).toOption with
          | none => rfl
          | some flag => cases flag <;> rfl
  | _ => rfl

theorem Compiler.compileComparison_rerouted (h : e.Rerouted e' g f) (clause : Comparison) :
    (c.compileComparison e' { clause with selector := g clause.selector }).toOption =
      (c.compileComparison e clause).toOption.map (Predicate.mapPaths f) := by
  have hresolve := h.resolve clause.selector
  rw [compileComparison, compileComparison]
  cases hpath : e.resolve clause.selector with
  | error u =>
      rw [hpath] at hresolve
      cases hpath' : e'.resolve (g clause.selector) with
      | error u' => rfl
      | ok path => rw [hpath'] at hresolve; cases hresolve
  | ok path =>
      rw [hpath] at hresolve
      have htype : (f path).type = path.type := h.type path ⟨_, hpath⟩
      simp only [toOption_eq_some_iff.mp hresolve, htype]
      cases path.type.coerceArguments clause.operator clause.arguments c.dateFormat with
      | error u => rfl
      | ok values =>
          cases values with
          | nil => rfl
          | cons first rest =>
              exact Predicate.ofOperator_mapPaths htype (h.isCollection path ⟨_, hpath⟩) _ _ _ _ _

/-! ## Whole expressions -/

namespace Compiler

theorem compileNodes_cons (c : Compiler) (e : Entity) (child : Node) (children : List Node) :
    (c.compileNodes e (child :: children)).toOption =
      (c.compileNode e child).toOption.bind fun operand =>
        (c.compileNodes e children).toOption.map (operand :: ·) := by
  rw [compileNodes]
  cases c.compileNode e child with
  | error error => rfl
  | ok operand => exact toOption_map _ _

mutual

/-- **An expression compiles on the other entity as it does on the first**, over the
other paths. -/
theorem compileNode_rerouted (h : e.Rerouted e' g f) : ∀ n : Node,
    (c.compileNode e' (n.mapSelectors g)).toOption =
      (c.compileNode e n).toOption.map (Predicate.mapPaths f)
  | .all children => by
      simp [Node.mapSelectors, compileNode, compileNodes_rerouted h children, Function.comp_def,
        Predicate.mapPaths]
  | .any children => by
      simp [Node.mapSelectors, compileNode, compileNodes_rerouted h children, Function.comp_def,
        Predicate.mapPaths]
  | .comparison clause => by
      rw [Node.mapSelectors, compileNode, compileNode, compileComparison_rerouted h]

theorem compileNodes_rerouted (h : e.Rerouted e' g f) : ∀ children : List Node,
    (c.compileNodes e' (Node.mapSelectorsList g children)).toOption =
      (c.compileNodes e children).toOption.map (Predicate.mapPathsList f)
  | [] => rfl
  | child :: children => by
      rw [Node.mapSelectorsList, compileNodes_cons, compileNodes_cons, compileNode_rerouted h child,
        compileNodes_rerouted h children]
      cases (c.compileNode e child).toOption with
      | none => rfl
      | some operand => cases (c.compileNodes e children).toOption <;> rfl

end

end Compiler

end Compiling

/-! ## Compiled predicates -/

/-- What an operator asks of a path, given its first argument and all of them: a condition,
or the opposite of one.  A flag that is not set asks for the opposite condition. -/
inductive Predicate.Asks (path : ResolvedPath) (first : Value) (values : List Value) :
    Operator → Predicate → Prop
  | equal : Asks path first values .equal (.test path (.equalTo path.type first))
  | notEqual : Asks path first values .notEqual (.test path (.notEqualTo first))
  | greaterThan : Asks path first values .greaterThan (.test path (.ordered .greater first))
  | greaterOrEqual :
      Asks path first values .greaterOrEqual (.test path (.ordered .greaterOrEqual first))
  | lessThan : Asks path first values .lessThan (.test path (.ordered .less first))
  | lessOrEqual : Asks path first values .lessOrEqual (.test path (.ordered .lessOrEqual first))
  | isIn : Asks path first values .isIn (.test path (.isIn values))
  | isNotIn : Asks path first values .isNotIn (.not (.test path (.isIn values)))
  | isNull : path.flag first = .ok true → Asks path first values .isNull (.test path .isNull)
  | isNotNull :
      path.flag first = .ok false → Asks path first values .isNull (.test path .isNotNull)
  | isEmpty : path.isCollection = true → path.flag first = .ok true →
      Asks path first values .isEmpty (.test path .isEmpty)
  | isNotEmpty : path.isCollection = true → path.flag first = .ok false →
      Asks path first values .isEmpty (.test path .isNotEmpty)

/-- **An operator asks for nothing else.** -/
theorem Predicate.asks_of_ofOperator {selector : String} {path : ResolvedPath} {first : Value}
    {values : List Value} {operator : Operator} {p : Predicate}
    (h : Predicate.ofOperator selector path first values operator = .ok p) :
    Asks path first values operator p := by
  cases operator with
  | equal => cases h; exact .equal
  | notEqual => cases h; exact .notEqual
  | greaterThan => cases h; exact .greaterThan
  | greaterOrEqual => cases h; exact .greaterOrEqual
  | lessThan => cases h; exact .lessThan
  | lessOrEqual => cases h; exact .lessOrEqual
  | isIn => cases h; exact .isIn
  | isNotIn => cases h; exact .isNotIn
  | isNull =>
      simp only [Predicate.ofOperator] at h
      cases hflag : path.flag first with
      | error error => rw [hflag] at h; cases h
      | ok flag =>
          rw [hflag] at h
          cases flag with
          | true => cases h; exact .isNull hflag
          | false => cases h; exact .isNotNull hflag
  | isEmpty =>
      simp only [Predicate.ofOperator] at h
      split at h
      · cases h
      · next hcollection =>
          rw [Bool.not_eq_true, Bool.not_eq_false'] at hcollection
          cases hflag : path.flag first with
          | error error => rw [hflag] at h; cases h
          | ok flag =>
              rw [hflag] at h
              cases flag with
              | true => cases h; exact .isEmpty hcollection hflag
              | false => cases h; exact .isNotEmpty hcollection hflag

theorem Predicate.Asks.paths_eq {path : ResolvedPath} {first : Value} {values : List Value}
    {operator : Operator} {p : Predicate} (h : Asks path first values operator p) :
    p.paths = [path] := by
  cases h <;> rfl

/-- Every connective in the predicate has an operand. -/
inductive Predicate.Populated : Predicate → Prop
  | all {ps : List Predicate} : ps ≠ [] → (∀ p ∈ ps, Populated p) → Populated (.all ps)
  | any {ps : List Predicate} : ps ≠ [] → (∀ p ∈ ps, Populated p) → Populated (.any ps)
  | not {p : Predicate} : Populated p → Populated (.not p)
  | test (path : ResolvedPath) (condition : Condition) : Populated (.test path condition)

theorem Predicate.Asks.populated {path : ResolvedPath} {first : Value} {values : List Value}
    {operator : Operator} {p : Predicate} (h : Asks path first values operator p) :
    p.Populated := by
  cases h with
  | isNotIn => exact .not (.test path _)
  | _ => exact .test path _

theorem Predicate.Populated.paths_ne_nil {p : Predicate} (h : p.Populated) : p.paths ≠ [] := by
  have hgroup : ∀ {ps : List Predicate}, ps ≠ [] → (∀ p ∈ ps, p.paths ≠ []) →
      pathsList ps ≠ [] := by
    intro ps hne ih
    obtain ⟨p, ps, rfl⟩ := List.exists_cons_of_ne_nil hne
    exact List.append_ne_nil_of_left_ne_nil (ih p List.mem_cons_self) _
  induction h with
  | all hne _ ih => exact hgroup hne ih
  | any hne _ ih => exact hgroup hne ih
  | not _ ih => exact ih
  | test path _ => exact List.cons_ne_nil path []

namespace Compiler

variable {c : Compiler} {e : Entity}

/-- **A comparison that compiles has a path and arguments**, and its operator asks for the
predicate. -/
theorem asks_of_compileComparison {clause : Comparison} {p : Predicate}
    (h : c.compileComparison e clause = .ok p) :
    ∃ path first rest, e.resolve clause.selector = .ok path ∧
      path.type.coerceArguments clause.operator clause.arguments c.dateFormat =
        .ok (first :: rest) ∧
      Predicate.Asks path first (first :: rest) clause.operator p := by
  rw [compileComparison] at h
  split at h
  · cases h
  · next path hpath =>
      split at h
      · cases h
      · cases h
      · next first rest hvalues =>
          exact ⟨path, first, rest, hpath, hvalues, Predicate.asks_of_ofOperator h⟩

theorem compileComparison_paths {clause : Comparison} {p : Predicate}
    (h : c.compileComparison e clause = .ok p) :
    ∃ path, e.resolve clause.selector = .ok path ∧ p.paths = [path] := by
  obtain ⟨path, _, _, hpath, _, hasks⟩ := asks_of_compileComparison h
  exact ⟨path, hpath, hasks.paths_eq⟩

theorem compileNodes_cons_ok {child : Node} {children : List Node} {ps : List Predicate}
    (h : c.compileNodes e (child :: children) = .ok ps) :
    ∃ operand operands, c.compileNode e child = .ok operand ∧
      c.compileNodes e children = .ok operands ∧ ps = operand :: operands := by
  rw [← toOption_eq_some_iff, compileNodes_cons, Option.bind_eq_some_iff] at h
  obtain ⟨operand, hchild, h⟩ := h
  obtain ⟨operands, hchildren, rfl⟩ := Option.map_eq_some_iff.mp h
  exact ⟨operand, operands, toOption_eq_some_iff.mp hchild, toOption_eq_some_iff.mp hchildren, rfl⟩

theorem exists_child_of_compileNodes {children : List Node} :
    ∀ {operands : List Predicate}, c.compileNodes e children = .ok operands →
      ∀ operand ∈ operands, ∃ child ∈ children, c.compileNode e child = .ok operand := by
  induction children with
  | nil =>
      intro operands h
      cases h
      exact List.forall_mem_nil _
  | cons child children ih =>
      intro operands h
      obtain ⟨operand, operands, hchild, hchildren, rfl⟩ := compileNodes_cons_ok h
      refine List.forall_mem_cons.mpr ⟨⟨child, List.mem_cons_self, hchild⟩, fun other hother => ?_⟩
      obtain ⟨found, hfound, hcompile⟩ := ih hchildren other hother
      exact ⟨found, List.mem_cons_of_mem child hfound, hcompile⟩

theorem compileNodes_ne_nil {children : List Node} {operands : List Predicate}
    (h : c.compileNodes e children = .ok operands) (hne : children ≠ []) : operands ≠ [] := by
  obtain ⟨child, children, rfl⟩ := List.exists_cons_of_ne_nil hne
  obtain ⟨operand, operands, _, _, rfl⟩ := compileNodes_cons_ok h
  exact List.cons_ne_nil operand operands

mutual

theorem resolves_of_compileNode : ∀ {n : Node} {p : Predicate}, c.compileNode e n = .ok p →
    ∀ path ∈ p.paths, e.Resolves path
  | .all children, p, h => by
      rw [compileNode, map_eq_ok_iff] at h
      obtain ⟨operands, hchildren, rfl⟩ := h
      exact resolves_of_compileNodes hchildren
  | .any children, p, h => by
      rw [compileNode, map_eq_ok_iff] at h
      obtain ⟨operands, hchildren, rfl⟩ := h
      exact resolves_of_compileNodes hchildren
  | .comparison clause, p, h => by
      obtain ⟨path, hpath, hpaths⟩ := compileComparison_paths h
      rw [hpaths]
      exact List.forall_mem_singleton.mpr ⟨_, hpath⟩

theorem resolves_of_compileNodes : ∀ {children : List Node} {ps : List Predicate},
    c.compileNodes e children = .ok ps → ∀ path ∈ Predicate.pathsList ps, e.Resolves path
  | [], ps, h => by
      cases h
      exact fun _ hpath => nomatch hpath
  | child :: children, ps, h => by
      obtain ⟨operand, operands, hchild, hchildren, rfl⟩ := compileNodes_cons_ok h
      intro path hpath
      rcases List.mem_append.mp hpath with hpath | hpath
      · exact resolves_of_compileNode hchild path hpath
      · exact resolves_of_compileNodes hchildren path hpath

end

/-- **A group that can be written has members**, and so has what it is compiled to. -/
theorem populated_of_compileNode {ops : OperatorSet} {n : Node} (hn : n.WellFormed ops) :
    ∀ {p : Predicate}, c.compileNode e n = .ok p → p.Populated := by
  have hgroup : ∀ {children : List Node} {operands : List Predicate}, 2 ≤ children.length →
      (∀ child ∈ children, ∀ {p : Predicate}, c.compileNode e child = .ok p → p.Populated) →
      c.compileNodes e children = .ok operands →
      operands ≠ [] ∧ ∀ operand ∈ operands, operand.Populated := by
    intro children operands hlen ih h
    have hne := List.ne_nil_of_length_pos (Nat.lt_of_lt_of_le Nat.zero_lt_two hlen)
    refine ⟨compileNodes_ne_nil h hne, fun operand hoperand => ?_⟩
    obtain ⟨child, hchild, hcompile⟩ := exists_child_of_compileNodes h operand hoperand
    exact ih child hchild hcompile
  induction hn with
  | all hlen _ ih =>
      intro p h
      rw [compileNode, map_eq_ok_iff] at h
      obtain ⟨operands, hchildren, rfl⟩ := h
      obtain ⟨hne, hoperands⟩ := hgroup hlen ih hchildren
      exact .all hne hoperands
  | any hlen _ ih =>
      intro p h
      rw [compileNode, map_eq_ok_iff] at h
      obtain ⟨operands, hchildren, rfl⟩ := h
      obtain ⟨hne, hoperands⟩ := hgroup hlen ih hchildren
      exact .any hne hoperands
  | comparison _ =>
      intro p h
      obtain ⟨path, first, rest, _, _, hasks⟩ := asks_of_compileComparison h
      exact hasks.populated

theorem paths_ne_nil {ops : OperatorSet} {n : Node} (hn : n.WellFormed ops) {p : Predicate}
    (h : c.compileNode e n = .ok p) : p.paths ≠ [] :=
  (populated_of_compileNode hn h).paths_ne_nil

end Compiler

end RecordFilter
