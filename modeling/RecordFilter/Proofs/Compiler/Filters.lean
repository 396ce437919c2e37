/-
# `Proofs.Compiler.Filters` — what a filter is compiled from

A filter comes from an expression that was read, and so from one that can be written
(`Compiler.exists_node_of_compile`).  Two things follow for its paths: the entity resolves
them all (`resolvedIn_of_compile`), and they are spelled with the characters of a selector
only (`spelled_of_compile`), whatever names the schema has.  No quote and no other sign of
the language stands in a name that a filter reads.
-/
import RecordFilter.Proofs.Compiler.Paths
import RecordFilter.Proofs.Path.Labels
import RecordFilter.Proofs.Predicate.Plan

namespace RecordFilter

/-! ## Names -/

/-- The names of the path are spelled with the characters of a selector. -/
def ResolvedPath.Spelled (p : ResolvedPath) : Prop :=
  ∀ name ∈ p.names, ∀ ch ∈ name.toList, Token.isUnreserved ch = true

theorem ResolvedPath.Spelled.lacks {p : ResolvedPath} {ch : Char} (h : p.Spelled)
    (hch : Token.isUnreserved ch = false) : p.Lacks ch where
  ne_dot := by
    rintro rfl
    cases hch
  notMem name hname hmem := by
    rw [h name hname ch hmem] at hch
    cases hch

theorem Entity.spelled_of_resolve {e : Entity} {property : String} {p : ResolvedPath}
    (h : e.resolve property = .ok p)
    (hproperty : ∀ ch ∈ property.toList, Token.isUnreserved ch = true) : p.Spelled := by
  intro name hname ch hch
  exact hproperty ch ((of_mem_names h hname).2 ch hch)

namespace Compiler

variable {c : Compiler} {e : Entity}

/-! ## Expressions that can be written -/

theorem wellFormed_of_parse {query : String} {n : Node} (h : c.parse query = .ok n) :
    n.WellFormed c.operators := by
  have hparse : Node.parse query c.operators = .ok n := by
    rw [← toOption_eq_some_iff, Compiler.parse, toOption_mapError] at h
    exact toOption_eq_some_iff.mp h
  exact Node.wellFormed_of_parse hparse

theorem forall_paths_of_compileNodes {P : ResolvedPath → Prop} {children : List Node} :
    ∀ {operands : List Predicate}, c.compileNodes e children = .ok operands →
      (∀ child ∈ children, ∀ operand, c.compileNode e child = .ok operand →
        ∀ path ∈ operand.paths, P path) →
      ∀ path ∈ Predicate.pathsList operands, P path := by
  intro operands h hall path hpath
  obtain ⟨operand, hoperand, hpath⟩ := Predicate.mem_pathsList.mp hpath
  obtain ⟨child, hchild, hcompile⟩ := exists_child_of_compileNodes h operand hoperand
  exact hall child hchild operand hcompile path hpath

theorem spelled_of_compileNode {ops : OperatorSet} {n : Node} (hn : n.WellFormed ops) :
    ∀ p, c.compileNode e n = .ok p → ∀ path ∈ p.paths, path.Spelled := by
  induction hn with
  | all _ _ ih =>
      intro p h
      rw [compileNode, map_eq_ok_iff] at h
      obtain ⟨operands, hchildren, rfl⟩ := h
      exact forall_paths_of_compileNodes hchildren ih
  | any _ _ ih =>
      intro p h
      rw [compileNode, map_eq_ok_iff] at h
      obtain ⟨operands, hchildren, rfl⟩ := h
      exact forall_paths_of_compileNodes hchildren ih
  | comparison hclause =>
      intro p h
      obtain ⟨path, hpath, hpaths⟩ := compileComparison_paths h
      rw [hpaths]
      exact List.forall_mem_singleton.mpr
        (Entity.spelled_of_resolve hpath hclause.selector_unreserved)

/-! ## Filters -/

variable {query : Option String} {f : Filter}

theorem exists_node_of_compile (h : c.compile e query = .ok (some f)) :
    ∃ text n p, query = some text ∧ c.parse text = .ok n ∧ c.compileNode e n = .ok p ∧
      f = .ofPredicate p := by
  cases query with
  | none => cases h
  | some text =>
      rw [compile] at h
      split at h
      · cases h
      · split at h
        · cases h
        · next n hparse =>
            obtain ⟨p, hp, hf⟩ := map_eq_ok_iff.mp h
            cases hf
            exact ⟨text, n, p, rfl, hparse, hp, rfl⟩

/-- A text that is read as an expression gives a filter with what the expression compiles
to, whether each record is to be kept once or not. -/
theorem compileNode_of_compile {text : String} {n : Node} (hparse : c.parse text = .ok n)
    (h : c.compile e (some text) = .ok (some f) ∨ c.compileDistinct e (some text) = .ok (some f)) :
    c.compileNode e n = .ok f.predicate := by
  have hplain : ∀ {f}, c.compile e (some text) = .ok (some f) →
      c.compileNode e n = .ok f.predicate := by
    intro f h
    obtain ⟨_, _, p, ⟨⟩, hparse', hp, rfl⟩ := exists_node_of_compile h
    rw [hparse] at hparse'
    cases hparse'
    exact hp
  rcases h with h | h
  · exact hplain h
  · obtain ⟨found, hfound, hf⟩ := map_eq_ok_iff.mp h
    obtain ⟨f', rfl, rfl⟩ := Option.map_eq_some_iff.mp hf
    have hnode := hplain hfound
    exact hnode

/-- **A compiled filter reads paths that the entity resolves.** -/
theorem resolvedIn_of_compile (h : c.compile e query = .ok (some f)) :
    f = .ofPredicate f.predicate ∧ f.predicate.ResolvedIn e := by
  obtain ⟨text, n, p, _, _, hp, rfl⟩ := exists_node_of_compile h
  exact ⟨rfl, resolves_of_compileNode hp⟩

/-- **Its paths are spelled as selectors are**, whatever names the schema has. -/
theorem spelled_of_compile (h : c.compile e query = .ok (some f)) :
    ∀ path ∈ f.predicate.paths, path.Spelled := by
  obtain ⟨text, n, p, _, hparse, hp, rfl⟩ := exists_node_of_compile h
  exact spelled_of_compileNode (wellFormed_of_parse hparse) p hp

end Compiler

end RecordFilter
