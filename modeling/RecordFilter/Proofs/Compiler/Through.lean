/-
# `Proofs.Compiler.Through` — expressions behind a relation

`Node.through r` writes the name of a relation before each selector.  Such an
expression compiles if and only if the expression itself compiles for the entity
that the relation leads to, and to the same predicate with its paths behind the
relation (`Compiler.compileNode_through`): the selectors resolve behind the relation
to the same paths with one segment in front.
-/
import RecordFilter.Proofs.Compiler.Paths
import RecordFilter.Proofs.Predicate.Through

namespace RecordFilter

/-! ## Prefixed expressions -/

/-- The clause on the related entity. -/
def Comparison.through (r : String) (clause : Comparison) : Comparison :=
  { clause with selector := r ++ "." ++ clause.selector }

mutual

/-- The expression with the name of a relation before each selector. -/
def Node.through (r : String) : Node → Node
  | .all children => .all (Node.throughList r children)
  | .any children => .any (Node.throughList r children)
  | .comparison clause => .comparison (clause.through r)

def Node.throughList (r : String) : List Node → List Node
  | [] => []
  | child :: children => child.through r :: Node.throughList r children

end

theorem Node.throughList_eq_map (r : String) (children : List Node) :
    Node.throughList r children = children.map (Node.through r) := by
  induction children with
  | nil => rfl
  | cons child children ih => rw [Node.throughList, ih, List.map_cons]

/-- The prefixed expression can be written as soon as the name can. -/
theorem Node.WellFormed.through {ops : OperatorSet} {r : String} {n : Node}
    (hr : ∀ c ∈ r.toList, Token.isUnreserved c = true) (hn : n.WellFormed ops) :
    (n.through r).WellFormed ops := by
  have hmembers : ∀ {children : List Node},
      (∀ child ∈ children, (child.through r).WellFormed ops) →
      ∀ child ∈ Node.throughList r children, child.WellFormed ops := by
    intro children ih child hchild
    rw [Node.throughList_eq_map] at hchild
    obtain ⟨member, hmember, rfl⟩ := List.mem_map.mp hchild
    exact ih member hmember
  induction hn with
  | @all children hlen _ ih =>
      refine .all ?_ (hmembers ih)
      rw [Node.throughList_eq_map, List.length_map]
      exact hlen
  | @any children hlen _ ih =>
      refine .any ?_ (hmembers ih)
      rw [Node.throughList_eq_map, List.length_map]
      exact hlen
  | @comparison clause hclause =>
      refine .comparison ⟨?_, ?_, hclause.operator_mem, hclause.arguments_ne_nil,
        hclause.one_argument⟩
      · intro hempty
        rw [Comparison.through, ← String.toList_eq_nil_iff, Text.toList_prefix] at hempty
        exact List.cons_ne_nil _ _ (List.append_eq_nil_iff.mp hempty).2
      · intro c hc
        rw [Comparison.through, Text.toList_prefix] at hc
        rcases List.mem_append.mp hc with hc | hc
        · exact hr c hc
        · rcases List.mem_cons.mp hc with rfl | hc
          · rfl
          · exact hclause.selector_unreserved c hc

mutual

theorem Node.through_eq_mapSelectors (r : String) :
    ∀ n : Node, n.through r = n.mapSelectors (r ++ "." ++ ·)
  | .all children => by
      rw [Node.through, Node.mapSelectors, Node.throughList_eq_mapSelectorsList r children]
  | .any children => by
      rw [Node.through, Node.mapSelectors, Node.throughList_eq_mapSelectorsList r children]
  | .comparison _ => rfl

theorem Node.throughList_eq_mapSelectorsList (r : String) : ∀ children : List Node,
    Node.throughList r children = Node.mapSelectorsList (r ++ "." ++ ·) children
  | [] => rfl
  | child :: children => by
      rw [Node.throughList, Node.mapSelectorsList, Node.through_eq_mapSelectors r child,
        Node.throughList_eq_mapSelectorsList r children]

end

/-! ## Compiled expressions -/

variable {c : Compiler} {e target : Entity} {r : String} {cardinality : Cardinality}

theorem Entity.rerouted_behind (hr : e.attribute? r = some (.to (.relation cardinality) target))
    (hne : r ≠ "") (hdot : '.' ∉ r.toList) :
    target.Rerouted e (r ++ "." ++ ·) (Entity.behind (.relation r cardinality)) where
  resolve := Entity.resolve_prefix hr hne hdot
  type _ _ := rfl
  isCollection _ hpath := ResolvedPath.isCollection_behind hpath.segments_ne_nil

/-- **An expression behind a relation compiles as the expression does** on the
related entity. -/
theorem Compiler.compileNode_through
    (hr : e.attribute? r = some (.to (.relation cardinality) target)) (hne : r ≠ "")
    (hdot : '.' ∉ r.toList) (n : Node) :
    (c.compileNode e (n.through r)).toOption =
      (c.compileNode target n).toOption.map
        (Predicate.mapPaths (Entity.behind (.relation r cardinality))) := by
  rw [Node.through_eq_mapSelectors]
  exact compileNode_rerouted (Entity.rerouted_behind hr hne hdot) n

end RecordFilter
