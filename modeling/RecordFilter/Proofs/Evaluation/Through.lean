/-
# `Proofs.Evaluation.Through` — a filter through a relation filters its elements

Behind a relation the rows of a record are those of the related elements, one
element after the other.  A row of an element becomes a row of the record by
`Row.under`: each alias gets the name of the relation in front, and that name is
bound to the element.  Then

    what a join offers, what a path reads and the truth of a predicate

are the same on both sides, and so is the number of rows on which it is true.
A value that is missing or null stands for one null element: nothing is read from
either.
-/
import Mathlib.Algebra.Ring.Nat
import RecordFilter.Proofs.Compiler.Filters
import RecordFilter.Proofs.Compiler.Through
import RecordFilter.Proofs.Evaluation.Rows

namespace RecordFilter

/-! ## Elements -/

/-- What a relation of a record leads to: the elements of a list, for a relation to
many, and otherwise the value itself; null where there is nothing. -/
def Json.elements (cardinality : Cardinality) (r : String) (record : Json) : List Json :=
  match record.get? r, cardinality with
  | none, _ => [.null]
  | some (.array []), .toMany => [.null]
  | some (.array items), .toMany => items
  | some value, _ => [value]

theorem Json.descend_null {names : List String} (h : names ≠ []) :
    Json.null.descend names = none := by
  match names, h with
  | _ :: _, _ => rfl

theorem Json.bind_descend (b : Option Json) {names : List String} (h : names ≠ []) :
    b.bind (·.descend names) = (b.getD .null).descend names := by
  cases b with
  | none => exact (Json.descend_null h).symm
  | some value => rfl

theorem Join.bindings_opening (r : String) (cardinality : Cardinality) (record : Json) :
    ((Join.opening r cardinality).bindings record []).map (·.getD .null) =
      record.elements cardinality r := by
  have hrelated : (Join.opening r cardinality).related record [] =
      Json.present? (record.get? r) := by
    show Json.present? (record.descend [r]) = _
    rw [Json.descend]
    cases record.get? r <;> rfl
  rw [Join.bindings, hrelated]
  unfold Json.elements
  cases record.get? r with
  | none => cases cardinality <;> rfl
  | some value =>
      cases value with
      | array items =>
          cases items with
          | nil => cases cardinality <;> rfl
          | cons item items =>
              cases cardinality with
              | toOne => rfl
              | toMany =>
                  show ((item :: items).map some).map (·.getD .null) = item :: items
                  rw [List.map_map]
                  exact List.map_id _
      | _ => cases cardinality <;> rfl

/-! ## Rows -/

namespace Row

/-- The row of an element as one of the record. -/
def under (r : String) (b : Option Json) (row : Row) : Row :=
  row.map (fun entry => (r :: entry.1, entry.2)) ++ [([r], b)]

variable {r : String} {b : Option Json} {row : Row}

theorem bound?_under {a : Alias} (ha : a ≠ []) :
    (row.under r b).bound? (r :: a) = row.bound? a := by
  induction row with
  | nil =>
      refine bound?_cons_of_ne (fun h => ha ?_) b []
      exact (List.cons.inj h).2
  | cons entry row ih =>
      obtain ⟨a', b'⟩ := entry
      show bound? ((r :: a', b') :: under r b row) (r :: a) = _
      by_cases h : a = a'
      · simp [h]
      · simp [h, ih]

theorem bound?_under_root (h : [] ∉ row.aliases) : (row.under r b).bound? [r] = b := by
  induction row with
  | nil => exact bound?_cons_self [r] b []
  | cons entry row ih =>
      obtain ⟨a', b'⟩ := entry
      obtain ⟨ha, hrow⟩ := not_or.mp (mt List.mem_cons.mpr h)
      show bound? ((r :: a', b') :: under r b row) [r] = _
      have hne : [r] ≠ r :: a' := fun heq => ha (List.cons.inj heq).2
      rw [bound?_cons_of_ne hne, ih hrow]

end Row

variable {r : String} {cardinality : Cardinality} {b : Option Json} {record : Json} {row : Row}

/-- A join starts behind the relation from what it starts from on the element. -/
theorem Row.bound?_under_alias {a : Option Alias} (ha : ∀ a', a = some a' → a' ≠ [])
    (h : [] ∉ row.aliases) {names : List String} (hnames : names ≠ []) :
    ((row.under r b).bound? (Alias.under r a)).bind (·.descend names) =
      (match a with
        | none => some (b.getD .null)
        | some a' => row.bound? a').bind (·.descend names) := by
  cases a with
  | none =>
      rw [Alias.under, bound?_under_root h, Json.bind_descend b hnames]
      rfl
  | some a' => rw [Alias.under, bound?_under (ha a' rfl)]

theorem Join.bindings_under {j : Join} (hattributes : j.attributes ≠ [])
    (hparent : ∀ a, j.parent = some a → a ≠ []) (h : [] ∉ row.aliases) :
    (j.under r).bindings record (row.under r b) = j.bindings (b.getD .null) row := by
  have hrelated : (j.under r).related record (row.under r b) = j.related (b.getD .null) row :=
    congrArg Json.present? (Row.bound?_under_alias hparent h hattributes)
  rw [Join.bindings, Join.bindings, hrelated]
  rfl

theorem ResolvedPath.read_behind {p : ResolvedPath} (hp : p.segments ≠ []) (h : [] ∉ row.aliases) :
    (Entity.behind (.relation r cardinality) p).read record (row.under r b) =
      p.read (b.getD .null) row := by
  have hsource : ∀ a, p.source = some a → a ≠ [] := by
    intro a ha
    obtain ⟨j, hj, rfl⟩ := ResolvedPath.source_mem ha
    exact (ResolvedPath.joins_ne_nil hj).1
  rw [ResolvedPath.read, ResolvedPath.source_behind hp, ResolvedPath.accessor_behind hp]
  exact congrArg Json.present?
    (Row.bound?_under_alias hsource h (ResolvedPath.accessor_ne_nil hp))

/-- A join of a resolved path: no alias in it is the root's, and it reads something. -/
structure Join.Proper (j : Join) : Prop where
  target_ne_nil : j.target ≠ []
  attributes_ne_nil : j.attributes ≠ []
  parent_ne_nil : ∀ a, j.parent = some a → a ≠ []

theorem Join.proper_of_mem_plan {paths : List ResolvedPath} {j : Join} (h : j ∈ Join.plan paths) :
    j.Proper := by
  obtain ⟨p, _, hj⟩ := Join.mem_of_mem_plan h
  obtain ⟨htarget, hattributes⟩ := ResolvedPath.joins_ne_nil hj
  refine ⟨htarget, hattributes, fun a ha => ?_⟩
  obtain ⟨k, hk, rfl, _⟩ := ResolvedPath.joins_parent hj ha
  exact (ResolvedPath.joins_ne_nil hk).1

namespace Row

/-- **The rows behind a relation are those of an element**, moved. -/
theorem expand_under {joins : List Join} (hjoins : ∀ j ∈ joins, j.Proper) :
    ∀ {row : Row}, [] ∉ row.aliases →
      expand record (joins.map (Join.under r)) [row.under r b] =
        (expand (b.getD .null) joins [row]).map (under r b) := by
  induction joins with
  | nil => exact fun _ => rfl
  | cons j joins ih =>
      intro row h
      obtain ⟨hj, hjoins⟩ := List.forall_mem_cons.mp hjoins
      have hbindings : (j.under r).bindings record (row.under r b) =
          j.bindings (b.getD .null) row :=
        Join.bindings_under hj.attributes_ne_nil hj.parent_ne_nil h
      rw [List.map_cons, expand_cons, expand_cons, hbindings, List.map_flatMap]
      refine congrArg (List.flatMap · _) (funext fun value => ?_)
      have hnext : [] ∉ aliases ((j.target, value) :: row) := by
        intro hmem
        rcases List.mem_cons.mp hmem with hmem | hmem
        · exact hj.target_ne_nil hmem.symm
        · exact h hmem
      exact ih hjoins hnext

theorem nil_notMem_aliases {joins : List Join} (hjoins : ∀ j ∈ joins, j.Proper)
    (h : row ∈ ofRecord record joins) : [] ∉ row.aliases := by
  intro hmem
  rcases (mem_aliases_of_mem_expand h).mp hmem with hmem | ⟨j, hj, hnil⟩
  · cases hmem
  · exact (hjoins j hj).target_ne_nil hnil

end Row

/-! ## Counting -/

namespace Predicate

variable {q : Predicate} {table : PatternTable}

theorem trueRows_behind (hne : q.paths ≠ []) (hpaths : ∀ p ∈ q.paths, p.segments ≠ []) :
    (q.mapPaths (Entity.behind (.relation r cardinality))).trueRows table record =
      ((record.elements cardinality r).map (q.trueRows table)).sum := by
  have hproper : ∀ j ∈ q.joins, j.Proper := fun j hj => Join.proper_of_mem_plan hj
  have hjoins : (q.mapPaths (Entity.behind (.relation r cardinality))).joins =
      .opening r cardinality :: q.joins.map (Join.under r) := by
    rw [joins, paths_mapPaths, Join.plan_behind hne hpaths, joins]
  rw [trueRows, hjoins, Row.ofRecord, Row.expand_cons, List.countP_flatMap,
    ← Join.bindings_opening, List.map_map]
  refine congrArg List.sum (List.map_congr_left fun b _ => ?_)
  have hempty : [] ∉ Row.aliases [] := List.not_mem_nil
  have hrows : Row.expand record (q.joins.map (Join.under r)) [[([r], b)]] =
      (Row.ofRecord (b.getD .null) q.joins).map (Row.under r b) :=
    Row.expand_under hproper hempty
  show List.countP _ (Row.expand record (q.joins.map (Join.under r)) [[([r], b)]]) = _
  rw [hrows, List.countP_map]
  refine List.countP_congr fun row hrow => ?_
  have hnil := Row.nil_notMem_aliases hproper hrow
  have heval : (q.mapPaths (Entity.behind (.relation r cardinality))).eval table record
      (row.under r b) = q.eval table (b.getD .null) row :=
    eval_mapPaths _ q (fun _ _ => rfl) fun p hp => ResolvedPath.read_behind (hpaths p hp) hnil
  show (eval table record (row.under r b) _ == some true) = true ↔ _
  rw [heval]

end Predicate

theorem matchingRows_behind {engine : PatternEngine} {q : Predicate} {evp evq : Evaluator}
    (hne : q.paths ≠ [])
    (hpaths : ∀ p ∈ q.paths, p.segments ≠ [])
    (hevp : engine.evaluator
      (.ofPredicate (q.mapPaths (Entity.behind (.relation r cardinality)))) = .ok evp)
    (hevq : engine.evaluator (.ofPredicate q) = .ok evq) (record : Json) :
    evp.matchingRows record = ((record.elements cardinality r).map evq.matchingRows).sum := by
  obtain ⟨table, hcount, hcount'⟩ := Evaluator.matchingRows_mapPaths hevp hevq
  rw [hcount, Predicate.trueRows_behind hne hpaths, funext hcount']

/-! ## Queries -/

/-- **A filter through a relation filters the related elements.**  An expression
behind a relation compiles if and only if the expression does on the related
entity.  The two filters then can be run both or neither, and the one matches a
record as often as the other matches the elements that the relation leads to, all
its conditions being tested on the same element.  The name of the relation must
be one that a path can have: not empty, and without a dot. -/
theorem matchingRows_through (c : Compiler) (e target : Entity) (r : String)
    (cardinality : Cardinality) (query : String) (n : Node)
    (hr : e.attribute? r = some (.to (.relation cardinality) target)) (hne : r ≠ "")
    (hdot : '.' ∉ r.toList) (hquery : c.parse query = .ok n) :
    ((∀ ch ∈ r.toList, Token.isUnreserved ch = true) →
      c.parse (n.through r).render = .ok (n.through r)) ∧
    ((∃ p, c.compileNode e (n.through r) = .ok p) ↔ ∃ q, c.compileNode target n = .ok q) ∧
    ∀ (engine : PatternEngine) p q,
      c.compileNode e (n.through r) = .ok p → c.compileNode target n = .ok q →
      (p.Runs engine ↔ q.Runs engine) ∧
      ∀ evp evq, engine.evaluator (.ofPredicate p) = .ok evp →
        engine.evaluator (.ofPredicate q) = .ok evq → ∀ record,
          evp.matchingRows record = ((record.elements cardinality r).map evq.matchingRows).sum ∧
          (evp.isMatch record = true ↔
            ∃ element ∈ record.elements cardinality r, evq.isMatch element = true) := by
  have hwell : n.WellFormed c.operators := Compiler.wellFormed_of_parse hquery
  have hcompile := Compiler.compileNode_through (c := c) hr hne hdot n
  refine ⟨fun hunreserved => ?_, ?_, fun engine p q hp hq => ?_⟩
  · rw [Compiler.parse, (hwell.through hunreserved).parse_render_eq]
    rfl
  · simp only [← toOption_eq_some_iff, hcompile, Option.map_eq_some_iff]
    constructor
    · rintro ⟨_, q, hq, _⟩
      exact ⟨q, hq⟩
    · rintro ⟨q, hq⟩
      exact ⟨_, q, hq, rfl⟩
  · obtain rfl : q.mapPaths (Entity.behind (.relation r cardinality)) = p := by
      rw [toOption_eq_some_iff.mpr hp, toOption_eq_some_iff.mpr hq] at hcompile
      exact (Option.some.inj hcompile).symm
    refine ⟨?_, fun evp evq hevp hevq record => ?_⟩
    · simp [Predicate.runs_iff]
    · have hrows : evp.matchingRows record =
          ((record.elements cardinality r).map evq.matchingRows).sum :=
        matchingRows_behind (Compiler.paths_ne_nil hwell hq)
          (fun path hpath => (Compiler.resolves_of_compileNode hq path hpath).segments_ne_nil)
          hevp hevq record
      refine ⟨hrows, ?_⟩
      simp only [Evaluator.isMatch, hrows, decide_eq_true_eq, List.sum_pos_iff_exists_pos_nat,
        List.mem_map]
      constructor
      · rintro ⟨_, ⟨element, helement, rfl⟩, hpos⟩
        exact ⟨element, helement, hpos⟩
      · rintro ⟨element, helement, hpos⟩
        exact ⟨_, ⟨element, helement, rfl⟩, hpos⟩

/-- Two conditions on a relation to many, for a record with two elements: each has
to meet both. -/
theorem matchingRows_through_staff :
    ∃ p q evp evq,
      Compiler.standard.compileNode
        ⟨"Team", [("staff", .to (.relation .toMany) ⟨"Person", [("name", .basic .string)]⟩)]⟩
        (Node.through "staff" (.all [.comparison ⟨"name", .equal, ["A*"]⟩,
          .comparison ⟨"name", .isNotIn, ["Ada"]⟩])) = .ok p ∧
      Compiler.standard.compileNode ⟨"Person", [("name", .basic .string)]⟩
        (.all [.comparison ⟨"name", .equal, ["A*"]⟩,
          .comparison ⟨"name", .isNotIn, ["Ada"]⟩]) = .ok q ∧
      PatternEngine.lenient.evaluator (.ofPredicate p) = .ok evp ∧
      PatternEngine.lenient.evaluator (.ofPredicate q) = .ok evq ∧
      evp.matchingRows (.object [("staff", .array [.null, .object [("name", .string "Al")]])]) =
        [evq.matchingRows .null, evq.matchingRows (.object [("name", .string "Al")])].sum := by
  have hquery : Compiler.standard.parse "name==A*;name=out=Ada" =
      .ok (.all [.comparison ⟨"name", .equal, ["A*"]⟩,
        .comparison ⟨"name", .isNotIn, ["Ada"]⟩]) := toOption_eq_some_iff.mp (by decide +kernel)
  have hq : Compiler.standard.compileNode ⟨"Person", [("name", .basic .string)]⟩
      (.all [.comparison ⟨"name", .equal, ["A*"]⟩, .comparison ⟨"name", .isNotIn, ["Ada"]⟩]) =
      .ok (.all [.test ⟨[⟨"name", none⟩], .string⟩ (.like "a%" false),
        .not (.test ⟨[⟨"name", none⟩], .string⟩ (.isIn [.text "Ada"]))]) := rfl
  obtain ⟨evq, hevq⟩ : Predicate.Runs .lenient
      (.all [.test ⟨[⟨"name", none⟩], .string⟩ (.like "a%" false),
        .not (.test ⟨[⟨"name", none⟩], .string⟩ (.isIn [.text "Ada"]))]) :=
    Predicate.runs_iff.mpr fun pattern _ => PatternEngine.lenient_accepts pattern
  have hthrough := matchingRows_through .standard
    ⟨"Team", [("staff", .to (.relation .toMany) ⟨"Person", [("name", .basic .string)]⟩)]⟩
    ⟨"Person", [("name", .basic .string)]⟩ "staff" .toMany _ _ rfl (by decide) (by decide) hquery
  obtain ⟨p, hp⟩ := hthrough.2.1.mpr ⟨_, hq⟩
  obtain ⟨hruns, hrows⟩ := hthrough.2.2 .lenient p _ hp hq
  obtain ⟨evp, hevp⟩ := hruns.mpr ⟨evq, hevq⟩
  exact ⟨p, _, evp, evq, hp, hq, hevp, hevq, (hrows evp evq hevp hevq _).1⟩

/-- No path leads through a relation whose name has a dot, since the prefixed path
is cut at that dot too, or through one without a name. -/
theorem through_unreachable_relation_fails :
    Compiler.standard.parse "x==1" = .ok (.comparison ⟨"x", .equal, ["1"]⟩) ∧
      (∃ q, Compiler.standard.compileNode ⟨"T", [("x", .basic .string)]⟩
        (.comparison ⟨"x", .equal, ["1"]⟩) = .ok q) ∧
      (Entity.attribute? ⟨"E", [("a.b", .to (.relation .toOne) ⟨"T", [("x", .basic .string)]⟩)]⟩
          "a.b" = some (.to (.relation .toOne) ⟨"T", [("x", .basic .string)]⟩) ∧
        ¬ ∃ p, Compiler.standard.compileNode
          ⟨"E", [("a.b", .to (.relation .toOne) ⟨"T", [("x", .basic .string)]⟩)]⟩
          (Node.through "a.b" (.comparison ⟨"x", .equal, ["1"]⟩)) = .ok p) ∧
      (Entity.attribute? ⟨"E", [("", .to (.relation .toOne) ⟨"T", [("x", .basic .string)]⟩)]⟩ "" =
          some (.to (.relation .toOne) ⟨"T", [("x", .basic .string)]⟩) ∧
        ¬ ∃ p, Compiler.standard.compileNode
          ⟨"E", [("", .to (.relation .toOne) ⟨"T", [("x", .basic .string)]⟩)]⟩
          (Node.through "" (.comparison ⟨"x", .equal, ["1"]⟩)) = .ok p) := by
  have hdotted : (Compiler.standard.compileNode
      ⟨"E", [("a.b", .to (.relation .toOne) ⟨"T", [("x", .basic .string)]⟩)]⟩
      (Node.through "a.b" (.comparison ⟨"x", .equal, ["1"]⟩))).toOption = none := rfl
  have hempty : (Compiler.standard.compileNode
      ⟨"E", [("", .to (.relation .toOne) ⟨"T", [("x", .basic .string)]⟩)]⟩
      (Node.through "" (.comparison ⟨"x", .equal, ["1"]⟩))).toOption = none := rfl
  refine ⟨toOption_eq_some_iff.mp (by decide +kernel), ⟨_, rfl⟩, ⟨rfl, ?_⟩, ⟨rfl, ?_⟩⟩
  · rintro ⟨p, hp⟩
    rw [hp] at hdotted
    cases hdotted
  · rintro ⟨p, hp⟩
    rw [hp] at hempty
    cases hempty

end RecordFilter
