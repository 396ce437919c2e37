/-
# `Proofs.Compiler.Growth` — more attributes change no query

`e.Grown e'` says that `e'` is `e` with any number of attributes added, to itself and
to the entities that its attributes lead to; names and attributes that are there stay.
A route through `e` is a route through `e'` (`Entity.Leads.grown`), so a property that
resolves keeps its path, and with it the type and the joins.  Nothing else of an entity
is looked at, hence

    what compiles stays the same filter,
    what fails for a property that is not known may compile or fail in another way,
    what fails for another reason fails for the same reason      (`compile_grown`)

The second is the one thing that growing changes, and it is said once, by `Error.Kept`.
-/
import RecordFilter.Proofs.Compiler.Paths

namespace RecordFilter

/-! ## Grown entities -/

/-- What is found by a name is found again, in a form that stands in the relation to it.
Where nothing was found, there may be anything. -/
inductive Attribute.Refound (r : Attribute → Attribute → Prop) :
    Option Attribute → Option Attribute → Prop
  | new (found : Option Attribute) : Refound r none found
  | again {a a' : Attribute} : r a a' → Refound r (some a) (some a')

/-- An attribute with attributes added to the entity that it leads to, at any depth. -/
inductive Attribute.Grown : Attribute → Attribute → Prop
  | basic (type : ValueType) : Grown (.basic type) (.basic type)
  | link (link : Link) (target : String) {attributes attributes' : List (String × Attribute)} :
      (∀ name, Refound Grown (attributes.lookup name) (attributes'.lookup name)) →
      Grown (.link link target attributes) (.link link target attributes')

/-- The entity with attributes added, at any depth. -/
structure Entity.Grown (e e' : Entity) : Prop where
  name : e'.name = e.name
  attributes : ∀ name, Attribute.Refound Attribute.Grown (e.attribute? name) (e'.attribute? name)

theorem Attribute.refound_of_fields {attributes attributes' : List (String × Attribute)}
    (h : ∀ field ∈ attributes, ∃ a', attributes'.lookup field.1 = some a' ∧ field.2.Grown a')
    (name : String) :
    Attribute.Refound Attribute.Grown (attributes.lookup name) (attributes'.lookup name) := by
  cases hname : attributes.lookup name with
  | none => exact .new _
  | some a =>
      obtain ⟨front, back, hfields, _⟩ := List.lookup_eq_some_iff.mp hname
      have hmem : (name, a) ∈ attributes := by
        rw [hfields]
        exact List.mem_append_right front List.mem_cons_self
      obtain ⟨a', hname', ha⟩ := h (name, a) hmem
      rw [hname']
      exact .again ha

namespace Entity

variable {e e' : Entity} {name : String}

theorem Grown.attribute?_some (h : e.Grown e') {a : Attribute}
    (hname : e.attribute? name = some a) :
    ∃ a', e'.attribute? name = some a' ∧ a.Grown a' := by
  have hfound := h.attributes name
  rw [hname] at hfound
  generalize e'.attribute? name = found at hfound ⊢
  cases hfound with
  | again ha => exact ⟨_, rfl, ha⟩

theorem Grown.attribute?_basic (h : e.Grown e') {type : ValueType}
    (hname : e.attribute? name = some (.basic type)) :
    e'.attribute? name = some (.basic type) := by
  obtain ⟨a', hname', ha⟩ := h.attribute?_some hname
  cases ha with
  | basic => exact hname'

theorem Grown.attribute?_link (h : e.Grown e') {link : Link} {target : String}
    {attributes : List (String × Attribute)}
    (hname : e.attribute? name = some (.link link target attributes)) :
    ∃ attributes', e'.attribute? name = some (.link link target attributes') ∧
      Grown ⟨target, attributes⟩ ⟨target, attributes'⟩ := by
  obtain ⟨a', hname', ha⟩ := h.attribute?_some hname
  cases ha with
  | link _ _ hattributes => exact ⟨_, hname', rfl, hattributes⟩

/-- **Routes stay.** -/
theorem Leads.grown {segments : List Segment} {type : ValueType} (h : e.Leads segments type) :
    ∀ {e' : Entity}, e.Grown e' → e'.Leads segments type := by
  induction h with
  | here =>
      intro e' _
      exact .here
  | basic hne hname =>
      intro e' h
      exact .basic hne (h.attribute?_basic hname)
  | link hne hname _ ih =>
      intro e' h
      obtain ⟨attributes', hname', hinner⟩ := h.attribute?_link hname
      exact .link hne hname' (ih hinner)

theorem Grown.resolve_eq_ok (h : e.Grown e') {property : String} {p : ResolvedPath}
    (hp : e.resolve property = .ok p) : e'.resolve property = .ok p := by
  obtain ⟨hnames, hleads⟩ := walk_eq_ok_iff.mp hp
  exact walk_eq_ok_iff.mpr ⟨hnames, hleads.grown h⟩

end Entity

/-! ## Compiling -/

/-- The second outcome is the first one, unless that is an unknown property. -/
def Error.Kept {α : Type} (x x' : Except Error α) : Prop :=
  x' = x ∨ ∃ u, x = .error (.unknownProperty u)

theorem Error.Kept.map {α β : Type} {x x' : Except Error α} (h : Kept x x') (f : α → β) :
    Kept (x.map f) (x'.map f) := by
  rcases h with rfl | ⟨u, rfl⟩
  · exact .inl rfl
  · exact .inr ⟨u, rfl⟩

namespace Compiler

variable {c : Compiler} {e e' : Entity}

/-- A comparison looks at the entity to resolve its selector, and then no more. -/
theorem kept_compileComparison (h : e.Grown e') (clause : Comparison) :
    Error.Kept (c.compileComparison e clause) (c.compileComparison e' clause) := by
  rw [compileComparison, compileComparison]
  cases hpath : e.resolve clause.selector with
  | error u => exact .inr ⟨u, rfl⟩
  | ok path =>
      left
      rw [h.resolve_eq_ok hpath]

mutual

/-- **A tree keeps its outcome**, unless its first failing comparison has an unknown
property. -/
theorem kept_compileNode (h : e.Grown e') : ∀ n : Node,
    Error.Kept (c.compileNode e n) (c.compileNode e' n)
  | .all children => by
      rw [compileNode, compileNode]
      exact (kept_compileNodes h children).map _
  | .any children => by
      rw [compileNode, compileNode]
      exact (kept_compileNodes h children).map _
  | .comparison clause => by
      rw [compileNode, compileNode]
      exact kept_compileComparison h clause

theorem kept_compileNodes (h : e.Grown e') : ∀ children : List Node,
    Error.Kept (c.compileNodes e children) (c.compileNodes e' children)
  | [] => .inl rfl
  | child :: children => by
      rw [compileNodes, compileNodes]
      rcases kept_compileNode h child with hchild | ⟨u, hchild⟩
      · rw [hchild]
        cases c.compileNode e child with
        | error error => exact .inl rfl
        | ok operand => exact (kept_compileNodes h children).map _
      · rw [hchild]
        exact .inr ⟨u, rfl⟩

end

theorem kept_compile (h : e.Grown e') (query : Option String) :
    Error.Kept (c.compile e query) (c.compile e' query) := by
  cases query with
  | none => exact .inl rfl
  | some query =>
      rw [compile, compile]
      split
      · exact .inl rfl
      · cases c.parse query with
        | error error => exact .inl rfl
        | ok n => exact (kept_compileNode h n).map _

end Compiler

/-- **More attributes change no query.**  Let attributes be added to an entity, and to
the entities that it leads to.  A query that compiled compiles to the same filter; and
one that failed fails with the same error, unless a property was not known. -/
theorem compile_grown (c : Compiler) (e e' : Entity) (query : Option String) (h : e.Grown e') :
    (∀ f, c.compile e query = .ok f → c.compile e' query = .ok f) ∧
    ∀ error, (∀ u, error ≠ .unknownProperty u) → c.compile e query = .error error →
      c.compile e' query = .error error := by
  rcases Compiler.kept_compile (c := c) h query with hsame | ⟨u, hunknown⟩
  · rw [hsame]
    exact ⟨fun f hf => hf, fun error _ herror => herror⟩
  · rw [hunknown]
    constructor
    · intro f hf
      cases hf
    · intro error hknown herror
      cases herror
      exact absurd rfl (hknown u)

/-- One attribute more on the entity and one more on the department: a query through the
relation stays a filter, and an age that is no number stays the error. -/
theorem compile_grown_department :
    Entity.Grown
      ⟨"Employee", [("age", .basic .integer), ("dept", .to (.relation .toOne)
        ⟨"Department", [("title", .basic .string)]⟩)]⟩
      ⟨"Employee", [("name", .basic .string), ("dept", .to (.relation .toOne)
        ⟨"Department", [("floor", .basic .byte), ("title", .basic .string)]⟩),
        ("age", .basic .integer)]⟩ ∧
    Compiler.standard.compile
      ⟨"Employee", [("name", .basic .string), ("dept", .to (.relation .toOne)
        ⟨"Department", [("floor", .basic .byte), ("title", .basic .string)]⟩),
        ("age", .basic .integer)]⟩ (some "dept.title==A*") =
      .ok (some (.ofPredicate (.test
        ⟨[⟨"dept", some (.relation .toOne)⟩, ⟨"title", none⟩], .string⟩ (.like "a%" false)))) ∧
    Compiler.standard.compile
      ⟨"Employee", [("name", .basic .string), ("dept", .to (.relation .toOne)
        ⟨"Department", [("floor", .basic .byte), ("title", .basic .string)]⟩),
        ("age", .basic .integer)]⟩ (some "age==old") =
      .error (.coercion ⟨"old", .integer, .integer .invalidDigit⟩) := by
  have hgrown : Entity.Grown
      ⟨"Employee", [("age", .basic .integer), ("dept", .to (.relation .toOne)
        ⟨"Department", [("title", .basic .string)]⟩)]⟩
      ⟨"Employee", [("name", .basic .string), ("dept", .to (.relation .toOne)
        ⟨"Department", [("floor", .basic .byte), ("title", .basic .string)]⟩),
        ("age", .basic .integer)]⟩ := by
    have hdept : ∀ name, Attribute.Refound Attribute.Grown
        (List.lookup name [("title", .basic .string)])
        (List.lookup name [("floor", .basic .byte), ("title", .basic .string)]) :=
      Attribute.refound_of_fields
        (List.forall_mem_singleton.mpr ⟨.basic .string, rfl, .basic .string⟩)
    refine ⟨rfl, Attribute.refound_of_fields (List.forall_mem_cons.mpr ⟨?_, ?_⟩)⟩
    · exact ⟨.basic .integer, rfl, .basic .integer⟩
    · exact List.forall_mem_singleton.mpr ⟨_, rfl, .link _ _ hdept⟩
  have htitle : Compiler.standard.parse "dept.title==A*" =
      .ok (.comparison ⟨"dept.title", .equal, ["A*"]⟩) :=
    toOption_eq_some_iff.mp (by decide +kernel)
  have hage : Compiler.standard.parse "age==old" =
      .ok (.comparison ⟨"age", .equal, ["old"]⟩) :=
    toOption_eq_some_iff.mp (by decide +kernel)
  refine ⟨hgrown, ?_, ?_⟩
  · refine (compile_grown .standard _ _ (some "dept.title==A*") hgrown).1 _ ?_
    rw [Compiler.compile, if_neg (by decide), htitle]
    rfl
  · refine (compile_grown .standard _ _ (some "age==old") hgrown).2 _ (fun u h => by cases h) ?_
    rw [Compiler.compile, if_neg (by decide), hage]
    rfl

end RecordFilter
