/-
# `Proofs.Path.Inlining` — relations to one, turned into embedded values

`e.Inlined e'` says that `e'` is `e` with any number of its relations to one, at any
depth, written as embedded values.  Names lead through both entities alike: a walk
finds the same segments up to the links, with `e'` embedded where `e` joins, and
where it fails it fails with the same error (`Inlined.walk_eq`).

    walk property e' names = (walk property e names).map e'.again

So a path changes in its joins only, and of these only in such as lead to one.  The
names at which it takes the elements of a list stay (`takenFrom_again`).
-/
import Mathlib.Data.List.Forall2
import RecordFilter.Proofs.Path.Joins

namespace RecordFilter

/-! ## Inlined entities -/

/-- A link as it is, or an embedded value for a relation to one. -/
inductive Link.Inlined : Link → Link → Prop
  | keep (link : Link) : Inlined link link
  | turn : Inlined (.relation .toOne) .embedded

mutual

/-- An attribute with some relations to one turned into embedded values, in itself and
in the attributes inside it. -/
inductive Attribute.Inlined : Attribute → Attribute → Prop
  | basic (type : ValueType) : Attribute.Inlined (.basic type) (.basic type)
  | link {link link' : Link} {target : String}
      {attributes attributes' : List (String × Attribute)} :
      link.Inlined link' → Attribute.InlinedAll attributes attributes' →
      Attribute.Inlined (.link link target attributes) (.link link' target attributes')

inductive Attribute.InlinedAll : List (String × Attribute) → List (String × Attribute) → Prop
  | nil : Attribute.InlinedAll [] []
  | cons {name : String} {a a' : Attribute} {rest rest' : List (String × Attribute)} :
      Attribute.Inlined a a' → Attribute.InlinedAll rest rest' →
      Attribute.InlinedAll ((name, a) :: rest) ((name, a') :: rest')

end

/-- The entity with some relations to one turned into embedded values, at any depth. -/
structure Entity.Inlined (e e' : Entity) : Prop where
  name : e'.name = e.name
  attributes : Attribute.InlinedAll e.attributes e'.attributes

theorem Attribute.InlinedAll.lookup (name : String) {attributes : List (String × Attribute)} :
    ∀ {attributes' : List (String × Attribute)}, InlinedAll attributes attributes' →
      Option.Rel Attribute.Inlined (attributes.lookup name) (attributes'.lookup name) := by
  induction attributes with
  | nil =>
      intro attributes' h
      cases h
      exact .none
  | cons field rest ih =>
      intro attributes' h
      cases h with
      | @cons other a a' _ rest' ha hrest =>
          rw [List.lookup_cons, List.lookup_cons]
          cases name == other with
          | true => exact .some ha
          | false => exact ih hrest

variable {e e' : Entity}

namespace Entity

variable {name : String}

theorem Inlined.attribute?_rel (h : e.Inlined e') (name : String) :
    Option.Rel Attribute.Inlined (e.attribute? name) (e'.attribute? name) :=
  h.attributes.lookup name

theorem Inlined.attribute?_none (h : e.Inlined e') (hname : e.attribute? name = none) :
    e'.attribute? name = none := by
  have hrel := h.attribute?_rel name
  rw [hname] at hrel
  generalize e'.attribute? name = found at hrel ⊢
  cases hrel
  rfl

theorem Inlined.attribute?_some (h : e.Inlined e') {a : Attribute}
    (hname : e.attribute? name = some a) :
    ∃ a', e'.attribute? name = some a' ∧ a.Inlined a' := by
  have hrel := h.attribute?_rel name
  rw [hname] at hrel
  generalize e'.attribute? name = found at hrel ⊢
  cases hrel with
  | some ha => exact ⟨_, rfl, ha⟩

theorem Inlined.attribute?_basic (h : e.Inlined e') {type : ValueType}
    (hname : e.attribute? name = some (.basic type)) :
    e'.attribute? name = some (.basic type) := by
  obtain ⟨_, hname', ha⟩ := h.attribute?_some hname
  cases ha
  exact hname'

theorem Inlined.attribute?_link (h : e.Inlined e') {link : Link} {target : String}
    {attributes : List (String × Attribute)}
    (hname : e.attribute? name = some (.link link target attributes)) :
    ∃ link' attributes', e'.attribute? name = some (.link link' target attributes') ∧
      link.Inlined link' ∧ Inlined ⟨target, attributes⟩ ⟨target, attributes'⟩ := by
  obtain ⟨_, hname', ha⟩ := h.attribute?_some hname
  cases ha with
  | link hlink hattributes => exact ⟨_, _, hname', hlink, rfl, hattributes⟩

/-! ## Walks -/

/-- A route walked again: each segment with the link that this entity has there. -/
def retrace (e : Entity) : List Segment → List Segment
  | [] => []
  | segment :: segments =>
    match e.attribute? segment.name with
    | some (.link link target attributes) =>
      ⟨segment.name, some link⟩ :: retrace ⟨target, attributes⟩ segments
    | _ => segment :: segments

/-- The path along the same names of this entity. -/
def again (e : Entity) (p : ResolvedPath) : ResolvedPath :=
  { p with segments := e.retrace p.segments }

/-- **Names lead through both entities alike**, and go wrong alike. -/
theorem Inlined.walk_eq (property : String) {names : List String} :
    ∀ {e e' : Entity}, e.Inlined e' →
      walk property e' names = (walk property e names).map e'.again := by
  induction names with
  | nil => exact fun _ => rfl
  | cons name names ih =>
      intro e e' h
      rw [walk, walk, h.name]
      split
      · rfl
      · cases hname : e.attribute? name with
        | none => simp only [h.attribute?_none hname, unknown, Except.map]
        | some a =>
            cases a with
            | basic type =>
                have hname' := h.attribute?_basic hname
                cases names with
                | nil => simp only [hname', Except.map, again, retrace]
                | cons next names => simp only [hname', unknown, Except.map]
            | link link target attributes =>
                obtain ⟨link', attributes', hname', _, hinner⟩ := h.attribute?_link hname
                simp only [hname', ih hinner]
                cases walk property ⟨target, attributes⟩ names with
                | error u => rfl
                | ok p => simp only [Except.map, behind, again, retrace, hname']

theorem Inlined.resolve_eq (h : e.Inlined e') (property : String) :
    e'.resolve property = (e.resolve property).map e'.again :=
  h.walk_eq property

end Entity

/-! ## Segments -/

/-- A segment with its link turned or as it is. -/
structure Segment.Inlined (s s' : Segment) : Prop where
  name : s'.name = s.name
  link : Option.Rel Link.Inlined s.link s'.link

/-- A relation to many is never turned, and nothing is turned into one. -/
theorem Segment.Inlined.toMany_iff {s s' : Segment} (h : s.Inlined s') :
    s'.link = some (.relation .toMany) ↔ s.link = some (.relation .toMany) := by
  obtain ⟨name, link⟩ := s
  obtain ⟨name', link'⟩ := s'
  cases h.link with
  | none => rfl
  | some hlink =>
      cases hlink with
      | keep => rfl
      | turn => simp

theorem Entity.Leads.retrace_inlined {segments : List Segment} {type : ValueType}
    (h : e.Leads segments type) : ∀ {e' : Entity}, e.Inlined e' →
      List.Forall₂ Segment.Inlined segments (e'.retrace segments) := by
  induction h with
  | here => exact fun _ => .nil
  | basic _ hname =>
      intro e' h
      simp only [retrace, h.attribute?_basic hname]
      exact .cons ⟨rfl, .none⟩ .nil
  | link _ hname _ ih =>
      intro e' h
      obtain ⟨link', attributes', hname', hlink, hinner⟩ := h.attribute?_link hname
      simp only [retrace, hname']
      exact .cons ⟨rfl, .some hlink⟩ (ih hinner)

/-! ## Paths -/

namespace ResolvedPath

variable {segments segments' : List Segment}

/-- The names at which segments behind the names `before` take the elements of a list:
those of the relations to many, the last segment apart. -/
def takenFrom (before : List String) : List Segment → List Alias
  | [] => []
  | [_] => []
  | segment :: segments =>
    let here := before ++ [segment.name]
    if segment.link = some (.relation .toMany) then here :: takenFrom here segments
    else takenFrom here segments

theorem takenFrom_cons {before : List String} {segment : Segment} (hne : segments ≠ []) :
    takenFrom before (segment :: segments) =
      if segment.link = some (.relation .toMany) then
        (before ++ [segment.name]) :: takenFrom (before ++ [segment.name]) segments
      else takenFrom (before ++ [segment.name]) segments := by
  rw [takenFrom]
  exact hne

theorem map_target_joinsFrom (parent : Option Alias) (before pending : List String)
    (segments : List Segment) :
    ((joinsFrom parent before pending segments).filter (·.cardinality = .toMany)).map (·.target) =
      takenFrom before segments := by
  fun_induction joinsFrom parent before pending segments with
  | case1 => rfl
  | case2 => rfl
  | case3 parent before pending segment segments hne here cardinality hlink ih =>
      rw [takenFrom_cons hne, hlink]
      cases cardinality with
      | toOne =>
          rw [if_neg (by decide), List.filter_cons_of_neg (by simp)]
          exact ih
      | toMany => rw [if_pos rfl, List.filter_cons_of_pos (by simp), List.map_cons, ih]
  | case4 parent before pending segment segments hne here hlink ih =>
      rw [takenFrom_cons hne, if_neg (hlink _)]
      exact ih

theorem map_name_eq (h : List.Forall₂ Segment.Inlined segments segments') :
    segments'.map (·.name) = segments.map (·.name) := by
  induction h with
  | nil => rfl
  | cons hs _ ih => rw [List.map_cons, List.map_cons, hs.name, ih]

theorem takenFrom_eq (h : List.Forall₂ Segment.Inlined segments segments') :
    ∀ before, takenFrom before segments' = takenFrom before segments := by
  induction h with
  | nil => exact fun _ => rfl
  | @cons s s' rest rest' hs hrest ih =>
      intro before
      cases hrest with
      | nil => rfl
      | cons _ _ =>
          rw [takenFrom_cons (List.cons_ne_nil _ _), takenFrom_cons (List.cons_ne_nil _ _), hs.name,
            ih]
          simp only [hs.toMany_iff]

theorem any_getLast?_eq (h : List.Forall₂ Segment.Inlined segments segments') :
    segments'.getLast?.any (·.link == some (.relation .toMany)) =
      segments.getLast?.any (·.link == some (.relation .toMany)) := by
  induction h with
  | nil => rfl
  | @cons s s' rest rest' hs hrest ih =>
      cases hrest with
      | nil =>
          rw [List.getLast?_singleton, List.getLast?_singleton, Option.any_some, Option.any_some,
            Bool.eq_iff_iff, beq_iff_eq, beq_iff_eq]
          exact hs.toMany_iff
      | cons _ _ => exact ih

end ResolvedPath

namespace Entity

variable {p : ResolvedPath}

theorem Inlined.segments_again (h : e.Inlined e') (hp : e.Resolves p) :
    List.Forall₂ Segment.Inlined p.segments (e'.again p).segments :=
  hp.leads.retrace_inlined h

theorem Inlined.resolves_again (h : e.Inlined e') (hp : e.Resolves p) :
    e'.Resolves (e'.again p) := by
  obtain ⟨property, hp⟩ := hp
  refine ⟨property, ?_⟩
  rw [h.resolve_eq, hp]
  rfl

theorem Inlined.names_again (h : e.Inlined e') (hp : e.Resolves p) : (e'.again p).names = p.names :=
  ResolvedPath.map_name_eq (h.segments_again hp)

theorem Inlined.isCollection_again (h : e.Inlined e') (hp : e.Resolves p) :
    (e'.again p).isCollection = p.isCollection := by
  rw [ResolvedPath.isCollection, ResolvedPath.isCollection,
    ResolvedPath.any_getLast?_eq (h.segments_again hp)]
  rfl

/-- **The same joins to many are left.** -/
theorem Inlined.takenFrom_again (h : e.Inlined e') (hp : e.Resolves p) :
    ResolvedPath.takenFrom [] (e'.again p).segments = ResolvedPath.takenFrom [] p.segments :=
  ResolvedPath.takenFrom_eq (h.segments_again hp) []

end Entity

end RecordFilter
