/-
# `Proofs.Path.Walk` — which properties resolve, and what breaks the others

A walk goes from entity to entity along links.  `Entity.Through` says which segments lead
where; it follows links only, so each of its steps can be followed by a further name.  A
property then has two ways to end, and a walk ends in one of them:

    links, and behind them any attribute as the last name      (`Entity.Finds`)
    links, and behind them a name that nothing is found by     (`Entity.Breaks`)

Each says what is returned, too: the path with its segments and its type, or the name that
breaks the walk and what it was looked up on.  The links are the same in both, since the
names decide them, and so the name that breaks a walk is the first that does.

    e.resolve property = .ok p     ⟺  e.Finds (Text.dotted property) p
    e.resolve property = .error u  ⟺  e.Breaks (Text.dotted property) u.segment u.entity
                                        and u.property = property
-/
import RecordFilter.Proofs.Path.Resolution

namespace RecordFilter

/-! ## Attributes as ends -/

/-- How an attribute leads on: a plain value leads nowhere. -/
def Attribute.link? : Attribute → Option Link
  | basic _ => none
  | link how _ _ => some how

/-- The type of the value that an attribute ends a path on. -/
def Attribute.type : Attribute → ValueType
  | basic type => type
  | link _ _ _ => .entity

namespace Entity

/-! ## Ways to end -/

/-- `e.Through segments here`: the segments lead from `e` to `here`.  Each of them has the
name of an attribute of the entity that is reached in front of it, and this is a link. -/
inductive Through : Entity → List Segment → Entity → Prop
  | here (e : Entity) : Through e [] e
  | link {e here : Entity} {name : String} {link : Link} {target : String}
      {attributes : List (String × Attribute)} {segments : List Segment} :
      name ≠ "" → e.attribute? name = some (.link link target attributes) →
      Through ⟨target, attributes⟩ segments here → Through e (⟨name, some link⟩ :: segments) here

/-- `e.Finds names p`: the names lead through `e`, all but the last along links, and the last
to any attribute.  The path has a segment for each name, linked as its attribute is, and
the type of the last. -/
inductive Finds (e : Entity) : List String → ResolvedPath → Prop
  | last {front : List Segment} {here : Entity} {name : String} {a : Attribute} :
      e.Through front here → name ≠ "" → here.attribute? name = some a →
      Finds e (front.map (·.name) ++ [name]) ⟨front ++ [⟨name, a.link?⟩], a.type⟩

/-- `e.Breaks names segment entity`: `segment` is the first of the names that does not lead
on.  Either it is looked up on an entity and finds nothing there, or it stands behind the
name of a plain value. -/
inductive Breaks (e : Entity) : List String → String → String → Prop
  | unknown {front : List Segment} {here : Entity} {name : String} (rest : List String) :
      e.Through front here → name = "" ∨ here.attribute? name = none →
      Breaks e (front.map (·.name) ++ name :: rest) name here.name
  | value {front : List Segment} {here : Entity} {name : String} {type : ValueType}
      (other : String) (rest : List String) :
      e.Through front here → name ≠ "" → here.attribute? name = some (.basic type) →
      Breaks e (front.map (·.name) ++ name :: other :: rest) other
        (type.describe ++ " value " ++ here.name ++ "." ++ name)

variable {e here : Entity} {front : List Segment} {name : String} {names : List String}
  {p : ResolvedPath}

/-! ## Every list of names ends in one way -/

section Link

variable {link : Link} {target : String} {attributes : List (String × Attribute)}

theorem Finds.behind (hname : name ≠ "")
    (h : e.attribute? name = some (.link link target attributes))
    (hp : Finds ⟨target, attributes⟩ names p) :
    e.Finds (name :: names) (Entity.behind ⟨name, some link⟩ p) := by
  cases hp with
  | last hfront hlast ha => exact .last (.link hname h hfront) hlast ha

theorem Breaks.behind {segment entity : String} (hname : name ≠ "")
    (h : e.attribute? name = some (.link link target attributes))
    (hbreaks : Breaks ⟨target, attributes⟩ names segment entity) :
    e.Breaks (name :: names) segment entity := by
  cases hbreaks with
  | unknown rest hfront hlast => exact .unknown rest (.link hname h hfront) hlast
  | value _ rest hfront hlast ha => exact .value _ rest (.link hname h hfront) hlast ha

end Link

/-- **Names lead to a value or break**, if there are any. -/
theorem finds_or_breaks (hne : names ≠ []) (e : Entity) :
    (∃ p, e.Finds names p) ∨ ∃ segment entity, e.Breaks names segment entity := by
  induction names generalizing e with
  | nil => exact absurd rfl hne
  | cons name names ih =>
      by_cases hname : name = ""
      · exact .inr ⟨_, _, .unknown names (.here e) (.inl hname)⟩
      · cases ha : e.attribute? name with
        | none => exact .inr ⟨_, _, .unknown names (.here e) (.inr ha)⟩
        | some a =>
            cases names with
            | nil => exact .inl ⟨_, .last (.here e) hname ha⟩
            | cons other rest =>
                cases a with
                | basic type => exact .inr ⟨_, _, .value other rest (.here e) hname ha⟩
                | link link target attributes =>
                    rcases ih (List.cons_ne_nil other rest) ⟨target, attributes⟩ with
                      ⟨p, hp⟩ | ⟨segment, entity, hbreaks⟩
                    · exact .inl ⟨_, hp.behind hname ha⟩
                    · exact .inr ⟨_, _, hbreaks.behind hname ha⟩

/-! ## A walk ends as its names do -/

theorem Through.walk_eq (h : e.Through front here) (property : String) (names : List String) :
    walk property e (front.map (·.name) ++ names) =
      (walk property here names).map fun p => ⟨front ++ p.segments, p.type⟩ := by
  induction h with
  | here e =>
      rw [List.map_nil, List.nil_append]
      cases walk property e names <;> rfl
  | link hname ha _ ih =>
      rw [List.map_cons, List.cons_append, walk, if_neg hname, ha]
      simp only [ih]
      cases walk property _ names <;> rfl

theorem Finds.walk_eq (h : e.Finds names p) (property : String) :
    walk property e names = .ok p := by
  cases h with
  | @last front here name a hfront hname ha =>
      have hlast : walk property here [name] = .ok ⟨[⟨name, a.link?⟩], a.type⟩ := by
        rw [walk, if_neg hname, ha]
        cases a <;> rfl
      rw [hfront.walk_eq, hlast]
      rfl

theorem Breaks.walk_eq {segment entity : String} (h : e.Breaks names segment entity)
    (property : String) : walk property e names = .error ⟨property, segment, entity⟩ := by
  cases h with
  | @unknown _ here _ rest hfront hname =>
      have hlast : walk property here (segment :: rest) =
          .error ⟨property, segment, here.name⟩ := by
        rw [walk]
        rcases hname with hname | hname
        · exact if_pos hname
        · rw [hname]
          exact ite_self _
      rw [hfront.walk_eq, hlast]
      rfl
  | value other rest hfront hname ha =>
      rw [hfront.walk_eq, walk, if_neg hname, ha]
      rfl

theorem walk_eq_ok_iff_finds (hne : names ≠ []) {property : String} :
    walk property e names = .ok p ↔ e.Finds names p := by
  constructor
  · intro h
    rcases finds_or_breaks hne e with ⟨q, hq⟩ | ⟨segment, entity, hbreaks⟩
    · rw [hq.walk_eq] at h
      cases h
      exact hq
    · rw [hbreaks.walk_eq] at h
      cases h
  · intro h
    exact h.walk_eq property

theorem walk_eq_error_iff_breaks (hne : names ≠ []) {property : String} {u : UnknownProperty} :
    walk property e names = .error u ↔
      u.property = property ∧ e.Breaks names u.segment u.entity := by
  constructor
  · intro h
    rcases finds_or_breaks hne e with ⟨q, hq⟩ | ⟨segment, entity, hbreaks⟩
    · rw [hq.walk_eq] at h
      cases h
    · rw [hbreaks.walk_eq] at h
      cases h
      exact ⟨rfl, hbreaks⟩
  · rintro ⟨rfl, h⟩
    exact h.walk_eq u.property

end Entity

/-- **A property resolves if and only if its names lead through the entity.**  The names are
what stands between the dots of the property, one at least.  Where they lead, the path has
a segment for each name, linked as its attribute is, and the type of the last attribute.
Where they do not, the error has the whole property, the first name that breaks the walk,
and what this name was looked up on. -/
theorem property_resolves_or_breaks (e : Entity) (property : String) :
    (∀ names, Text.dotted property = names ↔
      names ≠ [] ∧ (∀ name ∈ names, '.' ∉ name.toList) ∧ Text.joinDots names = property) ∧
    (∀ p, e.resolve property = .ok p ↔ e.Finds (Text.dotted property) p) ∧
    ∀ u, e.resolve property = .error u ↔
      u.property = property ∧ e.Breaks (Text.dotted property) u.segment u.entity := by
  have hne := Text.dotted_ne_nil property
  refine ⟨fun names => Text.dotted_eq_iff, fun p => ?_, fun u => ?_⟩
  · exact Entity.walk_eq_ok_iff_finds hne
  · exact Entity.walk_eq_error_iff_breaks hne

end RecordFilter
