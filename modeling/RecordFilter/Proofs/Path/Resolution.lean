/-
# `Proofs.Path.Resolution` — what a walk through an entity finds

`Entity.Leads` says which segments an entity leads through, and to values of
which type; it follows the attributes and nothing else.  A walk finds what it
says and fails otherwise:

    walk property e names = .ok p  ⟺  p.names = names ∧ e.Leads p.segments p.type

What matters later is that the names alone decide the segments: two routes that
begin with the same names begin with the same segments (`Leads.front_unique`).
-/
import RecordFilter.Path
import RecordFilter.Proofs.Text.Dotted

namespace RecordFilter

namespace Entity

/-! ## Routes -/

/-- `e.Leads segments type`: an entity leads through the segments to values of
the type.  An empty route ends on the entity itself; a plain value ends every
route. -/
inductive Leads : Entity → List Segment → ValueType → Prop
  | here {e : Entity} : Leads e [] .entity
  | basic {e : Entity} {name : String} {type : ValueType} :
      name ≠ "" → e.attribute? name = some (.basic type) → Leads e [⟨name, none⟩] type
  | link {e : Entity} {name : String} {link : Link} {target : String}
      {attributes : List (String × Attribute)} {segments : List Segment} {type : ValueType} :
      name ≠ "" → e.attribute? name = some (.link link target attributes) →
      Leads ⟨target, attributes⟩ segments type → Leads e (⟨name, some link⟩ :: segments) type

theorem leads_of_walk {property : String} {names : List String} :
    ∀ {e : Entity} {p : ResolvedPath}, walk property e names = .ok p →
      p.names = names ∧ e.Leads p.segments p.type := by
  induction names with
  | nil =>
      intro e p h
      cases h
      exact ⟨rfl, .here⟩
  | cons name names ih =>
      intro e p h
      rw [walk] at h
      split at h
      · cases h
      · rename_i hname
        split at h
        · cases h
        · rename_i type hattribute
          match names, h with
          | [], h =>
              cases h
              exact ⟨rfl, .basic hname hattribute⟩
        · rename_i link target attributes hattribute
          match hrest : walk property ⟨target, attributes⟩ names, h with
          | .ok q, h =>
              cases h
              obtain ⟨hnames, hleads⟩ := ih hrest
              exact ⟨congrArg (name :: ·) hnames, .link hname hattribute hleads⟩
          | .error u, h => cases h

theorem Leads.walk_eq_ok {e : Entity} {segments : List Segment} {type : ValueType}
    (h : e.Leads segments type) (property : String) :
    walk property e (segments.map (·.name)) = .ok ⟨segments, type⟩ := by
  induction h with
  | here => rfl
  | basic hname hattribute =>
      rw [List.map_cons, walk, if_neg hname, hattribute]
      rfl
  | link hname hattribute _ ih =>
      rw [List.map_cons, walk, if_neg hname, hattribute]
      simp only [ih, Except.map, behind]

/-- **A walk finds the routes, and only them.** -/
theorem walk_eq_ok_iff {property : String} {e : Entity} {names : List String} {p : ResolvedPath} :
    walk property e names = .ok p ↔ p.names = names ∧ e.Leads p.segments p.type := by
  constructor
  · exact leads_of_walk
  · rintro ⟨rfl, h⟩
    exact h.walk_eq_ok property

/-- The names decide the segments: what two routes through an entity begin with
is the same as soon as it has the same names. -/
theorem Leads.front_unique {front : List Segment} :
    ∀ {e : Entity} {front' back back' : List Segment} {type type' : ValueType},
      e.Leads (front ++ back) type → e.Leads (front' ++ back') type' →
      front.map (·.name) = front'.map (·.name) → front = front' := by
  induction front with
  | nil =>
      intro e front' back back' type type' _ _ hnames
      exact (List.map_eq_nil_iff.mp hnames.symm).symm
  | cons s front ih =>
      intro e front' back back' type type' h h' hnames
      match front', h', hnames with
      | s' :: front', h', hnames =>
          obtain ⟨hname, htail⟩ := List.cons.inj hnames
          rw [List.cons_append] at h h'
          generalize hrest : front ++ back = rest at h
          generalize hrest' : front' ++ back' = rest' at h'
          -- both routes read the attribute of one name
          cases h with
          | basic _ ha =>
              cases h' with
              | basic _ ha' =>
                  obtain rfl := (List.append_eq_nil_iff.mp hrest).1
                  obtain rfl := (List.append_eq_nil_iff.mp hrest').1
                  cases hname
                  rfl
              | link _ ha' _ =>
                  cases hname
                  rw [ha] at ha'
                  cases ha'
          | link _ ha hl =>
              cases h' with
              | basic _ ha' =>
                  cases hname
                  rw [ha] at ha'
                  cases ha'
              | link _ ha' hl' =>
                  cases hname
                  rw [ha] at ha'
                  cases ha'
                  subst hrest
                  subst hrest'
                  rw [ih hl hl' htail]

/-! ## Resolved paths -/

/-- A path that a dotted name resolves to. -/
def Resolves (e : Entity) (p : ResolvedPath) : Prop :=
  ∃ property, e.resolve property = .ok p

theorem Resolves.leads {e : Entity} {p : ResolvedPath} (h : e.Resolves p) :
    e.Leads p.segments p.type := by
  obtain ⟨property, h⟩ := h
  exact (walk_eq_ok_iff.mp h).2

theorem property_of_resolve {e : Entity} {property : String} {p : ResolvedPath}
    (h : e.resolve property = .ok p) : p.property = property := by
  rw [ResolvedPath.property, (walk_eq_ok_iff.mp h).1, Text.joinDots_dotted]

theorem Resolves.segments_ne_nil {e : Entity} {p : ResolvedPath} (h : e.Resolves p) :
    p.segments ≠ [] := by
  obtain ⟨property, h⟩ := h
  intro hnil
  refine Text.dotted_ne_nil property ?_
  rw [← (walk_eq_ok_iff.mp h).1, ResolvedPath.names, hnil]
  rfl

end Entity

end RecordFilter
