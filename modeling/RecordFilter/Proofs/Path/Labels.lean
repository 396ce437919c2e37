/-
# `Proofs.Path.Labels` — the names in the joins of a path

A query names a joined entity by a text, the label of its alias; a join keeps the
names themselves.  The two say the same: no name that a path resolves through holds
a dot, so a label is cut into the names of its alias (`Alias.label_inj`), and joins
with the same label are the same join (`Entity.Resolves.join_unique_of_label`).

All names in the joins of a path, and in its accessor, are names of the path:

    attributes of the joins, in order, ++ accessor  =  names of the path
                                              (`flatMap_attributes_append_accessor`)
    the target of a join is a beginning of the names        (`target_begins`)

So what no name holds stands in no text that is made of them (`ResolvedPath.Lacks`).
-/
import RecordFilter.Proofs.Path.Joins

namespace RecordFilter

/-! ## Labels -/

/-- An alias that its label tells: it has names, and none of them holds a dot. -/
structure Alias.Dotless (a : Alias) : Prop where
  ne_nil : a ≠ []
  no_dot : ∀ name ∈ a, '.' ∉ name.toList

/-- **Aliases are told by their labels.** -/
theorem Alias.label_inj {a b : Alias} (ha : a.Dotless) (hb : b.Dotless) :
    a.label = b.label ↔ a = b := by
  constructor
  · intro h
    rw [← Text.dotted_joinDots ha.ne_nil ha.no_dot, ← Text.dotted_joinDots hb.ne_nil hb.no_dot]
    exact congrArg Text.dotted h
  · intro h
    rw [h]

/-- The name that a query gives to what a join starts from. -/
def Join.start (j : Join) : String :=
  (j.parent.map Alias.label).getD Alias.root

namespace ResolvedPath

/-! ## The names of a path -/

variable {p : ResolvedPath} {j : Join}

/-- Each name behind the names `pending` is read once: on the way to a join, or at
the end. -/
theorem flatMap_attributes_joinsFrom (parent : Option Alias) (before pending : List String)
    (segments : List Segment) :
    (joinsFrom parent before pending segments).flatMap (·.attributes) ++
        accessorFrom pending segments =
      pending ++ segments.map (·.name) := by
  fun_induction joinsFrom parent before pending segments with
  | case1 => rw [accessorFrom, List.flatMap_nil, List.nil_append, List.map_nil, List.append_nil]
  | case2 => rw [accessorFrom, List.flatMap_nil, List.nil_append, List.map_singleton]
  | case3 parent before pending segment segments hne here cardinality hlink ih =>
      rw [accessorFrom_relation hlink hne, List.flatMap_cons, List.append_assoc, ih,
        List.nil_append, List.append_assoc]
      rfl
  | case4 parent before pending segment segments hne here hlink ih =>
      rw [accessorFrom_inside hlink hne, ih, List.append_assoc]
      rfl

/-- **A resolved path loses no name:** the attributes of its joins, in order, and then
the accessor are its names. -/
theorem flatMap_attributes_append_accessor (p : ResolvedPath) :
    p.joins.flatMap (·.attributes) ++ p.accessor = p.names :=
  flatMap_attributes_joinsFrom none [] [] p.segments

theorem target_begins (h : j ∈ p.joins) : j.target <+: p.names := by
  obtain ⟨front, back, hsegments, _, htarget, _⟩ := joinsFrom_front h
  refine ⟨back.map (·.name), ?_⟩
  rw [htarget, names, hsegments, List.map_append, List.nil_append]

theorem parent_begins {a : Alias} (h : j ∈ p.joins) (ha : j.parent = some a) : a <+: p.names := by
  obtain ⟨k, hk, rfl, _⟩ := joins_parent h ha
  exact target_begins hk

theorem attributes_subset (h : j ∈ p.joins) : j.attributes ⊆ p.names := by
  intro name hname
  rw [← flatMap_attributes_append_accessor]
  exact List.mem_append_left _ (List.mem_flatMap.mpr ⟨j, h, hname⟩)

theorem accessor_subset (p : ResolvedPath) : p.accessor ⊆ p.names := by
  intro name hname
  rw [← flatMap_attributes_append_accessor]
  exact List.mem_append_right _ hname

theorem source_begins {a : Alias} (h : p.source = some a) : a <+: p.names := by
  obtain ⟨j, hj, rfl⟩ := source_mem h
  exact target_begins hj

/-! ## Characters that a path lacks -/

/-- A character that stands neither in a name of the path nor between the names. -/
structure Lacks (p : ResolvedPath) (ch : Char) : Prop where
  ne_dot : ch ≠ '.'
  notMem : ∀ name ∈ p.names, ch ∉ name.toList

namespace Lacks

variable {ch : Char}

theorem joinDots (h : p.Lacks ch) {names : List String} (hnames : names ⊆ p.names) :
    ch ∉ (Text.joinDots names).toList := by
  intro hch
  rcases Text.mem_joinDots hch with hdot | ⟨name, hname, hch⟩
  · exact h.ne_dot hdot
  · exact h.notMem name (hnames hname) hch

theorem accessor (h : p.Lacks ch) : ch ∉ (Text.joinDots p.accessor).toList :=
  h.joinDots p.accessor_subset

theorem source (h : p.Lacks ch) {a : Alias} (ha : p.source = some a) : ch ∉ a.label.toList :=
  h.joinDots (source_begins ha).subset

theorem target (h : p.Lacks ch) (hj : j ∈ p.joins) : ch ∉ j.target.label.toList :=
  h.joinDots (target_begins hj).subset

theorem attributes (h : p.Lacks ch) (hj : j ∈ p.joins) :
    ch ∉ (Text.joinDots j.attributes).toList :=
  h.joinDots (attributes_subset hj)

theorem start (h : p.Lacks ch) (hroot : ch ∉ Alias.root.toList) (hj : j ∈ p.joins) :
    ch ∉ j.start.toList := by
  rw [Join.start]
  cases ha : j.parent with
  | none => exact hroot
  | some a => exact h.joinDots (parent_begins hj ha).subset

end Lacks

end ResolvedPath

namespace Entity

variable {e : Entity} {p q : ResolvedPath} {j k : Join}

theorem of_mem_names {property name : String} (h : e.resolve property = .ok p)
    (hname : name ∈ p.names) : '.' ∉ name.toList ∧ ∀ c ∈ name.toList, c ∈ property.toList := by
  rw [(walk_eq_ok_iff.mp h).1] at hname
  exact Text.of_mem_dotted hname

theorem Resolves.target_dotless (h : e.Resolves p) (hj : j ∈ p.joins) : j.target.Dotless := by
  obtain ⟨property, h⟩ := h
  refine ⟨(ResolvedPath.joins_ne_nil hj).1, fun name hname => ?_⟩
  exact (of_mem_names h ((ResolvedPath.target_begins hj).subset hname)).1

/-- **Joins of one label are equal**, on any two paths that an entity resolves. -/
theorem Resolves.join_unique_of_label (hp : e.Resolves p) (hq : e.Resolves q) (hj : j ∈ p.joins)
    (hk : k ∈ q.joins) (h : j.target.label = k.target.label) : j = k :=
  hp.join_unique hq hj hk
    ((Alias.label_inj (hp.target_dotless hj) (hq.target_dotless hk)).mp h)

end Entity

end RecordFilter
