/-
# `Proofs.Path.Cuts` — a resolved path loses nothing

The names of a path are read in stretches.  A stretch goes on inside one value, through
embedded segments, up to a relation with something behind it, and there a join is made;
what is left at the end is the accessor.  `ResolvedPath.Cuts` is this cutting as a relation
between the segments and what is made of them:

    inside  = embedded, …, embedded
    inside, relation, back   is cut into   one join for `inside, relation`,
                                           and the cuts of `back`, read from its target
    inside, segment          is the accessor, whatever the last segment is

and the loop that fills and empties a buffer makes these cuts (`cuts_joinsFrom`).  All the
rest is read off: how many joins there are and where (`Cuts.relations_eq`), what each
starts from (`Cuts.map_parent`), and what each takes of the path (`Cuts.takes`).
-/
import RecordFilter.Proofs.Path.Labels

namespace RecordFilter

/-! ## What a join says of a path -/

/-- How many a relation leads to. -/
def Link.cardinality? : Link → Option Cardinality
  | embedded => none
  | relation cardinality => some cardinality

/-- The relations among segments, the last segment apart: for each, in order, how many names
there are up to it, with `n` names in front of all, and how many it leads to. -/
def Segment.relations (n : Nat) (segments : List Segment) : List (Nat × Cardinality) :=
  (segments.dropLast.zipIdx n).filterMap fun entry =>
    (entry.1.link.bind Link.cardinality?).map fun cardinality => (entry.2 + 1, cardinality)

/-- What a join takes of the segments of a path: the embedded segments `inside` and the
relation behind them.  In front of these is what its parent is the alias of, and something
is left behind. -/
structure Join.Takes (j : Join) (segments front inside : List Segment) (relation : Segment)
    (back : List Segment) : Prop where
  segments_eq : segments = front ++ inside ++ relation :: back
  parent : j.parent.getD [] = front.map (·.name)
  target : j.target = (front ++ inside ++ [relation]).map (·.name)
  attributes : j.attributes = (inside ++ [relation]).map (·.name)
  embedded : ∀ segment ∈ inside, segment.link = some .embedded
  link : relation.link = some (.relation j.cardinality)
  back_ne_nil : back ≠ []

namespace ResolvedPath

/-- `Cuts parent before segments joins accessor`: the segments, which stand behind the names
`before` and are read from `parent`, are cut into the joins and the accessor. -/
inductive Cuts : Option Alias → List String → List Segment → List Join → List String → Prop
  | last {parent : Option Alias} {before : List String} {inside : List Segment}
      (segment : Segment) : (∀ s ∈ inside, s.link = some .embedded) →
      Cuts parent before (inside ++ [segment]) [] ((inside ++ [segment]).map (·.name))
  | join {parent : Option Alias} {before accessor : List String} {inside back : List Segment}
      {relation : Segment} {j : Join} {joins : List Join} :
      j.parent = parent → j.target = before ++ (inside ++ [relation]).map (·.name) →
      j.attributes = (inside ++ [relation]).map (·.name) →
      (∀ s ∈ inside, s.link = some .embedded) → relation.link = some (.relation j.cardinality) →
      Cuts (some j.target) j.target back joins accessor →
      Cuts parent before (inside ++ relation :: back) (j :: joins) accessor

variable {parent : Option Alias} {before accessor : List String}
  {segments inside back : List Segment} {relation : Segment} {joins : List Join}

/-! ## The loop cuts -/

theorem embedded_nil : ∀ segment ∈ ([] : List Segment), segment.link = some .embedded := by
  intro segment hsegment
  cases hsegment

/-- The buffer holds the names of the embedded segments `inside`. -/
theorem cuts_joinsFrom (hne : segments ≠ [])
    (hlinks : ∀ segment ∈ segments.dropLast, segment.link ≠ none)
    (hinside : ∀ segment ∈ inside, segment.link = some .embedded) (parent : Option Alias)
    (before : List String) :
    Cuts parent before (inside ++ segments)
      (joinsFrom parent (before ++ inside.map (·.name)) (inside.map (·.name)) segments)
      (accessorFrom (inside.map (·.name)) segments) := by
  induction segments generalizing parent before inside with
  | nil => exact absurd rfl hne
  | cons segment segments ih =>
      by_cases hlast : segments = []
      · subst hlast
        have hcuts : Cuts parent before (inside ++ [segment]) []
            ((inside ++ [segment]).map (·.name)) := .last segment hinside
        rw [List.map_append] at hcuts
        exact hcuts
      · rw [List.dropLast_cons_of_ne_nil hlast, List.forall_mem_cons] at hlinks
        obtain ⟨hlink, hlinks⟩ := hlinks
        cases hcase : segment.link with
        | none => exact absurd hcase hlink
        | some link =>
            cases link with
            | embedded =>
                have hhere : ∀ s ∈ inside ++ [segment], s.link = some .embedded :=
                  List.forall_mem_append.mpr ⟨hinside, List.forall_mem_singleton.mpr hcase⟩
                have hrest := ih hlast hlinks hhere parent before
                rw [joinsFrom_inside (by simp [hcase]) hlast,
                  accessorFrom_inside (by simp [hcase]) hlast]
                rw [List.map_append, ← List.append_assoc, List.append_assoc] at hrest
                exact hrest
            | relation cardinality =>
                have hrest := ih hlast hlinks embedded_nil
                  (some (before ++ (inside ++ [segment]).map (·.name)))
                  (before ++ (inside ++ [segment]).map (·.name))
                rw [joinsFrom_relation hcase hlast, accessorFrom_relation hcase hlast]
                rw [List.map_nil, List.append_nil, List.nil_append] at hrest
                rw [List.append_assoc, ← List.map_singleton, ← List.map_append]
                exact .join rfl rfl rfl hinside hcase hrest

/-! ## What is read off the cuts -/

theorem Cuts.ne_nil (h : Cuts parent before segments joins accessor) : segments ≠ [] := by
  cases h <;> simp

theorem relations_inside (hinside : ∀ s ∈ inside, s.link = some .embedded) (n : Nat) :
    (inside.zipIdx n).filterMap (fun entry =>
      (entry.1.link.bind Link.cardinality?).map fun cardinality => (entry.2 + 1, cardinality)) =
        [] := by
  rw [List.filterMap_eq_nil_iff]
  intro entry hentry
  rw [hinside _ (List.fst_mem_of_mem_zipIdx hentry)]
  rfl

/-- **There is a join for each relation with something behind it**, in order. -/
theorem Cuts.relations_eq (h : Cuts parent before segments joins accessor) :
    joins.map (fun j => (j.depth, j.cardinality)) = Segment.relations before.length segments := by
  induction h with
  | last segment hinside =>
      rw [Segment.relations, List.dropLast_concat, relations_inside hinside]
      rfl
  | @join _ before _ inside back relation j joins _ htarget _ hinside hlink hback ih =>
      have hdepth : before.length + inside.length + 1 = j.depth := by
        rw [Join.depth, htarget, List.length_append, List.length_map, List.length_append]
        rfl
      rw [Segment.relations, List.dropLast_append_of_ne_nil (List.cons_ne_nil _ _),
        List.dropLast_cons_of_ne_nil hback.ne_nil, List.zipIdx_append, List.filterMap_append,
        relations_inside hinside, List.nil_append, List.zipIdx_cons, hdepth, List.map_cons, ih]
      refine (List.filterMap_cons_some ?_).symm
      simp only [hlink, Option.bind_some, Link.cardinality?, Option.map_some, hdepth]

/-- **A join starts from the one before it**, and the first from where the path starts. -/
theorem Cuts.map_parent (h : Cuts parent before segments joins accessor) :
    joins.map (·.parent) = (parent :: joins.map fun j => some j.target).dropLast := by
  induction h with
  | last _ _ => rfl
  | join hparent _ _ _ _ _ ih =>
      rw [List.map_cons, List.map_cons, List.dropLast_cons_cons, ← ih, hparent]

/-- **A join takes a stretch of the path.** -/
theorem Cuts.takes (h : Cuts parent before segments joins accessor) :
    ∀ front : List Segment, before = front.map (·.name) → parent.getD [] = before →
      ∀ j ∈ joins, ∃ front' inside relation back,
        j.Takes (front ++ segments) front' inside relation back := by
  induction h with
  | last _ _ =>
      intro front _ _ j hj
      cases hj
  | @join _ before _ inside back relation j joins hparent htarget hattributes hinside hlink hback
      ih =>
      intro front hbefore hstart
      have hhere : j.target = (front ++ inside ++ [relation]).map (·.name) := by
        rw [htarget, hbefore, ← List.map_append, List.append_assoc]
      refine List.forall_mem_cons.mpr ⟨?_, ?_⟩
      · refine ⟨front, inside, relation, back, ?_, ?_, hhere, hattributes, hinside, hlink,
          hback.ne_nil⟩
        · rw [List.append_assoc]
        · rw [hparent, hstart, hbefore]
      · have hrest := ih (front ++ inside ++ [relation]) hhere rfl
        rw [List.append_assoc, List.append_assoc, List.singleton_append] at hrest
        exact hrest

end ResolvedPath

/-! ## Resolved paths -/

theorem Entity.Leads.link_ne_none {e : Entity} {segments : List Segment} {type : ValueType}
    (h : e.Leads segments type) : ∀ segment ∈ segments.dropLast, segment.link ≠ none := by
  induction h with
  | here =>
      intro segment hsegment
      cases hsegment
  | basic _ _ =>
      intro segment hsegment
      cases hsegment
  | @link _ _ _ _ _ segments _ _ _ _ ih =>
      by_cases hlast : segments = []
      · subst hlast
        intro segment hsegment
        cases hsegment
      · rw [List.dropLast_cons_of_ne_nil hlast]
        exact List.forall_mem_cons.mpr ⟨Option.some_ne_none _, ih⟩

theorem Entity.Resolves.cuts {e : Entity} {p : ResolvedPath} (h : e.Resolves p) :
    ResolvedPath.Cuts none [] p.segments p.joins p.accessor :=
  ResolvedPath.cuts_joinsFrom h.segments_ne_nil h.leads.link_ne_none ResolvedPath.embedded_nil
    none []

theorem Join.Takes.property_eq {j : Join} {p : ResolvedPath} {front inside back : List Segment}
    {relation : Segment} (h : j.Takes p.segments front inside relation back) :
    p.property = j.target.label ++ "." ++ Text.joinDots (back.map (·.name)) := by
  have hnames : p.names = j.target ++ back.map (·.name) := by
    rw [ResolvedPath.names, h.segments_eq, h.target, ← List.map_append, List.append_assoc _ [_],
      List.singleton_append]
  have htarget : j.target ≠ [] := by
    rw [h.target, List.map_append]
    exact List.append_ne_nil_of_right_ne_nil _ (List.cons_ne_nil _ _)
  rw [ResolvedPath.property, hnames,
    Text.joinDots_append htarget (mt List.map_eq_nil_iff.mp h.back_ne_nil)]
  rfl

/-- **A resolved path loses nothing.**  What its joins read, in order, and then the accessor
are the names of the property.  There is a join for each relation that is not the last
segment, in order; it starts from the target of the one before it, and the first from the
root.  It takes a stretch of the path, embedded segments and then its relation, and its
target is the property up to there.  No stretch is empty, and a single segment makes no
join. -/
theorem resolved_path_loses_nothing (e : Entity) (property : String) (p : ResolvedPath)
    (h : e.resolve property = .ok p) :
    p.joins.flatMap (·.attributes) ++ p.accessor = Text.dotted property ∧
    p.joins.map (fun j => (j.depth, j.cardinality)) = Segment.relations 0 p.segments ∧
    p.joins.map (·.parent) = (none :: p.joins.map fun j => some j.target).dropLast ∧
    (∀ j ∈ p.joins, ∃ front inside relation back,
      j.Takes p.segments front inside relation back ∧
      property = j.target.label ++ "." ++ Text.joinDots (back.map (·.name))) ∧
    (∀ j ∈ p.joins, j.attributes ≠ []) ∧ p.accessor ≠ [] ∧
    (p.segments.length = 1 → p.joins = []) := by
  have hresolves : e.Resolves p := ⟨property, h⟩
  have hcuts := hresolves.cuts
  refine ⟨?_, hcuts.relations_eq, hcuts.map_parent, ?_, ?_, ?_, ?_⟩
  · rw [ResolvedPath.flatMap_attributes_append_accessor]
    exact (Entity.walk_eq_ok_iff.mp h).1
  · intro j hj
    obtain ⟨front, inside, relation, back, htakes⟩ := hcuts.takes [] rfl rfl j hj
    refine ⟨front, inside, relation, back, htakes, ?_⟩
    rw [← Entity.property_of_resolve h]
    exact htakes.property_eq
  · intro j hj
    exact (ResolvedPath.joins_ne_nil hj).2
  · exact ResolvedPath.accessor_ne_nil hresolves.segments_ne_nil
  · intro hone
    obtain ⟨segment, hsegment⟩ := List.length_eq_one_iff.mp hone
    rw [ResolvedPath.joins, hsegment]
    rfl

/-- An embedded address, a region of it and the people there: two joins, of which the first
reads through the address. -/
theorem resolved_path_loses_nothing_region :
    Entity.resolve
        ⟨"Employee", [("address", .to .embedded ⟨"Address", [("region", .to (.relation .toOne)
          ⟨"Region", [("staff", .to (.relation .toMany) ⟨"Person", [("name", .basic .string)]⟩)]⟩)]⟩)]⟩
        "address.region.staff.name" =
      .ok ⟨[⟨"address", some .embedded⟩, ⟨"region", some (.relation .toOne)⟩,
        ⟨"staff", some (.relation .toMany)⟩, ⟨"name", none⟩], .string⟩ ∧
    ["address", "region"] ++ ["staff"] ++ ["name"] = Text.dotted "address.region.staff.name" ∧
    [(2, .toOne), (3, .toMany)] = Segment.relations 0 [⟨"address", some .embedded⟩,
      ⟨"region", some (.relation .toOne)⟩, ⟨"staff", some (.relation .toMany)⟩, ⟨"name", none⟩] ∧
    [none, some ["address", "region"]] =
      [none, some ["address", "region"], some ["address", "region", "staff"]].dropLast := by
  have hresolve : Entity.resolve
      ⟨"Employee", [("address", .to .embedded ⟨"Address", [("region", .to (.relation .toOne)
        ⟨"Region", [("staff", .to (.relation .toMany) ⟨"Person", [("name", .basic .string)]⟩)]⟩)]⟩)]⟩
      "address.region.staff.name" =
      .ok ⟨[⟨"address", some .embedded⟩, ⟨"region", some (.relation .toOne)⟩,
        ⟨"staff", some (.relation .toMany)⟩, ⟨"name", none⟩], .string⟩ := by
    rfl
  obtain ⟨hnames, hrelations, hparents, _⟩ := resolved_path_loses_nothing _ _ _ hresolve
  exact ⟨hresolve, hnames, hrelations, hparents⟩

end RecordFilter
