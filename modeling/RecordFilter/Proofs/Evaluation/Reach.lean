/-
# `Proofs.Evaluation.Reach` — what names lead to under a choice

A row binds aliases, and a path is read from one of them.  Which alias that is, and
which names are left to be read from it, depends on where the path is cut into joins.
Under a choice none of this matters.  `Entity.reach` goes from the record along names
alone, and takes the chosen element wherever a relation to many leads to a list;
on a row that follows the choice

    a join finds what its target's names reach                 (`Follows.found_eq`)
    a path reads what its names reach                          (`Follows.read_eq`)

and a choice is consistent if and only if it takes an element wherever there is one
to be taken, and is 0 elsewhere (`consistent_iff`).  So two predicates are true on
equally many rows as soon as names reach the same for both (`trueRows_mapPaths`),
however differently their paths are cut.
-/
import Mathlib.Data.List.Perm.Basic
import RecordFilter.Proofs.Evaluation.Choices

namespace RecordFilter

/-! ## Names from a value -/

/-- What a link is entered with where its name leads to `found`: the element at a
position of a list, for a relation to many; for any other relation what is there and
not null; inside the same value nothing changes. -/
def Link.enter : Link → Nat → Option Json → Option Json
  | .relation .toMany, i, some (.array items) => items[i]?
  | .relation _, _, found => Json.present? found
  | .embedded, _, found => found

/-- What names lead to from a value that the names `before` led to.  Each link on the
way is entered at the position that is chosen for the names up to it; the last name
is only read. -/
def Entity.reachFrom (choice : Choice) : Entity → Alias → Option Json → List String → Option Json
  | _, _, value, [] => value
  | _, _, value, [name] => value.bind (·.get? name)
  | e, before, value, name :: names =>
    match e.attribute? name with
    | some (.link link target attributes) =>
      reachFrom choice ⟨target, attributes⟩ (before ++ [name])
        (link.enter (choice (before ++ [name])) (value.bind (·.get? name))) names
    | _ => none

/-- What names lead to from a record. -/
def Entity.reach (choice : Choice) (record : Json) (e : Entity) (names : Alias) : Option Json :=
  e.reachFrom choice [] (some record) names

theorem Entity.reachFrom_link {choice : Choice} {e : Entity} {before : Alias}
    {value : Option Json} {name : String} {names : List String} {link : Link} {target : String}
    {attributes : List (String × Attribute)}
    (h : e.attribute? name = some (.link link target attributes)) (hne : names ≠ []) :
    e.reachFrom choice before value (name :: names) =
      reachFrom choice ⟨target, attributes⟩ (before ++ [name])
        (link.enter (choice (before ++ [name])) (value.bind (·.get? name))) names := by
  rw [reachFrom, h]
  exact hne

theorem Json.descend_concat (value : Json) (names : List String) (name : String) :
    value.descend (names ++ [name]) = (value.descend names).bind (·.get? name) := by
  induction names generalizing value with
  | nil =>
      show value.descend [name] = value.get? name
      rw [Json.descend]
      cases value.get? name <;> rfl
  | cons first names ih =>
      rw [List.cons_append, Json.descend, Json.descend]
      cases value.get? first with
      | none => rfl
      | some next => exact ih next

@[simp]
theorem Json.bind_get?_present? (value : Option Json) (name : String) :
    (present? value).bind (·.get? name) = value.bind (·.get? name) := by
  cases value with
  | none => rfl
  | some value => cases value <;> rfl

theorem Join.Binds.eq_enter {cardinality : Cardinality} {found b : Option Json} {i : Nat}
    (h : Binds cardinality found i b) : b = (Link.relation cardinality).enter i found := by
  cases h with
  | missing => cases cardinality <;> rfl
  | null => cases cardinality <;> rfl
  | empty => rfl
  | element hitem => exact hitem.symm
  | @value _ v hnull hlist =>
      cases v with
      | null => exact absurd rfl hnull
      | array items =>
          cases cardinality with
          | toOne => rfl
          | toMany => exact absurd rfl (hlist rfl items)
      | _ => cases cardinality <;> rfl

variable {e here : Entity} {record : Json} {row : Row} {choice : Choice}
  {paths : List ResolvedPath} {p : ResolvedPath} {parent : Option Alias}
  {before pending : List String}

/-! ## Along a path -/

namespace Entity

/-- A point on the way of a path: the names `before` lead to the entity `here`, and
what they reach is on the row what the names `pending` lead to from `parent`. -/
def Stands (e : Entity) (choice : Choice) (record : Json) (row : Row) (here : Entity)
    (parent : Option Alias) (before pending : List String) : Prop :=
  ∀ names, names ≠ [] → e.reach choice record (before ++ names) =
    here.reachFrom choice before ((row.value? record parent).bind (·.descend pending)) names

theorem Stands.read (h : e.Stands choice record row here parent before pending) (name : String) :
    (row.value? record parent).bind (·.descend (pending ++ [name])) =
      e.reach choice record (before ++ [name]) := by
  rw [h _ (List.cons_ne_nil _ _), reachFrom, Option.bind_assoc]
  exact congrArg (Option.bind _) (funext fun value => Json.descend_concat value pending name)

variable {name target : String} {attributes : List (String × Attribute)} {link : Link}

/-- What names reach behind a link is what they reach from the value it is entered
with. -/
theorem Stands.reach_link (h : e.Stands choice record row here parent before pending)
    (hattribute : here.attribute? name = some (.link link target attributes))
    {names : List String} (hne : names ≠ []) :
    e.reach choice record (before ++ [name] ++ names) =
      reachFrom choice ⟨target, attributes⟩ (before ++ [name])
        (link.enter (choice (before ++ [name])) (e.reach choice record (before ++ [name])))
        names := by
  rw [List.append_assoc, List.singleton_append, h _ (List.cons_ne_nil _ _),
    reachFrom_link hattribute hne, h _ (List.cons_ne_nil _ _), reachFrom]

theorem Stands.embedded (h : e.Stands choice record row here parent before pending)
    (hattribute : here.attribute? name = some (.link .embedded target attributes)) :
    e.Stands choice record row ⟨target, attributes⟩ parent (before ++ [name])
      (pending ++ [name]) := by
  intro names hne
  rw [h.reach_link hattribute hne, h.read]
  rfl

theorem Stands.relation {cardinality : Cardinality}
    (h : e.Stands choice record row here parent before pending)
    (hattribute : here.attribute? name = some (.link (.relation cardinality) target attributes))
    (hbound : row.bound? (before ++ [name]) = (Link.relation cardinality).enter
      (choice (before ++ [name])) (e.reach choice record (before ++ [name]))) :
    e.Stands choice record row ⟨target, attributes⟩ (some (before ++ [name])) (before ++ [name])
      [] := by
  intro names hne
  have hvalue : (row.value? record (some (before ++ [name]))).bind (·.descend []) =
      row.bound? (before ++ [name]) := Option.bind_fun_some _
  rw [h.reach_link hattribute hne, hvalue, hbound]

end Entity

namespace ResolvedPath

/-- The last of some joins, and where they start from if there is none. -/
def lastTarget (parent : Option Alias) (joins : List Join) : Option Alias :=
  (joins.getLast?.map (·.target)).or parent

@[simp]
theorem lastTarget_cons (parent : Option Alias) (j : Join) (joins : List Join) :
    lastTarget parent (j :: joins) = lastTarget (some j.target) joins := by
  rw [lastTarget, lastTarget, List.getLast?_cons]
  cases joins.getLast? <;> rfl

/-- **A path goes where its names do.**  If each join is bound to what is entered at its
target, as soon as it finds what its target's names reach, then each join finds it, and
the path reads what all its names reach. -/
theorem found_joinsFrom {segments : List Segment} {type : ValueType}
    (hleads : here.Leads segments type) (hne : segments ≠ [])
    (hstands : e.Stands choice record row here parent before pending)
    (hjoins : ∀ j ∈ joinsFrom parent before pending segments,
      j.found record row = e.reach choice record j.target →
      row.bound? j.target = (Link.relation j.cardinality).enter (choice j.target)
        (e.reach choice record j.target)) :
    (∀ j ∈ joinsFrom parent before pending segments,
      j.found record row = e.reach choice record j.target) ∧
    (row.value? record (lastTarget parent (joinsFrom parent before pending segments))).bind
        (·.descend (accessorFrom pending segments)) =
      e.reach choice record (before ++ segments.map (·.name)) := by
  induction hleads generalizing parent before pending with
  | here => exact absurd rfl hne
  | basic _ _ => exact ⟨fun j hj => (nomatch hj), hstands.read _⟩
  | @link here name link target attributes segments type _ hattribute _ ih =>
      by_cases hlast : segments = []
      · subst hlast
        exact ⟨fun j hj => (nomatch hj), hstands.read _⟩
      · rw [List.map_cons, List.append_cons]
        cases link with
        | embedded =>
            have hlink : ∀ cardinality,
                (Segment.mk name (some .embedded)).link ≠ some (.relation cardinality) :=
              fun _ h => nomatch h
            rw [joinsFrom_inside hlink hlast] at hjoins ⊢
            rw [accessorFrom_inside hlink hlast]
            exact ih hlast (hstands.embedded hattribute) hjoins
        | relation cardinality =>
            have hlink : (Segment.mk name (some (.relation cardinality))).link =
                some (.relation cardinality) := rfl
            rw [joinsFrom_relation hlink hlast] at hjoins ⊢
            rw [accessorFrom_relation hlink hlast, lastTarget_cons]
            obtain ⟨hfirst, hrest⟩ := List.forall_mem_cons.mp hjoins
            have hfound := hstands.read name
            obtain ⟨hothers, hread⟩ := ih hlast
              (hstands.relation hattribute (hfirst hfound)) hrest
            exact ⟨List.forall_mem_cons.mpr ⟨hfound, hothers⟩, hread⟩

theorem read_eq (p : ResolvedPath) (record : Json) (row : Row) :
    p.read record row =
      Json.present?
        ((row.value? record (lastTarget none p.joins)).bind (·.descend p.accessor)) := by
  have hsource : lastTarget none p.joins = p.source := Option.or_none
  rw [hsource, read]
  cases p.source <;> rfl

theorem read_eq_reach (hp : e.Resolves p)
    (hjoins : ∀ j ∈ p.joins, j.found record row = e.reach choice record j.target →
      row.bound? j.target = (Link.relation j.cardinality).enter (choice j.target)
        (e.reach choice record j.target)) :
    (∀ j ∈ p.joins, j.found record row = e.reach choice record j.target) ∧
      p.read record row = Json.present? (e.reach choice record p.names) := by
  have hstart : e.Stands choice record row e none [] [] := fun _ _ => rfl
  obtain ⟨hfound, hread⟩ := found_joinsFrom hp.leads hp.segments_ne_nil hstart hjoins
  rw [read_eq]
  exact ⟨hfound, congrArg Json.present? hread⟩

end ResolvedPath

/-! ## Rows of a plan -/

namespace Row

/-- Where each join binds its target at the chosen position, it binds it to what the
relation is entered with. -/
theorem Follows.enter (hpaths : ∀ p ∈ paths, e.Resolves p) (hp : p ∈ paths)
    (h : row.Follows record (Join.plan paths) choice) :
    ∀ j ∈ p.joins, j.found record row = e.reach choice record j.target →
      row.bound? j.target = (Link.relation j.cardinality).enter (choice j.target)
        (e.reach choice record j.target) := by
  intro j hj hfound
  rw [← hfound]
  exact (h.binds j ((Join.mem_plan_iff hpaths).mpr ⟨p, hp, hj⟩)).eq_enter

/-- **A join finds what its target's names reach**, on a row that follows the choice. -/
theorem Follows.found_eq (hpaths : ∀ p ∈ paths, e.Resolves p)
    (h : row.Follows record (Join.plan paths) choice) :
    ∀ j ∈ Join.plan paths, j.found record row = e.reach choice record j.target := by
  intro j hj
  obtain ⟨p, hp, hjp⟩ := Join.mem_of_mem_plan hj
  exact (ResolvedPath.read_eq_reach (hpaths p hp) (h.enter hpaths hp)).1 j hjp

/-- **A path reads what its names reach.** -/
theorem Follows.read_eq (hpaths : ∀ p ∈ paths, e.Resolves p) (hp : p ∈ paths)
    (h : row.Follows record (Join.plan paths) choice) :
    p.read record row = Json.present? (e.reach choice record p.names) :=
  (ResolvedPath.read_eq_reach (hpaths p hp) (h.enter hpaths hp)).2

/-- The row that a choice asks for. -/
def chosen (e : Entity) (choice : Choice) (record : Json) (joins : List Join) : Row :=
  (joins.map fun j => (j.target, (Link.relation j.cardinality).enter (choice j.target)
    (e.reach choice record j.target))).reverse

theorem aliases_chosen (e : Entity) (choice : Choice) (record : Json) (joins : List Join) :
    (chosen e choice record joins).aliases = (joins.map (·.target)).reverse := by
  rw [aliases, chosen, List.map_reverse, List.map_map]
  rfl

theorem bound?_of_mem {a : Alias} {b : Option Json} (hnodup : row.aliases.Nodup)
    (h : (a, b) ∈ row) : row.bound? a = b := by
  induction row with
  | nil => cases h
  | cons entry row ih =>
      obtain ⟨hfresh, hrow⟩ := List.nodup_cons.mp hnodup
      rcases List.mem_cons.mp h with rfl | h
      · exact bound?_cons_self a b row
      · have hne : a ≠ entry.1 := by
          rintro rfl
          exact hfresh (List.mem_map.mpr ⟨_, h, rfl⟩)
        exact (bound?_cons_of_ne hne entry.2 row).trans (ih hrow h)

/-- **There is a row for a choice** that is in range wherever something is joined. -/
theorem exists_follows (hpaths : ∀ p ∈ paths, e.Resolves p)
    (h : ∀ j ∈ Join.plan paths, ∃ b,
      Join.Binds j.cardinality (e.reach choice record j.target) (choice j.target) b) :
    ∃ row, Follows record (Join.plan paths) choice row := by
  refine ⟨chosen e choice record (Join.plan paths), aliases_chosen _ _ _ _, fun j hj => ?_⟩
  have hbound : ∀ k ∈ Join.plan paths, bound? (chosen e choice record (Join.plan paths)) k.target =
      (Link.relation k.cardinality).enter (choice k.target) (e.reach choice record k.target) := by
    intro k hk
    refine bound?_of_mem ?_ (List.mem_reverse.mpr (List.mem_map.mpr ⟨k, hk, rfl⟩))
    rw [aliases_chosen, List.nodup_reverse]
    exact (Join.plan_ordered paths).targets_nodup
  have hfound : j.found record (chosen e choice record (Join.plan paths)) =
      e.reach choice record j.target := by
    obtain ⟨p, hp, hjp⟩ := Join.mem_of_mem_plan hj
    refine (ResolvedPath.read_eq_reach (hpaths p hp) fun k hk _ => hbound k ?_).1 j hjp
    exact (Join.mem_plan_iff hpaths).mpr ⟨p, hp, hk⟩
  obtain ⟨b, hb⟩ := h j hj
  rw [hfound, hbound j hj, ← hb.eq_enter]
  exact hb

end Row

/-! ## Consistent choices -/

/-- A name at which some of the paths take an element: one that a relation to many
on the way of a path leads to. -/
def Choice.Taken (paths : List ResolvedPath) (a : Alias) : Prop :=
  ∃ p ∈ paths, ∃ j ∈ p.joins, j.target = a ∧ j.cardinality = .toMany

theorem Join.Binds.toOne_iff {found : Option Json} {i : Nat} :
    (∃ b, Binds .toOne found i b) ↔ i = 0 := by
  constructor
  · rintro ⟨b, h⟩
    cases h <;> rfl
  · rintro rfl
    match found with
    | none => exact ⟨_, .missing⟩
    | some .null => exact ⟨_, .null⟩
    | some (.bool _) => exact ⟨_, .value (by simp) (by simp)⟩
    | some (.number _) => exact ⟨_, .value (by simp) (by simp)⟩
    | some (.string _) => exact ⟨_, .value (by simp) (by simp)⟩
    | some (.array _) => exact ⟨_, .value (by simp) (by simp)⟩
    | some (.object _) => exact ⟨_, .value (by simp) (by simp)⟩

/-- **A choice is consistent if and only if it takes an element wherever one is to be
taken, and is 0 elsewhere.**  Joins are not mentioned: to one, they leave nothing to
choose. -/
theorem Choice.consistent_iff (hpaths : ∀ p ∈ paths, e.Resolves p) :
    choice.Consistent record (Join.plan paths) ↔
      (∀ a, Taken paths a → ∃ b, Join.Binds .toMany (e.reach choice record a) (choice a) b) ∧
      ∀ a, ¬ Taken paths a → choice a = 0 := by
  constructor
  · rintro ⟨⟨row, hrow⟩, hzero⟩
    have hbinds : ∀ j ∈ Join.plan paths, ∃ b,
        Join.Binds j.cardinality (e.reach choice record j.target) (choice j.target) b := by
      intro j hj
      rw [← hrow.found_eq hpaths j hj]
      exact ⟨_, hrow.binds j hj⟩
    constructor
    · rintro a ⟨p, hp, j, hj, rfl, hmany⟩
      have hb := hbinds j ((Join.mem_plan_iff hpaths).mpr ⟨p, hp, hj⟩)
      rwa [hmany] at hb
    · intro a ha
      by_cases hmem : a ∈ (Join.plan paths).map (·.target)
      · obtain ⟨j, hj, rfl⟩ := List.mem_map.mp hmem
        obtain ⟨p, hp, hjp⟩ := Join.mem_of_mem_plan hj
        have hb := hbinds j hj
        cases hcardinality : j.cardinality with
        | toMany => exact absurd ⟨p, hp, j, hjp, rfl, hcardinality⟩ ha
        | toOne =>
            rw [hcardinality] at hb
            exact Join.Binds.toOne_iff.mp hb
      · exact hzero a hmem
  · rintro ⟨htaken, hzero⟩
    refine ⟨Row.exists_follows hpaths fun j hj => ?_, fun a ha => hzero a ?_⟩
    · obtain ⟨p, hp, hjp⟩ := Join.mem_of_mem_plan hj
      cases hcardinality : j.cardinality with
      | toMany => exact htaken _ ⟨p, hp, j, hjp, rfl, hcardinality⟩
      | toOne =>
          refine Join.Binds.toOne_iff.mpr (hzero _ ?_)
          rintro ⟨q, hq, k, hk, htarget, hmany⟩
          rw [(hpaths q hq).join_unique (hpaths p hp) hk hjp htarget, hcardinality] at hmany
          cases hmany
    · rintro ⟨p, hp, j, hj, rfl, _⟩
      exact ha (List.mem_map_of_mem ((Join.mem_plan_iff hpaths).mpr ⟨p, hp, hj⟩))

/-! ## Counting -/

theorem countP_eq_of_forall₂ {α β γ : Type} {R : α → β → Prop} {S : α → γ → Prop}
    {P : β → Bool} {Q : γ → Bool} {as as' : List α} {bs : List β} {cs : List γ}
    (hperm : as.Perm as') (hbs : List.Forall₂ R as bs) (hcs : List.Forall₂ S as' cs)
    (h : ∀ a b c, R a b → S a c → P b = Q c) : bs.countP P = cs.countP Q := by
  obtain ⟨ds, hds, hperm'⟩ := List.perm_comp_forall₂ hperm hcs
  rw [← hperm'.countP_eq]
  clear hperm hcs hperm' cs as'
  induction hbs generalizing ds with
  | nil =>
      cases hds
      rfl
  | cons hb _ ih =>
      cases hds with
      | cons hd hds => rw [List.countP_cons, List.countP_cons, ih _ hds, h _ _ _ hb hd]

/-- **What names reach decides the count.**  A predicate is true on as many rows of a
record as with other paths on another record, if both take elements at the same names
and these and the names of each path reach the same on both sides. -/
theorem Predicate.trueRows_mapPaths {e' : Entity} {record' : Json} {table : PatternTable}
    {q : Predicate} {f : ResolvedPath → ResolvedPath} (hq : q.ResolvedIn e)
    (hf : (q.mapPaths f).ResolvedIn e')
    (htaken : ∀ a, Choice.Taken (q.paths.map f) a ↔ Choice.Taken q.paths a)
    (hnames : ∀ p ∈ q.paths, (f p).names = p.names)
    (hreach : ∀ choice a, Choice.Taken q.paths a ∨ (∃ p ∈ q.paths, p.names = a) →
      e'.reach choice record' a = e.reach choice record a) :
    (q.mapPaths f).trueRows table record' = q.trueRows table record := by
  have hpaths : (q.mapPaths f).paths = q.paths.map f := paths_mapPaths f q
  have hjoins : (q.mapPaths f).joins = Join.plan (q.paths.map f) := by rw [joins, hpaths]
  have hresolved : ∀ p ∈ q.paths.map f, e'.Resolves p := hpaths ▸ hf
  have hconsistent : ∀ choice : Choice, choice.Consistent record' (Join.plan (q.paths.map f)) ↔
      choice.Consistent record (Join.plan q.paths) := by
    intro choice
    rw [Choice.consistent_iff hresolved, Choice.consistent_iff hq]
    refine and_congr (forall_congr' fun a => ?_) (forall_congr' fun a => by rw [htaken])
    rw [htaken]
    exact forall_congr' fun ha => by rw [hreach choice a (.inl ha)]
  obtain ⟨choices', hnodup', hmem', hrows'⟩ :=
    Row.exists_choices (Join.plan_ordered (q.paths.map f)) record'
  obtain ⟨choices, hnodup, hmem, hrows⟩ := Row.exists_choices (Join.plan_ordered q.paths) record
  have hperm : choices'.Perm choices :=
    (List.perm_ext_iff_of_nodup hnodup' hnodup).mpr fun choice => by
      rw [hmem', hmem, hconsistent]
  rw [trueRows, trueRows, hjoins]
  refine countP_eq_of_forall₂ hperm hrows' hrows fun choice row' row hrow' hrow => ?_
  have hreads : ∀ p ∈ q.paths, (f p).read record' row' = p.read record row := by
    intro p hp
    rw [hrow'.read_eq hresolved (List.mem_map_of_mem hp), hrow.read_eq hq hp, hnames p hp,
      hreach choice _ (.inr ⟨p, hp, rfl⟩)]
  rw [eval_mapPaths f q (fun _ _ => rfl) hreads]

end RecordFilter
