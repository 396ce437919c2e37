/-
# `Proofs.Predicate.Through` — paths and plans behind a relation

A path behind a relation `r` is the path of the related entity with one segment
in front.  It joins `r` first, and then what the path joins, every target one
name longer and every root join started from `r` (`Join.under`):

    joins (r . p)        =  opening r :: (joins p).map (under r)
    plan (map (r .) ps)  =  opening r :: (plan ps).map (under r)

The second needs that the order of joins is kept: one name in front of all makes
them equally deeper, and their labels begin alike.
-/
import RecordFilter.Proofs.Predicate.Plan

namespace RecordFilter

/-! ## Texts -/

@[simp]
theorem Text.compareChars_append (front as bs : List Char) :
    compareChars (front ++ as) (front ++ bs) = compareChars as bs := by
  induction front with
  | nil => rfl
  | cons c front ih =>
      rw [List.cons_append, List.cons_append, compareChars, ih, Nat.compare_eq_eq.mpr rfl]
      rfl

/-! ## Paths -/

/-- The segment of a relation. -/
def Segment.relation (r : String) (cardinality : Cardinality) : Segment :=
  ⟨r, some (.relation cardinality)⟩

namespace Entity

/-- The text of a path is for messages only. -/
theorem walk_toOption (property property' : String) (e : Entity) (names : List String) :
    (walk property e names).toOption = (walk property' e names).toOption := by
  cases h : walk property e names with
  | ok p => rw [walk_eq_ok_iff.mpr (walk_eq_ok_iff.mp h)]
  | error u =>
      cases h' : walk property' e names with
      | ok p =>
          rw [walk_eq_ok_iff.mpr (walk_eq_ok_iff.mp h')] at h
          cases h
      | error u' => rfl

variable {e target : Entity} {r : String} {cardinality : Cardinality}

/-- **A path behind a relation resolves as the path does**, on the entity that the
relation leads to. -/
theorem resolve_prefix (hr : e.attribute? r = some (.to (.relation cardinality) target))
    (hne : r ≠ "") (hdot : '.' ∉ r.toList) (path : String) :
    (e.resolve (r ++ "." ++ path)).toOption =
      (target.resolve path).toOption.map (behind (.relation r cardinality)) := by
  rw [resolve, Text.dotted_prefix hdot, walk, if_neg hne, hr, resolve,
    walk_toOption path (r ++ "." ++ path)]
  show ((walk _ target _).map _).toOption = _
  cases walk (r ++ "." ++ path) target (Text.dotted path) <;> rfl

end Entity

/-! ## Joins -/

/-- What a join starts from behind a relation: the relation, where it started from
the root. -/
def Alias.under (r : String) : Option Alias → Alias
  | none => [r]
  | some a => r :: a

namespace Join

/-- The join to the relation itself. -/
def opening (r : String) (cardinality : Cardinality) : Join :=
  ⟨[r], none, [r], cardinality⟩

/-- A join behind a relation. -/
def under (r : String) (j : Join) : Join :=
  { j with target := r :: j.target, parent := some (Alias.under r j.parent) }

end Join

namespace ResolvedPath

theorem joinsFrom_under (r : String) (parent : Option Alias) (before pending : List String)
    (segments : List Segment) :
    joinsFrom (some (Alias.under r parent)) (r :: before) pending segments =
      (joinsFrom parent before pending segments).map (Join.under r) := by
  fun_induction joinsFrom parent before pending segments with
  | case1 => rfl
  | case2 => rfl
  | case3 parent before pending segment segments hne here cardinality hlink ih =>
      rw [joinsFrom_relation hlink fun h => hne h, List.map_cons, ← ih]
      rfl
  | case4 parent before pending segment segments hne here hlink ih =>
      rw [joinsFrom_inside hlink fun h => hne h]
      exact ih

variable {r : String} {cardinality : Cardinality} {p : ResolvedPath}

theorem joins_behind (h : p.segments ≠ []) :
    (Entity.behind (.relation r cardinality) p).joins =
      .opening r cardinality :: p.joins.map (Join.under r) := by
  have hlink : (Segment.relation r cardinality).link = some (.relation cardinality) := rfl
  rw [joins, Entity.behind, joinsFrom_relation hlink h, joins, ← joinsFrom_under]
  rfl

theorem accessor_behind (h : p.segments ≠ []) :
    (Entity.behind (.relation r cardinality) p).accessor = p.accessor := by
  have hlink : (Segment.relation r cardinality).link = some (.relation cardinality) := rfl
  rw [accessor, Entity.behind, accessorFrom_relation hlink h, accessor]

theorem source_behind (h : p.segments ≠ []) :
    (Entity.behind (.relation r cardinality) p).source = some (Alias.under r p.source) := by
  rw [source, joins_behind h, source, List.getLast?_cons, List.getLast?_map]
  cases p.joins.getLast? <;> rfl

theorem isCollection_behind (h : p.segments ≠ []) :
    (Entity.behind (.relation r cardinality) p).isCollection = p.isCollection := by
  obtain ⟨segment, segments, hsegments⟩ := List.exists_cons_of_ne_nil h
  rw [isCollection, isCollection, Entity.behind, hsegments, List.getLast?_cons_cons]

end ResolvedPath

/-! ## Plans -/

namespace Join

variable {r : String} {cardinality : Cardinality} {j k : Join} {plan : List Join}

theorem label_under (h : j.target ≠ []) :
    (j.under r).target.label.toList = (r ++ ".").toList ++ j.target.label.toList :=
  Text.joinDots_cons h r

theorem before_under (hj : j.target ≠ []) (hk : k.target ≠ []) :
    (j.under r).before (k.under r) = j.before k := by
  have hdepth : compare (j.under r).depth (k.under r).depth = compare j.depth k.depth := by
    show compare (j.depth + 1) (k.depth + 1) = compare j.depth k.depth
    rcases Nat.lt_trichotomy j.depth k.depth with h | h | h
    · rw [Nat.compare_eq_lt.mpr h, Nat.compare_eq_lt.mpr (Nat.succ_lt_succ h)]
    · rw [Nat.compare_eq_eq.mpr h, Nat.compare_eq_eq.mpr (congrArg (· + 1) h)]
    · rw [Nat.compare_eq_gt.mpr h, Nat.compare_eq_gt.mpr (Nat.succ_lt_succ h)]
  rw [before, before, hdepth, Text.compareText, label_under hj, label_under hk,
    Text.compareChars_append, Text.compareText]

/-- All other joins behind a relation stand behind its own. -/
theorem before_opening (h : j.target ≠ []) : (j.under r).before (opening r cardinality) ≠ .lt := by
  have hpos : 0 < j.target.length := List.length_pos_iff.mpr h
  rw [Ne, before_eq_lt_iff]
  simp only [depth, under, opening, List.length_cons, List.length_nil]
  omega

theorem insert_under (hj : j.target ≠ []) (hplan : ∀ k ∈ plan, k.target ≠ []) :
    (j.under r).insert (plan.map (under r)) = (j.insert plan).map (under r) := by
  induction plan with
  | nil => rfl
  | cons k plan ih =>
      obtain ⟨hk, hplan⟩ := List.forall_mem_cons.mp hplan
      have htarget : (j.under r).target = (k.under r).target ↔ j.target = k.target := by
        simp only [under, List.cons.injEq, true_and]
      rw [List.map_cons, insert, insert, before_under hj hk]
      simp only [htarget]
      split
      · rfl
      · split
        · rfl
        · rw [ih hplan, List.map_cons]

theorem insert_opening (hj : j.target ≠ []) (hplan : ∀ k ∈ plan, k.target ≠ []) :
    (j.under r).insert (opening r cardinality :: plan.map (under r)) =
      opening r cardinality :: (j.insert plan).map (under r) := by
  have htarget : (j.under r).target ≠ (opening r cardinality).target := by
    simp only [under, opening, ne_eq, List.cons.injEq, true_and]
    exact hj
  rw [insert, if_neg htarget, if_neg (before_opening hj), insert_under hj hplan]

theorem insertAll_opening {joins : List Join} (hjoins : ∀ j ∈ joins, j.target ≠ []) :
    ∀ {plan : List Join}, (∀ k ∈ plan, k.target ≠ []) →
      (joins.map (under r)).foldl (fun plan j => j.insert plan)
          (opening r cardinality :: plan.map (under r)) =
        opening r cardinality ::
          (joins.foldl (fun plan j => j.insert plan) plan).map (under r) := by
  induction joins with
  | nil => exact fun _ => rfl
  | cons j joins ih =>
      intro plan hplan
      obtain ⟨hj, hjoins⟩ := List.forall_mem_cons.mp hjoins
      rw [List.map_cons, List.foldl_cons, insert_opening hj hplan]
      refine ih hjoins fun k hk => ?_
      rcases mem_insert hk with rfl | hk
      · exact hj
      · exact hplan k hk

theorem insertAll_behind {paths : List ResolvedPath} (hpaths : ∀ p ∈ paths, p.segments ≠ []) :
    ∀ {plan : List Join}, (∀ k ∈ plan, k.target ≠ []) →
      ((paths.map (Entity.behind (.relation r cardinality))).flatMap (·.joins)).foldl
          (fun plan j => j.insert plan) (opening r cardinality :: plan.map (under r)) =
        opening r cardinality ::
          ((paths.flatMap (·.joins)).foldl (fun plan j => j.insert plan) plan).map (under r) := by
  induction paths with
  | nil => exact fun _ => rfl
  | cons p paths ih =>
      intro plan hplan
      obtain ⟨hp, hpaths⟩ := List.forall_mem_cons.mp hpaths
      have htargets : ∀ j ∈ p.joins, j.target ≠ [] := fun j hj => (ResolvedPath.joins_ne_nil hj).1
      have hopen : (opening r cardinality).insert (opening r cardinality :: plan.map (under r)) =
          opening r cardinality :: plan.map (under r) := if_pos rfl
      rw [List.map_cons, List.flatMap_cons, List.flatMap_cons, List.foldl_append,
        List.foldl_append, ResolvedPath.joins_behind hp, List.foldl_cons, hopen,
        insertAll_opening htargets hplan]
      refine ih hpaths fun k hk => ?_
      rcases mem_insertAll hk with hk | hk
      · exact htargets k hk
      · exact hplan k hk

/-- **The plan of paths behind a relation** joins the relation, and then what the
plan of the paths joins. -/
theorem plan_behind {paths : List ResolvedPath} (hne : paths ≠ [])
    (hpaths : ∀ p ∈ paths, p.segments ≠ []) :
    Join.plan (paths.map (Entity.behind (.relation r cardinality))) =
      opening r cardinality :: (Join.plan paths).map (under r) := by
  -- the first path opens the relation, so it may be open before
  have hopen :
      Join.plan (paths.map (Entity.behind (.relation r cardinality))) =
        ((paths.map (Entity.behind (.relation r cardinality))).flatMap (·.joins)).foldl
          (fun plan j => j.insert plan) [opening r cardinality] := by
    match paths, hne, hpaths with
    | p :: paths, _, hpaths =>
        have hinsert : (opening r cardinality).insert [opening r cardinality] =
            [opening r cardinality] := if_pos rfl
        rw [Join.plan, List.map_cons, List.flatMap_cons,
          ResolvedPath.joins_behind (hpaths p List.mem_cons_self), List.cons_append,
          List.foldl_cons, List.foldl_cons, hinsert]
        rfl
  have hnil : ∀ k ∈ ([] : List Join), k.target ≠ [] := fun _ hk => nomatch hk
  rw [hopen]
  exact insertAll_behind hpaths hnil

end Join

end RecordFilter
