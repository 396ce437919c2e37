/-
# `Proofs.Path.Joins` — the joins of a resolved path

A path is cut into joins at its relations, the last segment apart.  Three facts
about them are all that the plan of a predicate needs:

    a join leads to a longer name than the joins before it,
    what it starts from is the root or a join before it,
    joins of one target are equal, whichever paths of an entity they are of.

The last is `Entity.Resolves.join_unique`, and it is why a plan may keep the first
join of each name.  It comes from the beginnings of a path: the segments up to a
relation decide its join, whatever they go on with (`joinsFrom_front`), and the
entity decides the segments (`Entity.Leads.front_unique`).
-/
import RecordFilter.Proofs.Path.Resolution

namespace RecordFilter

namespace ResolvedPath

variable {parent : Option Alias} {before pending : List String} {j : Join}

theorem joinsFrom_relation {segment : Segment} {segments : List Segment}
    {cardinality : Cardinality} (h : segment.link = some (.relation cardinality))
    (hne : segments ≠ []) :
    joinsFrom parent before pending (segment :: segments) =
      ⟨before ++ [segment.name], parent, pending ++ [segment.name], cardinality⟩ ::
        joinsFrom (some (before ++ [segment.name])) (before ++ [segment.name]) [] segments := by
  rw [joinsFrom, h]
  exact fun he => hne he

theorem joinsFrom_inside {segment : Segment} {segments : List Segment}
    (h : ∀ cardinality, segment.link ≠ some (.relation cardinality)) (hne : segments ≠ []) :
    joinsFrom parent before pending (segment :: segments) =
      joinsFrom parent (before ++ [segment.name]) (pending ++ [segment.name]) segments := by
  rw [joinsFrom]
  · split
    · rename_i cardinality hlink
      exact absurd hlink (h cardinality)
    · rfl
  · exact fun he => hne he

theorem accessorFrom_relation {segment : Segment} {segments : List Segment}
    {cardinality : Cardinality} (h : segment.link = some (.relation cardinality))
    (hne : segments ≠ []) :
    accessorFrom pending (segment :: segments) = accessorFrom [] segments := by
  rw [accessorFrom, h]
  exact fun he => hne he

theorem accessorFrom_inside {segment : Segment} {segments : List Segment}
    (h : ∀ cardinality, segment.link ≠ some (.relation cardinality)) (hne : segments ≠ []) :
    accessorFrom pending (segment :: segments) =
      accessorFrom (pending ++ [segment.name]) segments := by
  rw [accessorFrom]
  · split
    · rename_i cardinality hlink
      exact absurd hlink (h cardinality)
    · rfl
  · exact fun he => hne he

/-! ## Targets and parents -/

/-- A join leads on from the names before it, and reads at least one name. -/
theorem joinsFrom_longer {segments : List Segment}
    (h : j ∈ joinsFrom parent before pending segments) :
    before.length < j.depth ∧ j.attributes ≠ [] := by
  fun_induction joinsFrom parent before pending segments with
  | case1 => cases h
  | case2 => cases h
  | case3 parent before pending segment segments hne here cardinality hlink ih =>
      have hhere : before.length < here.length := by
        simp [here]
      rcases List.mem_cons.mp h with rfl | h
      · exact ⟨hhere, by simp⟩
      · exact ⟨Nat.lt_trans hhere (ih h).1, (ih h).2⟩
  | case4 parent before pending segment segments hne here hlink ih =>
      have hhere : before.length < here.length := by
        simp [here]
      exact ⟨Nat.lt_trans hhere (ih h).1, (ih h).2⟩

theorem joinsFrom_pairwise (parent : Option Alias) (before pending : List String)
    (segments : List Segment) :
    (joinsFrom parent before pending segments).Pairwise (fun j k => j.depth < k.depth) := by
  fun_induction joinsFrom parent before pending segments with
  | case1 => exact .nil
  | case2 => exact .nil
  | case3 parent before pending segment segments hne here cardinality hlink ih =>
      exact List.pairwise_cons.mpr ⟨fun k hk => (joinsFrom_longer hk).1, ih⟩
  | case4 parent before pending segment segments hne here hlink ih => exact ih

theorem joinsFrom_parent {segments : List Segment}
    (h : j ∈ joinsFrom parent before pending segments) :
    j.parent = parent ∨ ∃ k ∈ joinsFrom parent before pending segments,
      j.parent = some k.target ∧ k.depth < j.depth := by
  fun_induction joinsFrom parent before pending segments with
  | case1 => cases h
  | case2 => cases h
  | case3 parent before pending segment segments hne here cardinality hlink ih =>
      rcases List.mem_cons.mp h with rfl | h
      · exact .inl rfl
      · right
        rcases ih h with hparent | ⟨k, hk, hparent, hdepth⟩
        · exact ⟨_, List.mem_cons_self, hparent, (joinsFrom_longer h).1⟩
        · exact ⟨k, List.mem_cons_of_mem _ hk, hparent, hdepth⟩
  | case4 parent before pending segment segments hne here hlink ih => exact ih h

/-! ## Beginnings -/

/-- The segments up to a relation decide its join: it is there however the path
goes on. -/
theorem joinsFrom_front {segments : List Segment}
    (h : j ∈ joinsFrom parent before pending segments) :
    ∃ front back, segments = front ++ back ∧ back ≠ [] ∧
      j.target = before ++ front.map (·.name) ∧
      ∀ back', back' ≠ [] → j ∈ joinsFrom parent before pending (front ++ back') := by
  fun_induction joinsFrom parent before pending segments with
  | case1 => cases h
  | case2 => cases h
  | case3 parent before pending segment segments hne here cardinality hlink ih =>
      rcases List.mem_cons.mp h with rfl | h
      · refine ⟨[segment], segments, rfl, hne, rfl, fun back' hback => ?_⟩
        rw [List.singleton_append, joinsFrom_relation hlink hback]
        exact List.mem_cons_self
      · obtain ⟨front, back, rfl, hrest, htarget, hjoin⟩ := ih h
        refine ⟨segment :: front, back, rfl, hrest, ?_, fun back' hback => ?_⟩
        · rw [htarget, List.map_cons, List.append_assoc, List.singleton_append]
        · rw [List.cons_append,
            joinsFrom_relation hlink (List.append_ne_nil_of_right_ne_nil front hback)]
          exact List.mem_cons_of_mem _ (hjoin back' hback)
  | case4 parent before pending segment segments hne here hlink ih =>
      obtain ⟨front, back, rfl, hrest, htarget, hjoin⟩ := ih h
      refine ⟨segment :: front, back, rfl, hrest, ?_, fun back' hback => ?_⟩
      · rw [htarget, List.map_cons, List.append_assoc, List.singleton_append]
      · rw [List.cons_append,
          joinsFrom_inside hlink (List.append_ne_nil_of_right_ne_nil front hback)]
        exact hjoin back' hback

/-! ## Whole paths -/

variable {p : ResolvedPath}

theorem joins_ne_nil (h : j ∈ p.joins) : j.target ≠ [] ∧ j.attributes ≠ [] := by
  obtain ⟨hdepth, hattributes⟩ := joinsFrom_longer h
  exact ⟨List.ne_nil_of_length_pos hdepth, hattributes⟩

theorem accessorFrom_ne_nil {segments : List Segment} (hne : segments ≠ []) :
    accessorFrom pending segments ≠ [] := by
  fun_induction accessorFrom pending segments with
  | case1 => exact absurd rfl hne
  | case2 => exact List.append_ne_nil_of_right_ne_nil _ (List.cons_ne_nil _ _)
  | case3 pending segment segments hrest cardinality hlink ih => exact ih hrest
  | case4 pending segment segments hrest hlink ih => exact ih hrest

theorem accessor_ne_nil (h : p.segments ≠ []) : p.accessor ≠ [] :=
  accessorFrom_ne_nil h

theorem joins_parent {a : Alias} (h : j ∈ p.joins) (ha : j.parent = some a) :
    ∃ k ∈ p.joins, k.target = a ∧ k.depth < j.depth := by
  rcases joinsFrom_parent h with hparent | ⟨k, hk, hparent, hdepth⟩
  · rw [hparent] at ha
    cases ha
  · refine ⟨k, hk, ?_, hdepth⟩
    rw [hparent] at ha
    exact Option.some.inj ha

theorem source_mem {a : Alias} (h : p.source = some a) : ∃ j ∈ p.joins, j.target = a := by
  obtain ⟨j, hj, rfl⟩ := Option.map_eq_some_iff.mp h
  exact ⟨j, List.mem_of_getLast? hj, rfl⟩

theorem joins_eq_of_target {k : Join} (hj : j ∈ p.joins) (hk : k ∈ p.joins)
    (h : j.target = k.target) : j = k := by
  have hgrow : p.joins.Pairwise (fun j k => j.depth < k.depth) :=
    joinsFrom_pairwise none [] [] p.segments
  have hall : ∀ j ∈ p.joins, ∀ k ∈ p.joins, j.target = k.target → j = k := by
    refine List.Pairwise.forall_of_forall_of_flip (fun _ _ _ => rfl) ?_ ?_
    · exact hgrow.imp fun hlt heq => absurd (congrArg List.length heq) (Nat.ne_of_lt hlt)
    · exact hgrow.imp fun hlt heq => absurd (congrArg List.length heq) (Nat.ne_of_gt hlt)
  exact hall j hj k hk h

end ResolvedPath

/-- **Joins of one target are equal**, on any two paths that an entity resolves. -/
theorem Entity.Resolves.join_unique {e : Entity} {p q : ResolvedPath} {j k : Join}
    (hp : e.Resolves p) (hq : e.Resolves q) (hj : j ∈ p.joins) (hk : k ∈ q.joins)
    (h : j.target = k.target) : j = k := by
  obtain ⟨front, back, hsegments, _, htarget, hjoin⟩ := ResolvedPath.joinsFrom_front hj
  obtain ⟨front', back', hsegments', hback', htarget', _⟩ := ResolvedPath.joinsFrom_front hk
  have hleads := hp.leads
  have hleads' := hq.leads
  rw [hsegments] at hleads
  rw [hsegments'] at hleads'
  have hfront : front = front' := by
    refine hleads.front_unique hleads' ?_
    rw [List.nil_append] at htarget htarget'
    rw [← htarget, ← htarget', h]
  -- so the join of the one path is on the other
  have hjq : j ∈ q.joins := by
    rw [ResolvedPath.joins, hsegments', ← hfront]
    exact hjoin back' hback'
  exact ResolvedPath.joins_eq_of_target hjq hk h

end RecordFilter
