/-
# `Proofs.Evaluation.Rows` — rows are consistent bindings

A row is consistent with a join (`Row.Consistent`) if it binds the target to
something that the join offers on that very row.  Joins in order make consistent
rows only (`Row.of_mem_expand`), and they make one for every consistent choice:
whatever a guide binds some aliases to, if the choice is closed under parents
there is a row that binds them alike (`Row.exists_mem_expand`).

For the plan of resolved paths this is `Row.exists_reading`: bindings that suit
the joins of some of the paths are met by a row of the whole plan.  A row of a
plan and a row of a part of it are compared by it in both directions.
-/
import RecordFilter.Evaluation
import RecordFilter.Proofs.Predicate.Plan

namespace RecordFilter

/-! ## Bindings -/

namespace Row

/-- The aliases that a row binds, the last one first. -/
def aliases (row : Row) : List Alias :=
  row.map (·.1)

@[simp]
theorem bound?_cons_self (a : Alias) (b : Option Json) (row : Row) :
    bound? ((a, b) :: row) a = b := by
  rw [bound?, List.lookup_cons_self]
  rfl

@[simp]
theorem bound?_cons_of_ne {a a' : Alias} (h : a ≠ a') (b : Option Json) (row : Row) :
    bound? ((a', b) :: row) a = row.bound? a := by
  rw [bound?, List.lookup_cons, beq_false_of_ne h]
  rfl

theorem bound?_append_left {row : Row} {a : Alias} (h : a ∈ row.aliases) (row' : Row) :
    bound? (row ++ row') a = row.bound? a := by
  obtain ⟨entry, hentry, rfl⟩ := List.mem_map.mp h
  have hsome : (row.lookup entry.1).isSome = true :=
    List.lookup_isSome_iff.mpr ⟨entry, hentry, beq_self_eq_true _⟩
  rw [bound?, bound?, List.lookup_append, Option.or_of_isSome hsome]

theorem bound?_append_right {row : Row} {a : Alias} (h : a ∉ row.aliases) (row' : Row) :
    bound? (row ++ row') a = row'.bound? a := by
  have hnone : row.lookup a = none := by
    refine List.lookup_eq_none_iff.mpr fun entry hentry => bne_iff_ne.mpr ?_
    rintro rfl
    exact h (List.mem_map.mpr ⟨entry, hentry, rfl⟩)
  rw [bound?, bound?, List.lookup_append, hnone, Option.none_or]

end Row

variable {record : Json} {row row' : Row}

theorem Join.bindings_congr {j : Join}
    (h : ∀ a, j.parent = some a → row.bound? a = row'.bound? a) :
    j.bindings record row = j.bindings record row' := by
  have hrelated : j.related record row = j.related record row' := by
    rw [Join.related, Join.related]
    cases hparent : j.parent with
    | none => rfl
    | some a => simp only [h a hparent]
  rw [Join.bindings, Join.bindings, hrelated]

theorem Join.bindings_ne_nil (j : Join) (record : Json) (row : Row) :
    j.bindings record row ≠ [] := by
  rw [Join.bindings]
  split
  · exact List.cons_ne_nil _ _
  · rename_i hne _ _
    intro hnil
    exact hne (List.map_eq_nil_iff.mp hnil)
  · exact List.cons_ne_nil _ _

/-! ## Expansion -/

namespace Row

theorem expand_eq_flatMap (record : Json) (joins : List Join) (rows : List Row) :
    expand record joins rows = rows.flatMap fun row => expand record joins [row] := by
  induction joins generalizing rows with
  | nil => exact (List.flatMap_singleton' rows).symm
  | cons j joins ih =>
      rw [expand, ih, List.flatMap_assoc]
      refine congrArg (rows.flatMap ·) (funext fun row => ?_)
      rw [expand, ← ih, List.flatMap_singleton]

theorem expand_cons (record : Json) (j : Join) (joins : List Join) (row : Row) :
    expand record (j :: joins) [row] =
      (j.bindings record row).flatMap fun b => expand record joins [(j.target, b) :: row] := by
  rw [expand, List.flatMap_singleton, expand_eq_flatMap, List.flatMap_map]

theorem mem_expand_cons {j : Join} {joins : List Join} :
    row' ∈ expand record (j :: joins) [row] ↔
      ∃ b ∈ j.bindings record row, row' ∈ expand record joins [(j.target, b) :: row] := by
  rw [expand_cons, List.mem_flatMap]

theorem aliases_of_mem_expand {joins : List Join} (h : row' ∈ expand record joins [row]) :
    row'.aliases = (joins.map (·.target)).reverse ++ row.aliases := by
  induction joins generalizing row with
  | nil =>
      cases List.mem_singleton.mp h
      rfl
  | cons j joins ih =>
      obtain ⟨b, _, h⟩ := mem_expand_cons.mp h
      rw [ih h, List.map_cons, List.reverse_cons, List.append_assoc]
      rfl

theorem mem_aliases_of_mem_expand {joins : List Join} {a : Alias}
    (h : row' ∈ expand record joins [row]) :
    a ∈ row'.aliases ↔ a ∈ row.aliases ∨ ∃ j ∈ joins, j.target = a := by
  rw [aliases_of_mem_expand h, List.mem_append, List.mem_reverse, List.mem_map, or_comm]

theorem expand_append (record : Json) (front back : List Join) (rows : List Row) :
    expand record (front ++ back) rows = expand record back (expand record front rows) := by
  induction front generalizing rows with
  | nil => rfl
  | cons j front ih => exact ih _

/-! ## Consistent rows -/

/-- Each target is bound to something that its join offers on the row. -/
def Consistent (record : Json) (joins : List Join) (row : Row) : Prop :=
  ∀ j ∈ joins, row.bound? j.target ∈ j.bindings record row

/-- **Joins in order make consistent rows**, and change nothing that was bound. -/
theorem of_mem_expand {joins : List Join} (hjoins : Join.Ordered row.aliases joins)
    (h : row' ∈ expand record joins [row]) :
    (∀ a ∈ row.aliases, row'.bound? a = row.bound? a) ∧ row'.Consistent record joins := by
  induction joins generalizing row with
  | nil =>
      cases List.mem_singleton.mp h
      exact ⟨fun _ _ => rfl, fun _ hj => nomatch hj⟩
  | cons j joins ih =>
      obtain ⟨hnew, hparent, hjoins⟩ := hjoins
      obtain ⟨b, hb, h⟩ := mem_expand_cons.mp h
      have hmade : Join.Ordered (aliases ((j.target, b) :: row)) joins := hjoins
      obtain ⟨hbound, hconsistent⟩ := ih hmade h
      have hkeep : ∀ a ∈ row.aliases, row'.bound? a = row.bound? a := by
        intro a ha
        have hne : a ≠ j.target := fun heq => hnew (heq ▸ ha)
        rw [hbound a (List.mem_cons_of_mem _ ha), bound?_cons_of_ne hne]
      refine ⟨hkeep, fun k hk => ?_⟩
      rcases List.mem_cons.mp hk with rfl | hk
      · rw [hbound _ List.mem_cons_self, bound?_cons_self,
          Join.bindings_congr fun a ha => hkeep a (hparent a ha)]
        exact hb
      · exact hconsistent k hk

/-- One join offers what a guide binds its target to, if the guide is consistent
there and binds the parent as the row does; and it offers something anyway. -/
theorem exists_binding {j : Join} {guide : Row} {kept : Alias → Prop}
    (hrow : kept j.target → ∀ a, j.parent = some a → row.bound? a = guide.bound? a)
    (hguide : kept j.target → guide.bound? j.target ∈ j.bindings record guide) :
    ∃ b ∈ j.bindings record row, kept j.target → b = guide.bound? j.target := by
  by_cases hkept : kept j.target
  · refine ⟨guide.bound? j.target, ?_, fun _ => rfl⟩
    rw [Join.bindings_congr (hrow hkept)]
    exact hguide hkept
  · obtain ⟨b, hb⟩ := List.exists_mem_of_ne_nil _ (j.bindings_ne_nil record row)
    exact ⟨b, hb, fun h => absurd h hkept⟩

theorem agree_cons {guide : Row} {kept : Alias → Prop} {target : Alias} {b : Option Json}
    (hrow : ∀ a ∈ row.aliases, kept a → row.bound? a = guide.bound? a)
    (hb : kept target → b = guide.bound? target) :
    ∀ a ∈ aliases ((target, b) :: row), kept a →
      bound? ((target, b) :: row) a = guide.bound? a := by
  intro a ha hkept
  by_cases heq : a = target
  · rw [heq, bound?_cons_self]
    exact hb (heq ▸ hkept)
  · rw [bound?_cons_of_ne heq]
    exact hrow a ((List.mem_cons.mp ha).resolve_left heq) hkept

/-- **There is a row for every consistent choice.**  The aliases in `kept` are to
be bound as a guide binds them, and the others to anything; the guide need be
consistent on `kept` alone, which has the parents of what it has. -/
theorem exists_mem_expand {joins : List Join} {guide : Row} {kept : Alias → Prop}
    (hjoins : Join.Ordered row.aliases joins)
    (hrow : ∀ a ∈ row.aliases, kept a → row.bound? a = guide.bound? a)
    (hguide : ∀ j ∈ joins, kept j.target →
      guide.bound? j.target ∈ j.bindings record guide ∧ ∀ a, j.parent = some a → kept a) :
    ∃ row' ∈ expand record joins [row],
      ∀ j ∈ joins, kept j.target → row'.bound? j.target = guide.bound? j.target := by
  induction joins generalizing row with
  | nil => exact ⟨row, List.mem_cons_self, fun _ hj => nomatch hj⟩
  | cons j joins ih =>
      obtain ⟨hnew, hparent, hjoins⟩ := hjoins
      obtain ⟨hj, hguide⟩ := List.forall_mem_cons.mp hguide
      obtain ⟨b, hb, hbkept⟩ : ∃ b ∈ j.bindings record row,
          kept j.target → b = guide.bound? j.target :=
        exists_binding (fun hkept a ha => hrow a (hparent a ha) ((hj hkept).2 a ha))
          fun hkept => (hj hkept).1
      have hmade : Join.Ordered (aliases ((j.target, b) :: row)) joins := hjoins
      obtain ⟨row', hmem, hbound⟩ := ih hmade (agree_cons hrow hbkept) hguide
      refine ⟨row', mem_expand_cons.mpr ⟨b, hb, hmem⟩, ?_⟩
      refine List.forall_mem_cons.mpr ⟨fun hkept => ?_, hbound⟩
      -- what is bound later leaves this target as it is
      rw [(of_mem_expand hmade hmem).1 _ List.mem_cons_self, bound?_cons_self]
      exact hbkept hkept

end Row

/-! ## Reading -/

theorem ResolvedPath.read_congr {p : ResolvedPath}
    (h : ∀ j ∈ p.joins, row.bound? j.target = row'.bound? j.target) :
    p.read record row = p.read record row' := by
  rw [ResolvedPath.read, ResolvedPath.read]
  cases hsource : p.source with
  | none => rfl
  | some a =>
      obtain ⟨j, hj, rfl⟩ := ResolvedPath.source_mem hsource
      simp only [h j hj]

theorem ResolvedPath.consistent_congr {p : ResolvedPath}
    (h : ∀ j ∈ p.joins, row.bound? j.target = row'.bound? j.target)
    (hrow : row.Consistent record p.joins) : row'.Consistent record p.joins := by
  intro j hj
  have hparent : ∀ a, j.parent = some a → row.bound? a = row'.bound? a := by
    intro a ha
    obtain ⟨k, hk, rfl, _⟩ := ResolvedPath.joins_parent hj ha
    exact h k hk
  rw [← h j hj, ← Join.bindings_congr hparent]
  exact hrow j hj

namespace Row

variable {e : Entity} {paths paths' : List ResolvedPath} {p : ResolvedPath}

theorem consistent_of_mem (hpaths : ∀ p ∈ paths, e.Resolves p) (hp : p ∈ paths)
    (h : row ∈ ofRecord record (Join.plan paths)) : row.Consistent record p.joins := by
  intro j hj
  have hplan : j ∈ Join.plan paths := (Join.mem_plan_iff hpaths).mpr ⟨p, hp, hj⟩
  have hordered : Join.Ordered (aliases []) (Join.plan paths) := Join.plan_ordered paths
  exact (of_mem_expand hordered h).2 j hplan

/-- An alias that the joins of some of the paths lead to. -/
def Joined (paths : List ResolvedPath) (a : Alias) : Prop :=
  ∃ p ∈ paths, ∃ j ∈ p.joins, j.target = a

theorem mem_joins_of_joined {part : List ResolvedPath} {j : Join}
    (hpaths : ∀ p ∈ paths, e.Resolves p) (hpart : ∀ p ∈ part, p ∈ paths)
    (hj : j ∈ Join.plan paths) (h : Joined part j.target) : ∃ p ∈ part, j ∈ p.joins := by
  obtain ⟨p, hp, k, hk, htarget⟩ := h
  obtain ⟨q, hq, hjq⟩ := Join.mem_of_mem_plan hj
  obtain rfl := (hpaths q hq).join_unique (hpaths p (hpart p hp)) hjq hk htarget.symm
  exact ⟨p, hp, hk⟩

/-- **Bindings that suit some of the paths are met by a row of them all.**  For
the other paths the row takes what it finds; a left outer join finds something
always. -/
theorem exists_reading {part : List ResolvedPath} {guide : Row}
    (hpaths : ∀ p ∈ paths, e.Resolves p) (hpart : ∀ p ∈ part, p ∈ paths)
    (hguide : ∀ p ∈ part, guide.Consistent record p.joins) :
    ∃ row ∈ ofRecord record (Join.plan paths),
      ∀ p ∈ part, p.read record row = p.read record guide := by
  have hordered : Join.Ordered (aliases []) (Join.plan paths) := Join.plan_ordered paths
  have hbound : ∃ row ∈ ofRecord record (Join.plan paths), ∀ j ∈ Join.plan paths,
      Joined part j.target → row.bound? j.target = guide.bound? j.target := by
    refine exists_mem_expand hordered (fun _ ha => nomatch ha) fun j hj hjoined => ?_
    obtain ⟨p, hp, hjp⟩ := mem_joins_of_joined hpaths hpart hj hjoined
    refine ⟨hguide p hp j hjp, fun a ha => ?_⟩
    obtain ⟨k, hk, htarget, _⟩ := ResolvedPath.joins_parent hjp ha
    exact ⟨p, hp, k, hk, htarget⟩
  obtain ⟨row, hrow, hbound⟩ := hbound
  refine ⟨row, hrow, fun p hp => ResolvedPath.read_congr fun j hj => ?_⟩
  have hplan : j ∈ Join.plan paths := (Join.mem_plan_iff hpaths).mpr ⟨p, hpart p hp, hj⟩
  exact hbound j hplan ⟨p, hp, j, hj, rfl⟩

/-- A row of a plan goes over to a plan of some of the paths, or of more. -/
theorem exists_reading_of_mem {part : List ResolvedPath} (hpaths : ∀ p ∈ paths, e.Resolves p)
    (hpaths' : ∀ p ∈ paths', e.Resolves p) (hpart : ∀ p ∈ part, p ∈ paths ∧ p ∈ paths')
    (h : row ∈ ofRecord record (Join.plan paths)) :
    ∃ row' ∈ ofRecord record (Join.plan paths'),
      ∀ p ∈ part, p.read record row' = p.read record row := by
  refine exists_reading hpaths' (fun p hp => (hpart p hp).2) fun p hp => ?_
  exact consistent_of_mem hpaths (hpart p hp).1 h

/-- Rows of two plans without a common target are parts of one row. -/
theorem exists_reading_append (hpaths : ∀ p ∈ paths, e.Resolves p)
    (hpaths' : ∀ p ∈ paths', e.Resolves p)
    (hdisjoint : ∀ j ∈ Join.plan paths, ∀ k ∈ Join.plan paths', j.target ≠ k.target)
    (h : row ∈ ofRecord record (Join.plan paths))
    (h' : row' ∈ ofRecord record (Join.plan paths')) :
    ∃ both ∈ ofRecord record (Join.plan (paths ++ paths')),
      (∀ p ∈ paths, p.read record both = p.read record row) ∧
        ∀ p ∈ paths', p.read record both = p.read record row' := by
  -- the guide binds the targets of the one plan as `row`, and those of the other as `row'`
  have hleft : ∀ p ∈ paths, ∀ j ∈ p.joins, row.bound? j.target = bound? (row ++ row') j.target := by
    intro p hp j hj
    have hplan : j ∈ Join.plan paths := (Join.mem_plan_iff hpaths).mpr ⟨p, hp, hj⟩
    exact (bound?_append_left ((mem_aliases_of_mem_expand h).mpr (.inr ⟨j, hplan, rfl⟩)) row').symm
  have hright : ∀ p ∈ paths', ∀ j ∈ p.joins,
      row'.bound? j.target = bound? (row ++ row') j.target := by
    intro p hp j hj
    have hplan : j ∈ Join.plan paths' := (Join.mem_plan_iff hpaths').mpr ⟨p, hp, hj⟩
    refine (bound?_append_right (fun ha => ?_) row').symm
    rcases (mem_aliases_of_mem_expand h).mp ha with ha | ⟨k, hk, htarget⟩
    · cases ha
    · exact hdisjoint k hk j hplan htarget
  have hall : ∀ p ∈ paths ++ paths', e.Resolves p := fun p hp =>
    (List.mem_append.mp hp).elim (hpaths p) (hpaths' p)
  have hreads : ∃ both ∈ ofRecord record (Join.plan (paths ++ paths')),
      ∀ p ∈ paths ++ paths', p.read record both = p.read record (row ++ row') := by
    refine exists_reading hall (fun _ hp => hp) fun p hp => ?_
    rcases List.mem_append.mp hp with hp | hp
    · exact ResolvedPath.consistent_congr (hleft p hp) (consistent_of_mem hpaths hp h)
    · exact ResolvedPath.consistent_congr (hright p hp) (consistent_of_mem hpaths' hp h')
  obtain ⟨both, hboth, hread⟩ := hreads
  refine ⟨both, hboth, fun p hp => ?_, fun p hp => ?_⟩
  · rw [hread p (List.mem_append_left _ hp), ResolvedPath.read_congr (hleft p hp)]
  · rw [hread p (List.mem_append_right _ hp), ResolvedPath.read_congr (hright p hp)]

end Row

end RecordFilter
