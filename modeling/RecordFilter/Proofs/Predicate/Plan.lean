/-
# `Proofs.Predicate.Plan` — the joins of a predicate, in order

A plan is made by inserting the joins of the paths one by one.  Insertion keeps
it sorted (`Join.Sorted`), and the two ends of that are what evaluation relies
on: no target is joined twice, and a parent is joined before its children
(`plan_ordered`).  That nothing is lost when a target is there already is the
coherence of resolved paths (`mem_plan_iff`).
-/
import RecordFilter.Predicate
import RecordFilter.Proofs.Path.Joins

namespace RecordFilter

/-- An entity resolves each path of the predicate. -/
def Predicate.ResolvedIn (e : Entity) (p : Predicate) : Prop :=
  ∀ path ∈ p.paths, e.Resolves path

/-! ## The order of joins -/

@[simp]
theorem Text.compareChars_self (as : List Char) : compareChars as as = .eq := by
  induction as with
  | nil => rfl
  | cons a as ih => rw [compareChars, ih, Nat.compare_eq_eq.mpr rfl]; rfl

theorem Text.compareChars_lt_trans {as : List Char} :
    ∀ {bs cs : List Char}, compareChars as bs = .lt → compareChars bs cs = .lt →
      compareChars as cs = .lt := by
  induction as with
  | nil =>
      intro bs cs _ hbc
      match bs, cs, hbc with
      | _, _ :: _, _ => rfl
      | [], [], hbc => cases hbc
      | _ :: _, [], hbc => cases hbc
  | cons a as ih =>
      intro bs cs hab hbc
      match bs, cs, hab, hbc with
      | b :: bs, c :: cs, hab, hbc =>
          rw [compareChars, Ordering.then_eq_lt, Nat.compare_eq_lt, Nat.compare_eq_eq] at hab hbc ⊢
          rcases hab with hab | ⟨hab, habs⟩ <;> rcases hbc with hbc | ⟨hbc, hbcs⟩
          · exact .inl (Nat.lt_trans hab hbc)
          · exact .inl (hbc ▸ hab)
          · exact .inl (hab ▸ hbc)
          · exact .inr ⟨hab.trans hbc, ih habs hbcs⟩

namespace Join

theorem before_congr {j j' : Join} (h : j.target = j'.target) (k : Join) :
    j.before k = j'.before k := by
  simp only [before, depth, h]

theorem before_eq_lt_iff {j k : Join} :
    j.before k = .lt ↔ j.depth < k.depth ∨
      j.depth = k.depth ∧ Text.compareText j.target.label k.target.label = .lt := by
  rw [before, Ordering.then_eq_lt, Nat.compare_eq_lt, Nat.compare_eq_eq]

theorem before_irrefl (j : Join) : j.before j ≠ .lt := by
  intro h
  rcases before_eq_lt_iff.mp h with h | ⟨_, h⟩
  · exact Nat.lt_irrefl _ h
  · simp [Text.compareText] at h

theorem before_trans {j k l : Join} (hjk : j.before k = .lt) (hkl : k.before l = .lt) :
    j.before l = .lt := by
  rw [before_eq_lt_iff] at hjk hkl ⊢
  rcases hjk with hjk | ⟨hjk, hlabel⟩ <;> rcases hkl with hkl | ⟨hkl, hlabel'⟩
  · exact .inl (Nat.lt_trans hjk hkl)
  · exact .inl (hkl ▸ hjk)
  · exact .inl (hjk ▸ hkl)
  · exact .inr ⟨hjk.trans hkl, Text.compareChars_lt_trans hlabel hlabel'⟩

/-! ## Sorted plans -/

/-- Targets are pairwise different, and none stands behind one that it goes
before. -/
def Sorted (plan : List Join) : Prop :=
  plan.Pairwise fun j k => j.target ≠ k.target ∧ k.before j ≠ .lt

theorem mem_insert {j k : Join} {plan : List Join} (h : k ∈ j.insert plan) :
    k = j ∨ k ∈ plan := by
  fun_induction insert j plan with
  | case1 => exact .inl (List.mem_singleton.mp h)
  | case2 => exact .inr h
  | case3 => exact List.mem_cons.mp h
  | case4 l plan _ _ ih =>
      rcases List.mem_cons.mp h with rfl | h
      · exact .inr List.mem_cons_self
      · exact (ih h).imp id (List.mem_cons_of_mem l)

theorem mem_insert_of_mem {j k : Join} {plan : List Join} (h : k ∈ plan) :
    k ∈ j.insert plan := by
  fun_induction insert j plan with
  | case1 => cases h
  | case2 => exact h
  | case3 => exact List.mem_cons_of_mem _ h
  | case4 l plan _ _ ih =>
      rcases List.mem_cons.mp h with rfl | h
      · exact List.mem_cons_self
      · exact List.mem_cons_of_mem l (ih h)

/-- The target is joined after an insertion, by this join or by one before. -/
theorem target_mem_insert (j : Join) (plan : List Join) :
    ∃ k ∈ j.insert plan, k.target = j.target := by
  fun_induction insert j plan with
  | case1 => exact ⟨j, List.mem_cons_self, rfl⟩
  | case2 l plan h => exact ⟨l, List.mem_cons_self, h.symm⟩
  | case3 => exact ⟨j, List.mem_cons_self, rfl⟩
  | case4 l plan _ _ ih =>
      obtain ⟨k, hk, htarget⟩ := ih
      exact ⟨k, List.mem_cons_of_mem l hk, htarget⟩

theorem Sorted.insert {j : Join} {plan : List Join} (h : Sorted plan) :
    Sorted (j.insert plan) := by
  fun_induction Join.insert j plan with
  | case1 => exact List.pairwise_singleton _ _
  | case2 => exact h
  | case3 l plan hne hlt =>
      obtain ⟨hl, _⟩ := List.pairwise_cons.mp h
      refine List.pairwise_cons.mpr ⟨fun k hk => ?_, h⟩
      rcases List.mem_cons.mp hk with rfl | hk
      · exact ⟨hne, fun hgt => before_irrefl j (before_trans hlt hgt)⟩
      · -- whatever stands behind `l` does not go before it, as `j` does
        refine ⟨fun heq => (hl k hk).2 ?_, fun hgt => (hl k hk).2 (before_trans hgt hlt)⟩
        rw [← before_congr heq]
        exact hlt
  | case4 l plan hne hlt ih =>
      obtain ⟨hl, hplan⟩ := List.pairwise_cons.mp h
      refine List.pairwise_cons.mpr ⟨fun k hk => ?_, ih hplan⟩
      rcases mem_insert hk with rfl | hk
      · exact ⟨fun heq => hne heq.symm, hlt⟩
      · exact hl k hk

/-! ## Insertion of several joins -/

variable {j k : Join} {joins made : List Join}

theorem Sorted.insertAll (h : Sorted made) :
    Sorted (joins.foldl (fun plan j => j.insert plan) made) := by
  induction joins generalizing made with
  | nil => exact h
  | cons j joins ih => exact ih h.insert

theorem mem_insertAll (h : k ∈ joins.foldl (fun plan j => j.insert plan) made) :
    k ∈ joins ∨ k ∈ made := by
  induction joins generalizing made with
  | nil => exact .inr h
  | cons j joins ih =>
      rcases ih h with h | h
      · exact .inl (List.mem_cons_of_mem j h)
      · rcases mem_insert h with rfl | h
        · exact .inl List.mem_cons_self
        · exact .inr h

theorem mem_insertAll_of_mem (h : k ∈ made) :
    k ∈ joins.foldl (fun plan j => j.insert plan) made := by
  induction joins generalizing made with
  | nil => exact h
  | cons j joins ih => exact ih (mem_insert_of_mem h)

theorem target_mem_insertAll (h : j ∈ joins) :
    ∃ k ∈ joins.foldl (fun plan j => j.insert plan) made, k.target = j.target := by
  induction joins generalizing made with
  | nil => cases h
  | cons l joins ih =>
      rcases List.mem_cons.mp h with rfl | h
      · obtain ⟨k, hk, htarget⟩ := target_mem_insert j made
        have hkeep : k ∈ joins.foldl (fun plan j => j.insert plan) (j.insert made) :=
          mem_insertAll_of_mem hk
        exact ⟨k, hkeep, htarget⟩
      · exact ih h

/-! ## Plans -/

variable {paths : List ResolvedPath}

theorem plan_sorted (paths : List ResolvedPath) : Sorted (plan paths) :=
  Sorted.insertAll .nil

theorem mem_of_mem_plan (h : j ∈ plan paths) : ∃ p ∈ paths, j ∈ p.joins := by
  rcases mem_insertAll h with h | h
  · exact List.mem_flatMap.mp h
  · cases h

theorem target_mem_plan {p : ResolvedPath} (hp : p ∈ paths) (hj : j ∈ p.joins) :
    ∃ k ∈ plan paths, k.target = j.target :=
  target_mem_insertAll (List.mem_flatMap.mpr ⟨p, hp, hj⟩)

/-- **A plan is the union of the joins of its paths**, if one entity resolves
them. -/
theorem mem_plan_iff {e : Entity} (h : ∀ p ∈ paths, e.Resolves p) :
    j ∈ plan paths ↔ ∃ p ∈ paths, j ∈ p.joins := by
  refine ⟨mem_of_mem_plan, ?_⟩
  rintro ⟨p, hp, hj⟩
  obtain ⟨k, hk, htarget⟩ := target_mem_plan hp hj
  obtain ⟨q, hq, hkq⟩ := mem_of_mem_plan hk
  rw [(h p hp).join_unique (h q hq) hj hkq htarget.symm]
  exact hk

/-! ## Parents first -/

/-- In this order the joins can be made when the targets `made` are there: each
starts from the root or from a target that is there, and leads to a new one. -/
def Ordered (made : List Alias) : List Join → Prop
  | [] => True
  | j :: joins =>
    j.target ∉ made ∧ (∀ a, j.parent = some a → a ∈ made) ∧ Ordered (j.target :: made) joins

/-- A sorted plan that has the parents of its joins has them in front. -/
theorem Sorted.ordered {front back : List Join} (h : Sorted (front ++ back))
    (hparent : ∀ j ∈ front ++ back, ∀ a, j.parent = some a →
      ∃ k ∈ front ++ back, k.target = a ∧ k.depth < j.depth) :
    Ordered (front.map (·.target)).reverse back := by
  induction back generalizing front with
  | nil => trivial
  | cons j back ih =>
      obtain ⟨_, hback, hbetween⟩ := List.pairwise_append.mp h
      refine ⟨?_, ?_, ?_⟩
      · intro hmem
        obtain ⟨k, hk, htarget⟩ := List.mem_map.mp (List.mem_reverse.mp hmem)
        exact (hbetween k hk j List.mem_cons_self).1 htarget
      · intro a ha
        obtain ⟨k, hk, htarget, hdepth⟩ :=
          hparent j (List.mem_append_right front List.mem_cons_self) a ha
        rcases List.mem_append.mp hk with hk | hk
        · exact List.mem_reverse.mpr (List.mem_map.mpr ⟨k, hk, htarget⟩)
        · -- a parent is not so deep as `j`, so it does not stand at `j` or behind it
          rcases List.mem_cons.mp hk with rfl | hk
          · exact absurd hdepth (Nat.lt_irrefl _)
          · exact absurd (before_eq_lt_iff.mpr (.inl hdepth))
              ((List.pairwise_cons.mp hback).1 k hk).2
      · rw [List.append_cons] at h hparent
        have hrest := ih h hparent
        rw [List.map_append, List.reverse_append] at hrest
        exact hrest

/-- **Parents are joined first**, whatever paths a plan is for. -/
theorem plan_ordered (paths : List ResolvedPath) : Ordered [] (plan paths) := by
  have hsorted : Sorted ([] ++ plan paths) := plan_sorted paths
  refine hsorted.ordered fun j hj a ha => ?_
  obtain ⟨p, hp, hjp⟩ := mem_of_mem_plan hj
  obtain ⟨k, hk, htarget, hdepth⟩ := ResolvedPath.joins_parent hjp ha
  obtain ⟨k', hk', htarget'⟩ := target_mem_plan hp hk
  refine ⟨k', hk', htarget'.trans htarget, ?_⟩
  rw [depth, htarget']
  exact hdepth

end Join

end RecordFilter
