/-
# `Proofs.Evaluation.Connectives` — connectives over joined rows

A conjunction or a disjunction is run over the joins of all its operands, each
operand alone over its own.  The rows of the two differ, but a row of the whole
reads for an operand what some row of the operand does, and the other way round
(`Row.exists_reading_of_mem`): no unrelated join hides a row, since a left outer
join binds something always.  So a disjunction matches where an operand does, and
the operands of a conjunction match where it does.

The converse for conjunctions needs operands without a common join: the rows on
which they are true need not be parts of one row otherwise.
-/
import RecordFilter.Proofs.Evaluation.Rows
import RecordFilter.Proofs.Evaluation.Truth

namespace RecordFilter

namespace Predicate

/-- Two predicates join nothing to the same name. -/
def SharesNoJoin (p q : Predicate) : Prop :=
  ∀ j ∈ p.joins, ∀ k ∈ q.joins, j.target ≠ k.target

variable {engine : PatternEngine} {e : Entity} {ps : List Predicate} {record : Json}
  {table : PatternTable}

theorem resolves_of_mem (h : ∀ p ∈ ps, p.ResolvedIn e) :
    ∀ path ∈ pathsList ps, e.Resolves path := by
  intro path hpath
  obtain ⟨p, hp, hpath⟩ := mem_pathsList.mp hpath
  exact h p hp path hpath

theorem mem_plan_pathsList {j : Join} (h : ∀ p ∈ ps, p.ResolvedIn e) :
    j ∈ Join.plan (pathsList ps) ↔ ∃ p ∈ ps, j ∈ p.joins := by
  rw [Join.mem_plan_iff (resolves_of_mem h)]
  constructor
  · rintro ⟨path, hpath, hj⟩
    obtain ⟨p, hp, hpath⟩ := mem_pathsList.mp hpath
    exact ⟨p, hp, (Join.mem_plan_iff (h p hp)).mpr ⟨path, hpath, hj⟩⟩
  · rintro ⟨p, hp, hj⟩
    obtain ⟨path, hpath, hj⟩ := (Join.mem_plan_iff (h p hp)).mp hj
    exact ⟨path, mem_pathsList.mpr ⟨p, hp, hpath⟩, hj⟩

/-! ## Rows of a part and rows of the whole -/

/-- An operand is true on a row of the whole if and only if it is on one of its
own. -/
theorem exists_row_iff {p : Predicate} (h : ∀ p ∈ ps, p.ResolvedIn e) (hp : p ∈ ps) :
    (∃ row ∈ Row.ofRecord record (Join.plan (pathsList ps)),
        p.eval table record row = some true) ↔
      ∃ row ∈ Row.ofRecord record p.joins, p.eval table record row = some true := by
  have hmem : ∀ path ∈ p.paths, path ∈ pathsList ps := fun path hpath =>
    mem_pathsList.mpr ⟨p, hp, hpath⟩
  constructor
  · rintro ⟨row, hrow, htrue⟩
    obtain ⟨own, hown, hreads⟩ := Row.exists_reading_of_mem (resolves_of_mem h) (h p hp)
      (fun path hpath => ⟨hmem path hpath, hpath⟩) hrow
    exact ⟨own, hown, (eval_congr (fun _ _ => rfl) hreads).trans htrue⟩
  · rintro ⟨own, hown, htrue⟩
    obtain ⟨row, hrow, hreads⟩ := Row.exists_reading_of_mem (h p hp) (resolves_of_mem h)
      (fun path hpath => ⟨hpath, hmem path hpath⟩) hown
    exact ⟨row, hrow, (eval_congr (fun _ _ => rfl) hreads).trans htrue⟩

/-- Rows on which operands without a common join are true are parts of one row,
and on that row they all are. -/
theorem exists_common_row (h : ∀ p ∈ ps, p.ResolvedIn e) (hdisjoint : ps.Pairwise SharesNoJoin)
    (hrows : ∀ p ∈ ps, ∃ row ∈ Row.ofRecord record p.joins,
      p.eval table record row = some true) :
    ∃ row ∈ Row.ofRecord record (Join.plan (pathsList ps)),
      ∀ p ∈ ps, p.eval table record row = some true := by
  induction ps with
  | nil => exact ⟨[], List.mem_cons_self, fun _ hp => nomatch hp⟩
  | cons p ps ih =>
      have hp := h p List.mem_cons_self
      have hps : ∀ q ∈ ps, q.ResolvedIn e := fun q hq => h q (List.mem_cons_of_mem p hq)
      obtain ⟨hfirst, hdisjoint⟩ := List.pairwise_cons.mp hdisjoint
      obtain ⟨own, hown, htrue⟩ := hrows p List.mem_cons_self
      obtain ⟨rest, hrest, htrues⟩ := ih hps hdisjoint fun q hq =>
        hrows q (List.mem_cons_of_mem p hq)
      have hapart : ∀ j ∈ Join.plan p.paths, ∀ k ∈ Join.plan (pathsList ps),
          j.target ≠ k.target := by
        intro j hj k hk
        obtain ⟨q, hq, hk⟩ := (mem_plan_pathsList hps).mp hk
        exact hfirst q hq j hj k hk
      obtain ⟨row, hrow, hreads, hreads'⟩ :=
        Row.exists_reading_append hp (resolves_of_mem hps) hapart hown hrest
      refine ⟨row, hrow, fun q hq => ?_⟩
      rcases List.mem_cons.mp hq with rfl | hq
      · exact (eval_congr (fun _ _ => rfl) hreads).trans htrue
      · refine (eval_congr (fun _ _ => rfl) fun path hpath => ?_).trans (htrues q hq)
        exact hreads' path (mem_pathsList.mpr ⟨q, hq, hpath⟩)

/-! ## Filters of a part and filters of the whole -/

theorem runs_any_iff : (any ps).Runs engine ↔ ∀ p ∈ ps, p.Runs engine := by
  simp only [runs_iff, patterns, mem_patternsList]
  constructor
  · intro h p hp pattern hpattern
    exact h pattern ⟨p, hp, hpattern⟩
  · rintro h pattern ⟨p, hp, hpattern⟩
    exact h p hp pattern hpattern

theorem runs_all_iff : (all ps).Runs engine ↔ ∀ p ∈ ps, p.Runs engine := by
  rw [← runs_any_iff, runs_iff, runs_iff]
  exact Iff.rfl

theorem exists_serves (h : ∀ p ∈ ps, p.Runs engine) :
    ∃ table : PatternTable, table.Serves (patternsList ps) ∧ ∀ p ∈ ps, table.Serves p.patterns := by
  obtain ⟨ev, hev⟩ := runs_any_iff.mpr h
  obtain ⟨table, htable, _⟩ := evaluator_eq_ok_iff.mp hev
  have hserves : table.Serves (patternsList ps) := PatternTable.serves_of_prepare htable
  refine ⟨table, hserves, fun p hp pattern hpattern => hserves pattern ?_⟩
  exact mem_patternsList.mpr ⟨p, hp, hpattern⟩

theorem matches_any_iff (h : ∀ p ∈ ps, p.ResolvedIn e) (hruns : ∀ p ∈ ps, p.Runs engine) :
    (any ps).Matches engine record ↔ ∃ p ∈ ps, p.Matches engine record := by
  obtain ⟨table, hwhole, hpart⟩ := exists_serves hruns
  rw [matches_iff (runs_any_iff.mpr hruns) hwhole]
  constructor
  · rintro ⟨row, hrow, htrue⟩
    obtain ⟨p, hp, htrue⟩ := evalAny_eq_true_iff.mp htrue
    refine ⟨p, hp, (matches_iff (hruns p hp) (hpart p hp)).mpr ?_⟩
    exact (exists_row_iff h hp).mp ⟨row, hrow, htrue⟩
  · rintro ⟨p, hp, hmatch⟩
    have hrows := (matches_iff (hruns p hp) (hpart p hp)).mp hmatch
    obtain ⟨row, hrow, htrue⟩ := (exists_row_iff h hp).mpr hrows
    exact ⟨row, hrow, evalAny_eq_true_iff.mpr ⟨p, hp, htrue⟩⟩

theorem matches_of_matches_all (h : ∀ p ∈ ps, p.ResolvedIn e)
    (hmatch : (all ps).Matches engine record) :
    ∀ p ∈ ps, p.Matches engine record := by
  intro p hp
  have hruns : ∀ p ∈ ps, p.Runs engine := runs_all_iff.mp hmatch.runs
  obtain ⟨table, hwhole, hpart⟩ := exists_serves hruns
  obtain ⟨row, hrow, htrue⟩ := (matches_iff (runs_all_iff.mpr hruns) hwhole).mp hmatch
  refine (matches_iff (hruns p hp) (hpart p hp)).mpr ?_
  exact (exists_row_iff h hp).mp ⟨row, hrow, evalAll_eq_true_iff.mp htrue p hp⟩

theorem matches_all_of_matches (h : ∀ p ∈ ps, p.ResolvedIn e)
    (hdisjoint : ps.Pairwise SharesNoJoin) (hmatch : ∀ p ∈ ps, p.Matches engine record) :
    (all ps).Matches engine record := by
  have hruns : ∀ p ∈ ps, p.Runs engine := fun p hp => (hmatch p hp).runs
  obtain ⟨table, hwhole, hpart⟩ := exists_serves hruns
  have hrows : ∀ p ∈ ps, ∃ row ∈ Row.ofRecord record p.joins,
      p.eval table record row = some true := fun p hp =>
    (matches_iff (hruns p hp) (hpart p hp)).mp (hmatch p hp)
  obtain ⟨row, hrow, htrue⟩ := exists_common_row h hdisjoint hrows
  refine (matches_iff (runs_all_iff.mpr hruns) hwhole).mpr ?_
  exact ⟨row, hrow, evalAll_eq_true_iff.mpr htrue⟩

end Predicate

open Predicate

/-- **Connectives are not disturbed by joins.**  The whole is run over the union
of the joins of its operands, and can be run if each operand can.  A disjunction
matches a record if and only if an operand alone does; where a conjunction
matches, each operand alone does, and where no two operands share a join the
converse holds. -/
theorem matches_connectives_iff (engine : PatternEngine) (e : Entity) (ps : List Predicate)
    (record : Json) (h : ∀ p ∈ ps, p.ResolvedIn e) :
    (∀ j, j ∈ (any ps).joins ↔ ∃ p ∈ ps, j ∈ p.joins) ∧
    (∀ j, j ∈ (all ps).joins ↔ ∃ p ∈ ps, j ∈ p.joins) ∧
    ((any ps).Runs engine ↔ ∀ p ∈ ps, p.Runs engine) ∧
    ((all ps).Runs engine ↔ ∀ p ∈ ps, p.Runs engine) ∧
    ((any ps).Matches engine record ↔
      (∀ p ∈ ps, p.Runs engine) ∧ ∃ p ∈ ps, p.Matches engine record) ∧
    ((all ps).Matches engine record → ∀ p ∈ ps, p.Matches engine record) ∧
    (ps.Pairwise SharesNoJoin →
      ((all ps).Matches engine record ↔ ∀ p ∈ ps, p.Matches engine record)) := by
  refine ⟨fun _ => mem_plan_pathsList h, fun _ => mem_plan_pathsList h, runs_any_iff,
    runs_all_iff, ?_, matches_of_matches_all h, ?_⟩
  · constructor
    · intro hmatch
      have hruns := runs_any_iff.mp hmatch.runs
      exact ⟨hruns, (matches_any_iff h hruns).mp hmatch⟩
    · rintro ⟨hruns, hmatch⟩
      exact (matches_any_iff h hruns).mpr hmatch
  · intro hdisjoint
    exact ⟨matches_of_matches_all h, matches_all_of_matches h hdisjoint⟩

/-- Conditions on two relations to many share no join, so a record matches both
at once as soon as it matches each, though the one relation is empty. -/
theorem matches_connectives_two_relations :
    (all [.test ⟨[⟨"pets", some (.relation .toMany)⟩, ⟨"name", none⟩], .string⟩ .isNull,
        .test ⟨[⟨"cars", some (.relation .toMany)⟩, ⟨"doors", none⟩], .long⟩ .isNotNull]).Matches
      .lenient
      (.object [("pets", .array []), ("cars", .array [.null, .object [("doors", .bool true)]])]) ↔
    ∀ p ∈ [test ⟨[⟨"pets", some (.relation .toMany)⟩, ⟨"name", none⟩], .string⟩ .isNull,
        test ⟨[⟨"cars", some (.relation .toMany)⟩, ⟨"doors", none⟩], .long⟩ .isNotNull], p.Matches
      .lenient
      (.object
        [("pets", .array []), ("cars", .array [.null, .object [("doors", .bool true)]])]) := by
  have hresolved : ∀ p ∈
      [test ⟨[⟨"pets", some (.relation .toMany)⟩, ⟨"name", none⟩], .string⟩ .isNull,
      test ⟨[⟨"cars", some (.relation .toMany)⟩, ⟨"doors", none⟩], .long⟩ .isNotNull],
      p.ResolvedIn ⟨"Owner",
        [("pets", .link (.relation .toMany) "Pet" [("name", .basic .string)]),
          ("cars", .link (.relation .toMany) "Car" [("doors", .basic .long)])]⟩ := by
    refine List.forall_mem_cons.mpr ⟨?_, List.forall_mem_singleton.mpr ?_⟩
    · exact List.forall_mem_singleton.mpr ⟨"pets.name", rfl⟩
    · exact List.forall_mem_singleton.mpr ⟨"cars.doors", rfl⟩
  refine (matches_connectives_iff _ _ _ _ hresolved).2.2.2.2.2.2 ?_
  refine List.pairwise_pair.mpr ?_
  unfold SharesNoJoin
  decide

end RecordFilter
