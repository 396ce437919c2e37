/-
# `Proofs.Evaluation.Kleene` — connectives are strong Kleene logic

Evaluation of a conjunction stops at the first operand that is false, and goes on past
one that is unknown, since a later one may still be false.  What comes out does not
depend on where it stops.  In the order false, unknown, true (`Truth.rank`)

    a conjunction is the least of its operands, true if it has none       (`rank_evalAll`)
    a disjunction is the greatest of them, false if it has none           (`rank_evalAny`)
    the opposite counts from the other end                                (`Truth.rank_not`)

so the laws of least and greatest elements are laws of predicates.  `Regroups` and
`Shuffles` are the laws at the root of a predicate, and `Everywhere` closes them under
use in both directions, again and again, at any place inside a larger one.

The truth on a row is kept by all of them (`Everywhere.eval_eq`).  The number of
matching rows is a matter of the joins as well.  `Regroups` keeps the paths in their
order, and so the joins.  `Shuffles` keeps the set of paths only.  That is enough if a
name stands for one join (`Join.Coherent`), as it does among the paths of one entity; two
paths of different entities may call two joins by one name, and then the first of them in
the predicate is made for both (`shuffled_operands_change_rows`).
-/
import Mathlib.Data.Nat.Basic
import Mathlib.Order.Basic
import RecordFilter.Proofs.Evaluation.Truth
import RecordFilter.Proofs.Predicate.JoinSet

namespace RecordFilter

/-! ## The order of truth values -/

/-- The place of a truth value in the order false, unknown, true. -/
def Truth.rank : Truth → Nat
  | some false => 0
  | none => 1
  | some true => 2

namespace Truth

theorem rank_le (t : Truth) : t.rank ≤ 2 := by
  match t with
  | some false => exact Nat.zero_le 2
  | none => exact Nat.le_succ 1
  | some true => exact Nat.le_refl 2

theorem rank_inj {s t : Truth} (h : s.rank = t.rank) : s = t := by
  match s, t with
  | some false, some false => rfl
  | some false, none => cases h
  | some false, some true => cases h
  | none, some false => cases h
  | none, none => rfl
  | none, some true => cases h
  | some true, some false => cases h
  | some true, none => cases h
  | some true, some true => rfl

theorem eq_of_le_iff {s t : Truth} (h : ∀ n, n ≤ s.rank ↔ n ≤ t.rank) : s = t :=
  rank_inj (eq_of_forall_le_iff h)

theorem eq_of_ge_iff {s t : Truth} (h : ∀ n, s.rank ≤ n ↔ t.rank ≤ n) : s = t :=
  rank_inj (eq_of_forall_ge_iff h)

@[simp]
theorem rank_eq_zero_iff {t : Truth} : t.rank = 0 ↔ t = some false := by
  constructor
  · intro h
    exact rank_inj h
  · rintro rfl
    rfl

@[simp]
theorem rank_not (t : Truth) : rank (t.map (!·)) = 2 - t.rank := by
  match t with
  | some false => rfl
  | none => rfl
  | some true => rfl

end Truth

namespace Predicate

variable {table : PatternTable} {record : Json} {row : Row} {p q : Predicate}
  {ps qs : List Predicate}

/-! ## Least and greatest operands -/

/-- **A conjunction is the least of its operands.** -/
theorem rank_evalAll (ps : List Predicate) :
    (evalAll table record row ps).rank =
      (ps.map fun p => (p.eval table record row).rank).foldr min 2 := by
  induction ps with
  | nil => rfl
  | cons p ps ih =>
      have hrest := (evalAll table record row ps).rank_le
      rw [List.map_cons, List.foldr_cons, ← ih, evalAll]
      match p.eval table record row with
      | some false => exact (Nat.zero_min _).symm
      | some true => exact (Nat.min_eq_right hrest).symm
      | none =>
          match evalAll table record row ps with
          | some false => rfl
          | none => rfl
          | some true => rfl

/-- **A disjunction is the greatest of its operands.** -/
theorem rank_evalAny (ps : List Predicate) :
    (evalAny table record row ps).rank =
      (ps.map fun p => (p.eval table record row).rank).foldr max 0 := by
  induction ps with
  | nil => rfl
  | cons p ps ih =>
      have hrest := (evalAny table record row ps).rank_le
      rw [List.map_cons, List.foldr_cons, ← ih, evalAny]
      match p.eval table record row with
      | some true => exact (Nat.max_eq_left hrest).symm
      | some false => exact (Nat.zero_max _).symm
      | none =>
          match evalAny table record row ps with
          | some false => rfl
          | none => rfl
          | some true => rfl

/-- What is below a conjunction is below all operands. -/
theorem le_rank_evalAll_iff {n : Nat} :
    n ≤ (evalAll table record row ps).rank ↔
      n ≤ 2 ∧ ∀ p ∈ ps, n ≤ (p.eval table record row).rank := by
  rw [rank_evalAll]
  induction ps with
  | nil => exact ⟨fun h => ⟨h, nofun⟩, And.left⟩
  | cons p ps ih =>
      rw [List.map_cons, List.foldr_cons, Nat.le_min, ih, List.forall_mem_cons]
      exact and_left_comm

theorem rank_evalAny_le_iff {n : Nat} :
    (evalAny table record row ps).rank ≤ n ↔
      ∀ p ∈ ps, (p.eval table record row).rank ≤ n := by
  rw [rank_evalAny]
  induction ps with
  | nil => exact ⟨fun _ => nofun, fun _ => Nat.zero_le n⟩
  | cons p ps ih => rw [List.map_cons, List.foldr_cons, Nat.max_le, ih, List.forall_mem_cons]

theorem evalAll_eq_of_le_iff
    (h : ∀ n, (∀ p ∈ ps, n ≤ (p.eval table record row).rank) ↔
      ∀ q ∈ qs, n ≤ (q.eval table record row).rank) :
    evalAll table record row ps = evalAll table record row qs := by
  refine Truth.eq_of_le_iff fun n => ?_
  rw [le_rank_evalAll_iff, le_rank_evalAll_iff, h]

theorem evalAny_eq_of_le_iff
    (h : ∀ n, (∀ p ∈ ps, (p.eval table record row).rank ≤ n) ↔
      ∀ q ∈ qs, (q.eval table record row).rank ≤ n) :
    evalAny table record row ps = evalAny table record row qs := by
  refine Truth.eq_of_ge_iff fun n => ?_
  rw [rank_evalAny_le_iff, rank_evalAny_le_iff, h]

/-! ## False and unknown connectives -/

theorem evalAll_eq_false_iff :
    evalAll table record row ps = some false ↔
      ∃ p ∈ ps, p.eval table record row = some false := by
  simp only [← Truth.rank_eq_zero_iff, ← Nat.lt_one_iff, ← Nat.not_le, le_rank_evalAll_iff]
  push Not
  exact forall_prop_of_true (Nat.le_succ 1)

theorem evalAny_eq_false_iff :
    evalAny table record row ps = some false ↔
      ∀ p ∈ ps, p.eval table record row = some false := by
  simp only [← Truth.rank_eq_zero_iff, ← Nat.le_zero, rank_evalAny_le_iff]

theorem evalAll_of_unknown (hne : ps ≠ []) (h : ∀ p ∈ ps, p.eval table record row = none) :
    evalAll table record row ps = none := by
  obtain ⟨p, hp⟩ := List.exists_mem_of_ne_nil ps hne
  refine Truth.eq_of_le_iff fun n => ?_
  rw [le_rank_evalAll_iff]
  constructor
  · rintro ⟨-, hall⟩
    rw [← h p hp]
    exact hall p hp
  · intro hn
    refine ⟨Nat.le_succ_of_le hn, fun q hq => ?_⟩
    rw [h q hq]
    exact hn

theorem evalAny_of_unknown (hne : ps ≠ []) (h : ∀ p ∈ ps, p.eval table record row = none) :
    evalAny table record row ps = none := by
  obtain ⟨p, hp⟩ := List.exists_mem_of_ne_nil ps hne
  refine Truth.eq_of_ge_iff fun n => ?_
  rw [rank_evalAny_le_iff]
  constructor
  · intro hall
    rw [← h p hp]
    exact hall p hp
  · intro hn q hq
    rw [h q hq]
    exact hn

/-! ## Laws -/

/-- Regroupings: the same operands in the same order, under other connectives. -/
inductive Regroups : Predicate → Predicate → Prop
  | flattenAll (front inner back : List Predicate) :
      Regroups (.all (front ++ .all inner :: back)) (.all (front ++ inner ++ back))
  | flattenAny (front inner back : List Predicate) :
      Regroups (.any (front ++ .any inner :: back)) (.any (front ++ inner ++ back))
  | notNot (p : Predicate) : Regroups (.not (.not p)) p
  | notAll (ps : List Predicate) : Regroups (.not (.all ps)) (.any (ps.map .not))
  | notAny (ps : List Predicate) : Regroups (.not (.any ps)) (.all (ps.map .not))

/-- The same operands under the same connective, in any order and any number. -/
inductive Shuffles : Predicate → Predicate → Prop
  | all {ps qs : List Predicate} : (∀ p, p ∈ ps ↔ p ∈ qs) → Shuffles (.all ps) (.all qs)
  | any {ps qs : List Predicate} : (∀ p, p ∈ ps ↔ p ∈ qs) → Shuffles (.any ps) (.any qs)

/-- The laws of strong Kleene logic. -/
def Rewrites (p q : Predicate) : Prop :=
  Regroups p q ∨ Shuffles p q

/-- `Everywhere law p q`: uses of the law, in either direction and at any place, lead from
one predicate to the other. -/
inductive Everywhere (law : Predicate → Predicate → Prop) : Predicate → Predicate → Prop
  | here {p q : Predicate} : law p q → Everywhere law p q
  | symm {p q : Predicate} : Everywhere law p q → Everywhere law q p
  | trans {p q r : Predicate} : Everywhere law p q → Everywhere law q r → Everywhere law p r
  | inAll {p q : Predicate} (front back : List Predicate) : Everywhere law p q →
      Everywhere law (.all (front ++ p :: back)) (.all (front ++ q :: back))
  | inAny {p q : Predicate} (front back : List Predicate) : Everywhere law p q →
      Everywhere law (.any (front ++ p :: back)) (.any (front ++ q :: back))
  | inNot {p q : Predicate} : Everywhere law p q → Everywhere law (.not p) (.not q)

/-! ## Laws keep the truth -/

theorem evalAll_flatten (front inner back : List Predicate) :
    evalAll table record row (front ++ .all inner :: back) =
      evalAll table record row (front ++ inner ++ back) := by
  refine Truth.eq_of_le_iff fun n => ?_
  simp only [le_rank_evalAll_iff, List.forall_mem_append, List.forall_mem_cons, eval]
  constructor
  · rintro ⟨hn, hfront, ⟨_, hinner⟩, hback⟩
    exact ⟨hn, ⟨hfront, hinner⟩, hback⟩
  · rintro ⟨hn, ⟨hfront, hinner⟩, hback⟩
    exact ⟨hn, hfront, ⟨hn, hinner⟩, hback⟩

theorem evalAny_flatten (front inner back : List Predicate) :
    evalAny table record row (front ++ .any inner :: back) =
      evalAny table record row (front ++ inner ++ back) := by
  refine evalAny_eq_of_le_iff fun n => ?_
  simp only [List.forall_mem_append, List.forall_mem_cons, eval, rank_evalAny_le_iff, and_assoc]

@[simp]
theorem evalAll_map_not (ps : List Predicate) :
    evalAll table record row (ps.map .not) = (evalAny table record row ps).map (!·) := by
  refine Truth.eq_of_le_iff fun n => ?_
  have hany := (evalAny table record row ps).rank_le
  have hsub : ∀ r, r ≤ 2 → (n ≤ 2 - r ↔ n ≤ 2 ∧ r ≤ 2 - n) := by
    intro r hr
    omega
  simp only [le_rank_evalAll_iff, List.forall_mem_map, eval, Truth.rank_not]
  rw [hsub _ hany, rank_evalAny_le_iff]
  refine and_congr_right fun hn => forall₂_congr fun p _ => ?_
  rw [hsub _ (p.eval table record row).rank_le]
  exact and_iff_right hn

@[simp]
theorem evalAny_map_not (ps : List Predicate) :
    evalAny table record row (ps.map .not) = (evalAll table record row ps).map (!·) := by
  refine Truth.eq_of_ge_iff fun n => ?_
  have hall := (evalAll table record row ps).rank_le
  have hsub : ∀ r, r ≤ 2 → (2 - r ≤ n ↔ 2 - n ≤ r) := by
    intro r hr
    omega
  simp only [rank_evalAny_le_iff, List.forall_mem_map, eval, Truth.rank_not]
  rw [hsub _ hall, le_rank_evalAll_iff, and_iff_right (Nat.sub_le 2 n)]
  refine forall₂_congr fun p _ => ?_
  exact hsub _ (p.eval table record row).rank_le

theorem Regroups.eval_eq (h : Regroups p q) :
    p.eval table record row = q.eval table record row := by
  cases h with
  | flattenAll front inner back => exact evalAll_flatten front inner back
  | flattenAny front inner back => exact evalAny_flatten front inner back
  | notNot p =>
      rw [eval, eval, Option.map_map]
      match q.eval table record row with
      | some false => rfl
      | none => rfl
      | some true => rfl
  | notAll ps => exact (evalAny_map_not ps).symm
  | notAny ps => exact (evalAll_map_not ps).symm

theorem Shuffles.eval_eq (h : Shuffles p q) :
    p.eval table record row = q.eval table record row := by
  cases h with
  | all hmem =>
      refine evalAll_eq_of_le_iff fun n => ?_
      simp only [hmem]
  | any hmem =>
      refine evalAny_eq_of_le_iff fun n => ?_
      simp only [hmem]

theorem Rewrites.eval_eq (h : Rewrites p q) :
    p.eval table record row = q.eval table record row := by
  rcases h with h | h
  · exact h.eval_eq
  · exact h.eval_eq

/-- **What keeps the truth at the root keeps it everywhere.** -/
theorem Everywhere.eval_eq {law : Predicate → Predicate → Prop} (h : Everywhere law p q)
    (hlaw : ∀ p q, law p q → p.eval table record row = q.eval table record row) :
    p.eval table record row = q.eval table record row := by
  induction h with
  | here h => exact hlaw _ _ h
  | symm _ ih => exact ih.symm
  | trans _ _ ih ih' => exact ih.trans ih'
  | inAll front back _ ih =>
      refine evalAll_eq_of_le_iff fun n => ?_
      simp only [List.forall_mem_append, List.forall_mem_cons, ih]
  | inAny front back _ ih =>
      refine evalAny_eq_of_le_iff fun n => ?_
      simp only [List.forall_mem_append, List.forall_mem_cons, ih]
  | inNot _ ih => rw [eval, eval, ih]

/-! ## Laws keep the paths and the patterns -/

theorem pathsList_eq_flatMap (ps : List Predicate) : pathsList ps = ps.flatMap paths := by
  induction ps with
  | nil => rfl
  | cons p ps ih => rw [pathsList, ih, List.flatMap_cons]

theorem patternsList_eq_flatMap (ps : List Predicate) :
    patternsList ps = ps.flatMap patterns := by
  induction ps with
  | nil => rfl
  | cons p ps ih => rw [patternsList, ih, List.flatMap_cons]

theorem Regroups.paths_eq (h : Regroups p q) : p.paths = q.paths := by
  cases h with
  | notNot p => rfl
  | _ =>
      simp only [paths, pathsList_eq_flatMap, List.flatMap_append, List.flatMap_cons,
        List.flatMap_map, List.append_assoc]

theorem Regroups.patterns_eq (h : Regroups p q) : p.patterns = q.patterns := by
  cases h with
  | notNot p => rfl
  | _ =>
      simp only [patterns, patternsList_eq_flatMap, List.flatMap_append, List.flatMap_cons,
        List.flatMap_map, List.append_assoc]

theorem Shuffles.mem_paths_iff (h : Shuffles p q) (path : ResolvedPath) :
    path ∈ p.paths ↔ path ∈ q.paths := by
  cases h with
  | _ hmem => simp only [paths, mem_pathsList, hmem]

theorem Shuffles.mem_patterns_iff (h : Shuffles p q) (pattern : String) :
    pattern ∈ p.patterns ↔ pattern ∈ q.patterns := by
  cases h with
  | _ hmem => simp only [patterns, mem_patternsList, hmem]

theorem Rewrites.mem_paths_iff (h : Rewrites p q) (path : ResolvedPath) :
    path ∈ p.paths ↔ path ∈ q.paths := by
  rcases h with h | h
  · rw [h.paths_eq]
  · exact h.mem_paths_iff path

theorem Rewrites.mem_patterns_iff (h : Rewrites p q) (pattern : String) :
    pattern ∈ p.patterns ↔ pattern ∈ q.patterns := by
  rcases h with h | h
  · rw [h.patterns_eq]
  · exact h.mem_patterns_iff pattern

section

variable {law : Predicate → Predicate → Prop}

theorem Everywhere.paths_eq (h : Everywhere law p q)
    (hlaw : ∀ p q, law p q → p.paths = q.paths) : p.paths = q.paths := by
  induction h with
  | here h => exact hlaw _ _ h
  | symm _ ih => exact ih.symm
  | trans _ _ ih ih' => exact ih.trans ih'
  | inAll front back _ ih =>
      simp only [paths, pathsList_eq_flatMap, List.flatMap_append, List.flatMap_cons, ih]
  | inAny front back _ ih =>
      simp only [paths, pathsList_eq_flatMap, List.flatMap_append, List.flatMap_cons, ih]
  | inNot _ ih => exact ih

theorem Everywhere.mem_paths_iff (h : Everywhere law p q)
    (hlaw : ∀ p q, law p q → ∀ path, path ∈ p.paths ↔ path ∈ q.paths) (path : ResolvedPath) :
    path ∈ p.paths ↔ path ∈ q.paths := by
  induction h with
  | here h => exact hlaw _ _ h path
  | symm _ ih => exact ih.symm
  | trans _ _ ih ih' => exact ih.trans ih'
  | inAll front back _ ih =>
      simp only [paths, pathsList_eq_flatMap, List.flatMap_append, List.flatMap_cons,
        List.mem_append, ih]
  | inAny front back _ ih =>
      simp only [paths, pathsList_eq_flatMap, List.flatMap_append, List.flatMap_cons,
        List.mem_append, ih]
  | inNot _ ih => exact ih

theorem Everywhere.mem_patterns_iff (h : Everywhere law p q)
    (hlaw : ∀ p q, law p q → ∀ pattern, pattern ∈ p.patterns ↔ pattern ∈ q.patterns)
    (pattern : String) : pattern ∈ p.patterns ↔ pattern ∈ q.patterns := by
  induction h with
  | here h => exact hlaw _ _ h pattern
  | symm _ ih => exact ih.symm
  | trans _ _ ih ih' => exact ih.trans ih'
  | inAll front back _ ih =>
      simp only [patterns, patternsList_eq_flatMap, List.flatMap_append, List.flatMap_cons,
        List.mem_append, ih]
  | inAny front back _ ih =>
      simp only [patterns, patternsList_eq_flatMap, List.flatMap_append, List.flatMap_cons,
        List.mem_append, ih]
  | inNot _ ih => exact ih

theorem Everywhere.mono {law' : Predicate → Predicate → Prop} (h : Everywhere law p q)
    (hlaw : ∀ p q, law p q → law' p q) : Everywhere law' p q := by
  induction h with
  | here h => exact .here (hlaw _ _ h)
  | symm _ ih => exact ih.symm
  | trans _ _ ih ih' => exact ih.trans ih'
  | inAll front back _ ih => exact ih.inAll front back
  | inAny front back _ ih => exact ih.inAny front back
  | inNot _ ih => exact ih.inNot

end

/-! ## Laws keep the matching rows -/

/-- **Rewritten predicates have the same rows**, if they make the same joins. -/
theorem Everywhere.sameRows (h : Everywhere Rewrites p q) (hjoins : p.joins = q.joins) :
    Filter.SameRows (.ofPredicate p) (.ofPredicate q) := by
  refine Filter.sameRows_of_eval_eq ?_ hjoins ?_
  · exact h.mem_patterns_iff fun _ _ hlaw => hlaw.mem_patterns_iff
  · intro table record row
    exact h.eval_eq fun _ _ hlaw => hlaw.eval_eq

end Predicate

open Predicate

/-- **Connectives are strong Kleene logic.**  In the order false, unknown, true a
conjunction is the least of its operands, a disjunction the greatest, and the opposite
counts from the other end.  Whatever the laws of this order rewrite, at any place and in
either direction, is equally true on every row.  The number of matching rows of a record
is the same as well: always where the rewriting only regroups, and where it shuffles
operands, as long as no name stands for two joins, as none does over the paths of one
entity. -/
theorem connectives_are_kleene :
    (∀ (table : PatternTable) (record : Json) (row : Row) (ps : List Predicate),
      ((all ps).eval table record row).rank =
          (ps.map fun p => (p.eval table record row).rank).foldr min 2 ∧
        ((any ps).eval table record row).rank =
          (ps.map fun p => (p.eval table record row).rank).foldr max 0) ∧
    (∀ (table : PatternTable) (record : Json) (row : Row) (p : Predicate),
      ((Predicate.not p).eval table record row).rank = 2 - (p.eval table record row).rank) ∧
    (∀ p q : Predicate, Everywhere Rewrites p q →
      ∀ table record row, p.eval table record row = q.eval table record row) ∧
    (∀ p q : Predicate, Everywhere Regroups p q →
      Filter.SameRows (.ofPredicate p) (.ofPredicate q)) ∧
    (∀ p q : Predicate, Join.Coherent p.paths → Everywhere Rewrites p q →
      Filter.SameRows (.ofPredicate p) (.ofPredicate q)) ∧
    ∀ (e : Entity) (p : Predicate), p.ResolvedIn e → Join.Coherent p.paths := by
  refine ⟨?_, ?_, ?_, ?_, ?_, ?_⟩
  · intro table record row ps
    exact ⟨rank_evalAll ps, rank_evalAny ps⟩
  · intro table record row p
    exact Truth.rank_not _
  · intro p q h table record row
    exact h.eval_eq fun _ _ hlaw => hlaw.eval_eq
  · intro p q h
    have hpaths : p.paths = q.paths := h.paths_eq fun _ _ hlaw => hlaw.paths_eq
    have hrewrites : Everywhere Rewrites p q := h.mono fun _ _ => .inl
    exact hrewrites.sameRows (congrArg Join.plan hpaths)
  · intro p q hp h
    have hpaths : ∀ path, path ∈ q.paths ↔ path ∈ p.paths :=
      h.symm.mem_paths_iff fun _ _ hlaw => hlaw.mem_paths_iff
    exact h.sameRows (hp.plan_congr hpaths).symm
  · intro e p hp
    exact Join.coherent_of_resolves hp

/-- Opposites, a conjunction inside another, and an operand that is there twice go away in
turn.  On the row of a pet without age the first operand is unknown and the second
false, and the second wins. -/
theorem connectives_are_kleene_pets :
    Filter.SameRows
      (.ofPredicate (.not (.any
        [.not (.test ⟨[⟨"pets", some (.relation .toMany)⟩, ⟨"age", none⟩], .byte⟩
            (.equal (.int .byte 3))),
          .not (.all
            [.test ⟨[⟨"pets", some (.relation .toMany)⟩, ⟨"age", none⟩], .byte⟩ .isNotNull,
              .test ⟨[⟨"pets", some (.relation .toMany)⟩, ⟨"age", none⟩], .byte⟩
                (.equal (.int .byte 3))])])))
      (.ofPredicate (.all
        [.test ⟨[⟨"pets", some (.relation .toMany)⟩, ⟨"age", none⟩], .byte⟩
            (.equal (.int .byte 3)),
          .test ⟨[⟨"pets", some (.relation .toMany)⟩, ⟨"age", none⟩], .byte⟩ .isNotNull])) ∧
    ((Predicate.all
        [.test ⟨[⟨"pets", some (.relation .toMany)⟩, ⟨"age", none⟩], .byte⟩
            (.equal (.int .byte 3)),
          .test ⟨[⟨"pets", some (.relation .toMany)⟩, ⟨"age", none⟩], .byte⟩ .isNotNull]).eval
        [] (.object []) [(["pets"], some (.object []))]).rank = min 1 (min 0 2) := by
  have hresolved : (Predicate.not (.any
      [.not (.test ⟨[⟨"pets", some (.relation .toMany)⟩, ⟨"age", none⟩], .byte⟩
          (.equal (.int .byte 3))),
        .not (.all
          [.test ⟨[⟨"pets", some (.relation .toMany)⟩, ⟨"age", none⟩], .byte⟩ .isNotNull,
            .test ⟨[⟨"pets", some (.relation .toMany)⟩, ⟨"age", none⟩], .byte⟩
              (.equal (.int .byte 3))])])).ResolvedIn
      ⟨"Owner", [("pets", .to (.relation .toMany) ⟨"Pet", [("age", .basic .byte)]⟩)]⟩ := by
    intro path hpath
    refine ⟨"pets.age", ?_⟩
    rw [List.eq_of_mem_replicate (show path ∈ List.replicate 3
      ⟨[⟨"pets", some (.relation .toMany)⟩, ⟨"age", none⟩], .byte⟩ from hpath)]
    rfl
  have hcoherent := connectives_are_kleene.2.2.2.2.2 _ _ hresolved
  refine ⟨connectives_are_kleene.2.2.2.2.1 _ _ hcoherent ?_, (connectives_are_kleene.1 _ _ _ _).1⟩
  refine .trans (.here (.inl (.notAny _))) ?_
  refine .trans (.inAll [] [_] (.here (.inl (.notNot _)))) ?_
  refine .trans (.inAll [_] [] (.here (.inl (.notNot _)))) ?_
  refine .trans (.here (.inl (.flattenAll [_] [_, _] []))) ?_
  refine .here (.inr (.all fun p => ?_))
  simp only [List.mem_append, List.mem_cons, List.not_mem_nil, or_false]
  tauto

/-- Two operands, each with a path of an entity of its own, may not be shuffled: `r` leads to
one in the one entity and to many in the other, and the join in front is made for both.  A
record with a list under `r` has no matching row if that is the join to one, which takes the
list for a single element, and a row otherwise. -/
theorem shuffled_operands_change_rows :
    (∀ cardinality, ResolvedIn ⟨"E", [("r", .to (.relation cardinality) ⟨"T",
        [("x", .basic .integer)]⟩)]⟩
      (.test ⟨[⟨"r", some (.relation cardinality)⟩, ⟨"x", none⟩], .integer⟩ .isNotNull)) ∧
    ∃ ev ev',
      PatternEngine.lenient.evaluator (.ofPredicate (.all
        [.test ⟨[⟨"r", some (.relation .toOne)⟩, ⟨"x", none⟩], .integer⟩ .isNotNull,
          .test ⟨[⟨"r", some (.relation .toMany)⟩, ⟨"x", none⟩], .integer⟩ .isNotNull])) = .ok ev ∧
      PatternEngine.lenient.evaluator (.ofPredicate (.all
        [.test ⟨[⟨"r", some (.relation .toMany)⟩, ⟨"x", none⟩], .integer⟩ .isNotNull,
          .test ⟨[⟨"r", some (.relation .toOne)⟩, ⟨"x", none⟩], .integer⟩ .isNotNull])) = .ok ev' ∧
      Shuffles ev.filter.predicate ev'.filter.predicate ∧
      ev.matchingRows (.object [("r", .array [.object [("x", .ofNat 1)]])]) = 0 ∧
      ev'.matchingRows (.object [("r", .array [.object [("x", .ofNat 1)]])]) = 1 := by
  refine ⟨fun cardinality => List.forall_mem_singleton.mpr ⟨"r.x", ?_⟩, _, _, rfl, rfl, ?_, ?_, ?_⟩
  · cases cardinality <;> rfl
  · exact .all fun p => (List.Perm.swap _ _ []).mem_iff
  · decide +kernel
  · decide +kernel

end RecordFilter
