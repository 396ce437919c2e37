/-
# `Proofs.Evaluation.Copies` — a record is kept once for each matching row

What a filter keeps is told by places.  Of a list of records it takes places in ascending
order, each as often as the record there is to be kept (`Kept`); so two equal records at
two places stay apart, and the copies of one place stand together.

    the plain filter      each place as often as its record has matching rows
    the distinct filter   each place once if its record has a matching row

The flag is read nowhere else: both filters have the same predicate, the same joins and the
same matching rows (`Filter.sameRows_asDistinct`), and compiling for the one is compiling
for the other (`Compiler.exists_distinctOf`).
-/
import Mathlib.Data.List.FinRange
import RecordFilter.Proofs.Compiler.Filters
import RecordFilter.Proofs.Evaluation.Truth
import RecordFilter.Proofs.Outcome

namespace RecordFilter

/-! ## Places -/

/-- `kept` is taken from `records` at these places: none goes back behind the one before it,
and each is there as often as `times` says of its record. -/
structure Kept (times : Json → Nat) (records kept : List Json)
    (places : List (Fin records.length)) : Prop where
  ascending : places.Pairwise (· ≤ ·)
  count : ∀ k, places.count k = times records[k]
  taken : places.map (fun k => records[k]) = kept

theorem Kept.mem_iff {times : Json → Nat} {records kept : List Json}
    {places : List (Fin records.length)} (h : Kept times records kept places)
    (k : Fin records.length) : k ∈ places ↔ 0 < times records[k] := by
  rw [← h.count, List.count_pos_iff]

theorem count_flatMap_replicate {α : Type} [DecidableEq α] {as : List α} (h : as.Nodup)
    (times : α → Nat) (a : α) :
    (as.flatMap fun b => List.replicate (times b) b).count a = if a ∈ as then times a else 0 := by
  induction as with
  | nil => rfl
  | cons b as ih =>
      obtain ⟨hb, has⟩ := List.nodup_cons.mp h
      rw [List.flatMap_cons, List.count_append, List.count_replicate, ih has]
      by_cases hab : b = a
      · subst hab
        simp [hb]
      · simp [hab, Ne.symm hab]

/-- **Records repeated in order are kept**, as often as they are repeated. -/
theorem kept_flatMap_replicate (times : Json → Nat) (records : List Json) :
    ∃ places, Kept times records
      (records.flatMap fun record => List.replicate (times record) record)
      places := by
  refine ⟨(List.finRange records.length).flatMap fun k => List.replicate (times records[k]) k,
    ?_, fun k => ?_, ?_⟩
  · rw [List.pairwise_flatMap]
    refine ⟨fun k _ => ?_, (List.pairwise_lt_finRange _).imp fun {k l} hlt => ?_⟩
    · exact List.pairwise_replicate.mpr (.inr (Fin.le_refl k))
    · intro k' hk' l' hl'
      rw [List.eq_of_mem_replicate hk', List.eq_of_mem_replicate hl']
      exact Fin.le_of_lt hlt
  · rw [count_flatMap_replicate (List.nodup_finRange _), if_pos (List.mem_finRange k)]
  · have hrecords : (List.finRange records.length).map (fun k => records[k]) = records :=
      List.map_get_finRange records
    conv_rhs => rw [← hrecords, List.flatMap_map]
    rw [List.map_flatMap]
    simp only [List.map_replicate]

/-! ## Evaluators -/

namespace Evaluator

variable {ev : Evaluator}

@[simp]
theorem apply_append (ev : Evaluator) (front back : List Json) :
    ev.apply (front ++ back) = ev.apply front ++ ev.apply back :=
  List.flatMap_append

theorem isMatch_iff_pos {record : Json} :
    ev.isMatch record = true ↔ 0 < ev.matchingRows record :=
  decide_eq_true_iff

/-- **A plain filter keeps a record for each of its matching rows.** -/
theorem kept_apply_plain (h : ev.filter.distinct = false) (records : List Json) :
    ∃ places, Kept ev.matchingRows records (ev.apply records) places := by
  have hcopies : ev.copies = ev.matchingRows := by
    funext record
    simp [copies, h]
  rw [← hcopies]
  exact kept_flatMap_replicate ev.copies records

/-- **A distinct filter keeps a record once if it matches.** -/
theorem kept_apply_distinct (h : ev.filter.distinct = true) (records : List Json) :
    ∃ places, Kept (fun record => if ev.isMatch record then 1 else 0) records (ev.apply records)
      places := by
  have hcopies : ev.copies = fun record => if ev.isMatch record then 1 else 0 := by
    funext record
    simp only [copies, h, isMatch_iff_pos, if_true]
    split
    · next hrows => exact Nat.min_eq_right hrows
    · next hrows => rw [Nat.eq_zero_of_not_pos hrows, Nat.zero_min]
  rw [← hcopies]
  exact kept_flatMap_replicate ev.copies records

end Evaluator

/-! ## The flag -/

/-- **A filter and its distinct form have the same rows.** -/
theorem Filter.sameRows_asDistinct (f : Filter) : SameRows f f.asDistinct := by
  intro engine
  constructor
  · simp only [PatternEngine.evaluator_eq_ok_iff]
    constructor
    · rintro ⟨_, table, htable, _⟩
      exact ⟨_, table, htable, rfl⟩
    · rintro ⟨_, table, htable, _⟩
      exact ⟨_, table, htable, rfl⟩
  · intro ev ev' hev hev' record
    obtain ⟨table, htable, rfl⟩ := PatternEngine.evaluator_eq_ok_iff.mp hev
    obtain ⟨table', htable', rfl⟩ := PatternEngine.evaluator_eq_ok_iff.mp hev'
    have hsame : table = table' := Except.ok.inj (htable.symm.trans htable')
    rw [hsame]
    rfl

/-- `d` is the distinct form of the plain filter `f`: it says the same, joins the same and has
the same rows. -/
structure Filter.DistinctOf (d f : Filter) : Prop where
  plain : f.distinct = false
  distinct : d.distinct = true
  predicate : d.predicate = f.predicate
  joins : d.joins = f.joins
  sameRows : f.SameRows d

theorem Compiler.exists_distinctOf {c : Compiler} {e : Entity} {query : Option String} {f : Filter}
    (h : c.compile e query = .ok (some f)) :
    ∃ d, c.compileDistinct e query = .ok (some d) ∧ d.DistinctOf f := by
  obtain ⟨hplain, _⟩ := resolvedIn_of_compile h
  refine ⟨f.asDistinct, ?_, ?_, rfl, rfl, rfl, f.sameRows_asDistinct⟩
  · rw [compileDistinct, h]
    rfl
  · rw [hplain]
    rfl

/-! ## The theorem -/

/-- **A record is kept once for each matching row**, or once at all.  The plain filter of a
predicate and its distinct form run together and have the same rows.  Of a list of records
the plain one keeps each place as often as its record has matching rows, and the distinct
one keeps each place once that has any, both in order, so they keep the same places; and
what they keep of two lists one behind the other is what they keep of each.  Compiling for
the distinct form fails as compiling does, gives no filter where it gives none, and else
the distinct form of what it gives. -/
theorem kept_once_for_each_row :
    (∀ (p : Predicate), (Filter.ofPredicate p).SameRows (Filter.ofPredicate p).asDistinct ∧
      ∀ (engine : PatternEngine) ev once, engine.evaluator (.ofPredicate p) = .ok ev →
        engine.evaluator (Filter.ofPredicate p).asDistinct = .ok once →
        (∀ records, ∃ places firsts, Kept ev.matchingRows records (ev.apply records) places ∧
          Kept (fun record => if ev.isMatch record then 1 else 0) records (once.apply records) firsts ∧
          ∀ k, k ∈ places ↔ k ∈ firsts) ∧
        ∀ front back, ev.apply (front ++ back) = ev.apply front ++ ev.apply back ∧
          once.apply (front ++ back) = once.apply front ++ once.apply back) ∧
    ∀ (c : Compiler) (e : Entity) (query : Option String),
      (∀ error, c.compileDistinct e query = .error error ↔ c.compile e query = .error error) ∧
      (c.compileDistinct e query = .ok none ↔ c.compile e query = .ok none) ∧
      ∀ f, c.compile e query = .ok (some f) →
        ∃ d, c.compileDistinct e query = .ok (some d) ∧ d.DistinctOf f := by
  refine ⟨fun p => ⟨(Filter.ofPredicate p).sameRows_asDistinct, ?_⟩, fun c e query => ⟨?_, ?_, ?_⟩⟩
  · intro engine ev once hev honce
    have hrows := ((Filter.ofPredicate p).sameRows_asDistinct engine).2 ev once hev honce
    refine ⟨fun records => ?_, fun front back => ⟨ev.apply_append front back,
      once.apply_append front back⟩⟩
    have hplain : ev.filter.distinct = false :=
      congrArg Filter.distinct (PatternEngine.filter_of_evaluator hev)
    have hdistinct : once.filter.distinct = true :=
      congrArg Filter.distinct (PatternEngine.filter_of_evaluator honce)
    obtain ⟨places, hplaces⟩ := Evaluator.kept_apply_plain hplain records
    obtain ⟨firsts, hfirsts⟩ := Evaluator.kept_apply_distinct hdistinct records
    simp only [Evaluator.isMatch_iff_pos, ← hrows] at hfirsts ⊢
    refine ⟨places, firsts, hplaces, hfirsts, fun k => ?_⟩
    rw [hplaces.mem_iff, hfirsts.mem_iff]
    by_cases hpos : 0 < ev.matchingRows records[k]
    · simp only [hpos, if_true, Nat.zero_lt_one]
    · simp only [hpos, if_false, Nat.lt_irrefl]
  · intro error
    exact map_eq_error_iff
  · rw [Compiler.compileDistinct, map_eq_ok_iff]
    simp only [Option.map_eq_none_iff, exists_eq_right]
  · intro f h
    exact Compiler.exists_distinctOf h

/-- One with two dogs stands at two places, and one with none between them: two copies of each
of the two places are kept, or one. -/
theorem kept_once_for_each_row_dogs :
    ∃ owner f d ev once,
      owner = .object [("dogs", .array [.object [("age", .ofNat 3)], .object [("age", .ofNat 7)]])] ∧
      Compiler.standard.compile
        ⟨"Person", [("dogs", .link (.relation .toMany) "Dog" [("age", .basic .integer)])]⟩
        (some "dogs.age=isnull=false") = .ok (some f) ∧
      Compiler.standard.compileDistinct
        ⟨"Person", [("dogs", .link (.relation .toMany) "Dog" [("age", .basic .integer)])]⟩
        (some "dogs.age=isnull=false") = .ok (some d) ∧
      PatternEngine.lenient.evaluator f = .ok ev ∧
      PatternEngine.lenient.evaluator d = .ok once ∧
      ∃ places firsts,
        Kept ev.matchingRows [owner, .object [], owner] (ev.apply [owner, .object [], owner])
          places ∧ places.count 2 = 2 ∧
        Kept (fun record => if ev.isMatch record then 1 else 0) [owner, .object [], owner]
          (once.apply [owner, .object [], owner]) firsts ∧ firsts.count 2 = 1 := by
  obtain ⟨hkept, hcompiled⟩ := kept_once_for_each_row
  have hparse : Compiler.standard.parse "dogs.age=isnull=false" =
      .ok (.comparison ⟨"dogs.age", .isNull, ["false"]⟩) :=
    toOption_eq_some_iff.mp (by decide +kernel)
  have hplain : Compiler.standard.compile
      ⟨"Person", [("dogs", .link (.relation .toMany) "Dog" [("age", .basic .integer)])]⟩
      (some "dogs.age=isnull=false") = .ok (some (.ofPredicate
        (.test ⟨[⟨"dogs", some (.relation .toMany)⟩, ⟨"age", none⟩], .integer⟩ .isNotNull))) := by
    rw [Compiler.compile, if_neg (by decide), hparse]
    rfl
  obtain ⟨d, hd, hform⟩ := (hcompiled _ _ _).2.2 _ hplain
  obtain ⟨hkept, _⟩ := (hkept
    (.test ⟨[⟨"dogs", some (.relation .toMany)⟩, ⟨"age", none⟩], .integer⟩ .isNotNull)).2
      .lenient _ _ rfl rfl
  obtain ⟨places, firsts, hplaces, hfirsts, _⟩ := hkept
    [.object [("dogs", .array [.object [("age", .ofNat 3)], .object [("age", .ofNat 7)]])],
      .object [],
      .object [("dogs", .array [.object [("age", .ofNat 3)], .object [("age", .ofNat 7)]])]]
  obtain rfl : d = Filter.asDistinct (.ofPredicate (.test _ .isNotNull)) := by
    cases d
    cases hform.predicate
    cases hform.distinct
    rfl
  refine ⟨_, _, _, _, _, rfl, hplain, hd, rfl, rfl, places, firsts, hplaces, ?_, hfirsts, ?_⟩
  · rw [hplaces.count]
    decide +kernel
  · rw [hfirsts.count]
    decide +kernel

end RecordFilter
