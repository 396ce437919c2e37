/-
# `Proofs.Evaluation.Sight` — a filter sees only what it names

A record is read in two places: a join without a parent starts from it, and so does a path
without joins.  Both begin with the first name of a path of the predicate
(`ResolvedPath.attributes_begin`, `ResolvedPath.accessor_eq_names`); all other reading goes
on from what a row binds, and rows are made of such readings only.  So two records that hold
the same under the first names of all paths have the same rows, as lists, and each path reads
the same on each of them:

    records alike at the roots  →  the same rows, the same values, the same truth

What else a record holds is not seen.  It may be a relation to any number of elements: no
row is made for them.
-/
import RecordFilter.Proofs.Evaluation.Rows
import RecordFilter.Proofs.Evaluation.Truth
import RecordFilter.Proofs.Path.Labels

namespace RecordFilter

/-! ## First names -/

/-- The attribute of a record that a path begins with. -/
def ResolvedPath.root? (p : ResolvedPath) : Option String :=
  p.names.head?

/-- The attributes of a record that the paths of a predicate begin with. -/
def Predicate.roots (p : Predicate) : List String :=
  p.paths.filterMap (·.root?)

namespace ResolvedPath

variable {p : ResolvedPath} {j : Join}

theorem joinsFrom_begin {before pending : List String} {segments : List Segment}
    (h : j ∈ joinsFrom none before pending segments) (hroot : j.parent = none) :
    j.attributes <+: pending ++ segments.map (·.name) := by
  induction segments generalizing before pending with
  | nil => cases h
  | cons segment segments ih =>
      have hcons : pending ++ (segment :: segments).map (·.name) =
          pending ++ [segment.name] ++ segments.map (·.name) := by
        rw [List.map_cons, List.append_cons]
      by_cases hne : segments = []
      · subst hne
        cases h
      · rw [hcons]
        by_cases hlink : ∃ cardinality, segment.link = some (.relation cardinality)
        · obtain ⟨cardinality, hlink⟩ := hlink
          rw [joinsFrom_relation hlink hne] at h
          rcases List.mem_cons.mp h with rfl | h
          · exact List.prefix_append _ _
          · -- the joins behind a relation start from it, or from each other
            rcases joinsFrom_parent h with hparent | ⟨_, _, hparent, _⟩
            · rw [hroot] at hparent
              cases hparent
            · rw [hroot] at hparent
              cases hparent
        · rw [joinsFrom_inside (not_exists.mp hlink) hne] at h
          exact ih h

/-- **A join from the root reads the path from its beginning on.** -/
theorem attributes_begin (h : j ∈ p.joins) (hroot : j.parent = none) : j.attributes <+: p.names :=
  joinsFrom_begin h hroot

theorem accessor_eq_names (h : p.source = none) : p.accessor = p.names := by
  have hjoins : p.joins = [] := List.getLast?_eq_none_iff.mp (Option.map_eq_none_iff.mp h)
  rw [← flatMap_attributes_append_accessor, hjoins]
  rfl

end ResolvedPath

/-! ## Records that are alike -/

/-- Two records hold the same under each of the names, or both nothing. -/
def Json.SameAt (names : List String) (record record' : Json) : Prop :=
  ∀ name ∈ names, record.get? name = record'.get? name

namespace Json.SameAt

variable {record record' : Json} {name : String} {names roots : List String}

theorem descend (h : SameAt roots record record') (hname : names.head? = some name)
    (hroot : name ∈ roots) : record.descend names = record'.descend names := by
  obtain ⟨names, rfl⟩ := List.head?_eq_some_iff.mp hname
  rw [Json.descend, Json.descend, h name hroot]

theorem field (hname : name ∉ roots) (front back : List (String × Json)) (value : Json) :
    SameAt roots (.object (front ++ (name, value) :: back)) (.object (front ++ back)) := by
  intro root hroot
  have hne : (root == name) = false := beq_false_of_ne fun heq => hname (heq ▸ hroot)
  rw [get?, get?, List.lookup_append, List.lookup_append, List.lookup_cons, hne]

end Json.SameAt

/-! ## The same rows -/

theorem Row.expand_congr {record record' : Json} {joins : List Join}
    (h : ∀ j ∈ joins, ∀ row, j.bindings record row = j.bindings record' row) (rows : List Row) :
    expand record joins rows = expand record' joins rows := by
  induction joins generalizing rows with
  | nil => rfl
  | cons j joins ih =>
      obtain ⟨hj, hjoins⟩ := List.forall_mem_cons.mp h
      simp only [expand, hj, ih hjoins]

namespace Predicate

variable {e : Entity} {p : Predicate} {record record' : Json}

theorem exists_root (hp : p.ResolvedIn e) {path : ResolvedPath} (hpath : path ∈ p.paths) :
    ∃ root ∈ p.roots, path.names.head? = some root := by
  obtain ⟨root, names, hnames⟩ := List.exists_cons_of_ne_nil
    (mt List.map_eq_nil_iff.mp (hp path hpath).segments_ne_nil)
  have hroot : path.names.head? = some root := by
    rw [ResolvedPath.names, hnames, List.head?_cons]
  exact ⟨root, List.mem_filterMap.mpr ⟨path, hpath, hroot⟩, hroot⟩

/-- A join of the plan offers the same for both records: it starts from what the row binds,
or with a root. -/
theorem bindings_sameAt (hp : p.ResolvedIn e) (h : record.SameAt p.roots record') :
    ∀ j ∈ p.joins, ∀ row, j.bindings record row = j.bindings record' row := by
  intro j hj row
  have hrelated : j.related record row = j.related record' row := by
    rw [Join.related, Join.related]
    cases hparent : j.parent with
    | some a => rfl
    | none =>
        obtain ⟨path, hpath, hjpath⟩ := Join.mem_of_mem_plan hj
        obtain ⟨root, hroot, hhead⟩ := exists_root hp hpath
        obtain ⟨rest, hrest⟩ := ResolvedPath.attributes_begin hjpath hparent
        have hattributes : j.attributes.head? = some root := by
          obtain ⟨first, others, hfirst⟩ :=
            List.exists_cons_of_ne_nil (ResolvedPath.joins_ne_nil hjpath).2
          rw [← hhead, ← hrest, hfirst]
          rfl
        rw [Option.bind_some, Option.bind_some, h.descend hattributes hroot]
  rw [Join.bindings, Join.bindings, hrelated]

/-- **Both records have the same rows.** -/
theorem ofRecord_sameAt (hp : p.ResolvedIn e) (h : record.SameAt p.roots record') :
    Row.ofRecord record p.joins = Row.ofRecord record' p.joins :=
  Row.expand_congr (bindings_sameAt hp h) [[]]

/-- **Each path reads the same of both on each row.** -/
theorem read_sameAt (hp : p.ResolvedIn e) (h : record.SameAt p.roots record') (row : Row) :
    ∀ path ∈ p.paths, path.read record row = path.read record' row := by
  intro path hpath
  rw [ResolvedPath.read, ResolvedPath.read]
  cases hsource : path.source with
  | some a => rfl
  | none =>
      obtain ⟨root, hroot, hhead⟩ := exists_root hp hpath
      rw [← ResolvedPath.accessor_eq_names hsource] at hhead
      rw [Option.bind_some, Option.bind_some, h.descend hhead hroot]

end Predicate

/-! ## The theorem -/

/-- **A filter sees only what it names.**  Where the paths of a predicate are resolved on one
entity, two records that hold the same under the first name of each path, or both nothing,
have equally many matching rows, whatever else they hold.  So a field under any other name
may be put in front of others, between them or behind them, or be left out; its elements
never multiply the rows of a match. -/
theorem filter_sees_roots (engine : PatternEngine) (e : Entity) (f : Filter) (ev : Evaluator)
    (hpaths : f.predicate.ResolvedIn e) (hev : engine.evaluator f = .ok ev) :
    (∀ record record', record.SameAt f.predicate.roots record' →
      ev.matchingRows record = ev.matchingRows record') ∧
    ∀ (name : String) (value : Json) (front back : List (String × Json)),
      name ∉ f.predicate.roots →
      ev.matchingRows (.object (front ++ (name, value) :: back)) =
        ev.matchingRows (.object (front ++ back)) := by
  obtain ⟨table, _, rfl⟩ := PatternEngine.evaluator_eq_ok_iff.mp hev
  have hsame : ∀ record record', record.SameAt f.predicate.roots record' →
      Evaluator.matchingRows ⟨f, f.joins, table⟩ record =
        Evaluator.matchingRows ⟨f, f.joins, table⟩ record' := by
    intro record record' h
    have heval : ∀ row, f.predicate.eval table record row = f.predicate.eval table record' row :=
      fun row => Predicate.eval_congr (fun _ _ => rfl) (Predicate.read_sameAt hpaths h row)
    have hrows : Row.ofRecord record f.joins = Row.ofRecord record' f.joins :=
      Predicate.ofRecord_sameAt hpaths h
    simp only [Evaluator.matchingRows, hrows, heval]
  refine ⟨hsame, fun name value front back hname => hsame _ _ ?_⟩
  exact .field hname front back value

/-- Two dogs of an age make two rows, and so they do where there are cats: no path names
these. -/
theorem filter_sees_roots_cats :
    ∃ ev, PatternEngine.lenient.evaluator (.ofPredicate
        (.test ⟨[⟨"dogs", some (.relation .toMany)⟩, ⟨"age", none⟩], .integer⟩ .isNotNull)) =
          .ok ev ∧
      "cats" ∉ ev.filter.predicate.roots ∧
      ev.matchingRows (.object ([("name", .string "Ann")] ++
        ("cats", .array [.object [], .object [], .object []]) ::
          [("dogs", .array [.object [("age", .ofNat 3)], .object [("age", .ofNat 7)]])])) = 2 := by
  refine ⟨_, rfl, by decide +kernel, ?_⟩
  have hpaths : Predicate.ResolvedIn
      ⟨"Person", [("name", .basic .string),
        ("dogs", .link (.relation .toMany) "Dog" [("age", .basic .integer)]),
        ("cats", .link (.relation .toMany) "Cat" [])]⟩
      (.test ⟨[⟨"dogs", some (.relation .toMany)⟩, ⟨"age", none⟩], .integer⟩ .isNotNull) :=
    List.forall_mem_singleton.mpr ⟨"dogs.age", rfl⟩
  obtain ⟨_, hfield⟩ := filter_sees_roots .lenient _ (.ofPredicate _) _ hpaths rfl
  rw [hfield "cats" _ _ _ (by decide +kernel)]
  decide +kernel

end RecordFilter
