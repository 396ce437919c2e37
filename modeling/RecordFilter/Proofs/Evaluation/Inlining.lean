/-
# `Proofs.Evaluation.Inlining` — a relation to one filters like an embedded value

A relation to one is read through a join, an embedded value within the value around
it.  The join binds what is there and not null, and nothing else can be read from
null; so names reach the same either way (`Inlined.reach_eq`), whatever the record
holds.  A query compiles to the same predicate over paths with other joins, and these
paths take elements at the same names, so the predicate is true on as many rows
(`matchingRows_inlined`).
-/
import RecordFilter.Proofs.Compiler.Filters
import RecordFilter.Proofs.Evaluation.Reach
import RecordFilter.Proofs.Path.Inlining

namespace RecordFilter

/-! ## Names -/

@[simp]
theorem Json.present?_present? (value : Option Json) :
    present? (present? value) = present? value := by
  cases value with
  | none => rfl
  | some value => cases value <;> rfl

/-- What a link is entered with stays, except that null may be kept where it was
dropped. -/
theorem Link.Inlined.present?_enter {link link' : Link} (h : link.Inlined link') (i : Nat)
    (found : Option Json) :
    Json.present? (link'.enter i found) = Json.present? (link.enter i found) := by
  cases h with
  | keep => rfl
  | turn => exact (Json.present?_present? found).symm

namespace Entity

theorem Inlined.reachFrom_eq (choice : Choice) {names : List String} :
    ∀ {e e' : Entity} {before : Alias} {value value' : Option Json}, e.Inlined e' →
      names ≠ [] → Json.present? value' = Json.present? value →
      e'.reachFrom choice before value' names = e.reachFrom choice before value names := by
  induction names with
  | nil => exact fun _ hne _ => absurd rfl hne
  | cons name names ih =>
      intro e e' before value value' h _ hvalue
      have hget : value'.bind (·.get? name) = value.bind (·.get? name) := by
        rw [← Json.bind_get?_present? value', hvalue, Json.bind_get?_present?]
      by_cases hne : names = []
      · subst hne
        exact hget
      · cases hname : e.attribute? name with
        | none =>
            rw [reachFrom, reachFrom, hname, h.attribute?_none hname] <;> exact hne
        | some a =>
            cases a with
            | basic type =>
                rw [reachFrom, reachFrom, hname, h.attribute?_basic hname] <;> exact hne
            | link link target attributes =>
                obtain ⟨link', attributes', hname', hlink, hinner⟩ := h.attribute?_link hname
                rw [reachFrom_link hname hne, reachFrom_link hname' hne, hget]
                exact ih hinner hne (hlink.present?_enter _ _)

/-- **Names reach the same in every record.** -/
theorem Inlined.reach_eq {e e' : Entity} (h : e.Inlined e') (choice : Choice) (record : Json)
    (names : Alias) : e'.reach choice record names = e.reach choice record names := by
  by_cases hne : names = []
  · subst hne
    rfl
  · exact h.reachFrom_eq choice hne rfl

end Entity

/-! ## Predicates -/

/-- The names at which paths take an element are those of their relations to many. -/
theorem Choice.taken_iff {paths : List ResolvedPath} {a : Alias} :
    Taken paths a ↔ ∃ p ∈ paths, a ∈ ResolvedPath.takenFrom [] p.segments := by
  refine exists_congr fun p => and_congr_right fun _ => ?_
  rw [← ResolvedPath.map_target_joinsFrom none [] [], List.mem_map]
  constructor
  · rintro ⟨j, hj, htarget, hmany⟩
    exact ⟨j, List.mem_filter.mpr ⟨hj, decide_eq_true hmany⟩, htarget⟩
  · rintro ⟨j, hj, htarget⟩
    obtain ⟨hj, hmany⟩ := List.mem_filter.mp hj
    exact ⟨j, hj, htarget, of_decide_eq_true hmany⟩

variable {e e' : Entity} {c : Compiler}

/-- **A predicate is true on as many rows** over the paths of the other entity. -/
theorem Predicate.trueRows_again {q : Predicate} (h : e.Inlined e') (hq : q.ResolvedIn e)
    (table : PatternTable) (record : Json) :
    (q.mapPaths e'.again).trueRows table record = q.trueRows table record := by
  refine trueRows_mapPaths hq ?_ ?_ (fun p hp => h.names_again (hq p hp))
    fun choice a _ => h.reach_eq choice record a
  · intro p' hp'
    rw [paths_mapPaths] at hp'
    obtain ⟨p, hp, rfl⟩ := List.mem_map.mp hp'
    exact h.resolves_again (hq p hp)
  · intro a
    rw [Choice.taken_iff, Choice.taken_iff]
    constructor
    · rintro ⟨p', hp', ha⟩
      obtain ⟨p, hp, rfl⟩ := List.mem_map.mp hp'
      exact ⟨p, hp, h.takenFrom_again (hq p hp) ▸ ha⟩
    · rintro ⟨p, hp, ha⟩
      exact ⟨_, List.mem_map_of_mem hp, (h.takenFrom_again (hq p hp)).symm ▸ ha⟩

theorem Entity.Inlined.rerouted (h : e.Inlined e') : e.Rerouted e' id e'.again where
  resolve selector := by
    rw [id, h.resolve_eq, toOption_map]
  type _ _ := rfl
  isCollection _ hpath := h.isCollection_again hpath

/-! ## Queries -/

theorem Filter.sameRows_again {q : Predicate} (h : e.Inlined e') (hq : q.ResolvedIn e) :
    SameRows (.ofPredicate q) (.ofPredicate (q.mapPaths e'.again)) := by
  intro engine
  have hruns : q.Runs engine ↔ (q.mapPaths e'.again).Runs engine := by
    simp [Predicate.runs_iff]
  refine ⟨hruns, fun ev ev' hev hev' record => ?_⟩
  obtain ⟨table, hcount', hcount⟩ := Evaluator.matchingRows_mapPaths hev' hev
  rw [hcount, hcount', Predicate.trueRows_again h hq]

theorem Compiler.compile_again (h : e.Inlined e') (query : Option String) :
    (c.compile e' query).toOption = (c.compile e query).toOption.map
      (Option.map fun f => .ofPredicate (f.predicate.mapPaths e'.again)) := by
  cases query with
  | none => rfl
  | some query =>
      rw [compile, compile]
      split
      · rfl
      · cases c.parse query with
        | error error => rfl
        | ok n =>
            have hcompile := compileNode_rerouted (c := c) h.rerouted n
            rw [Node.mapSelectors_id] at hcompile
            simp only [toOption_map, hcompile, Option.map_map]
            rfl

/-- **A relation to one filters like an embedded value.**  Let any number of the
relations to one of an entity be turned into embedded values, at any depth.  Every
query compiles as before, or fails as before; it is a filter as before or none; and
the two filters can be run both or neither and have the same number of matching rows
for every record, whatever it holds where the entity has a relation. -/
theorem matchingRows_inlined (c : Compiler) (e e' : Entity) (query : Option String)
    (h : e.Inlined e') :
    ((∃ f, c.compile e query = .ok f) ↔ ∃ f', c.compile e' query = .ok f') ∧
    ∀ f f', c.compile e query = .ok f → c.compile e' query = .ok f' →
      Option.Rel Filter.SameRows f f' := by
  have hcompile := Compiler.compile_again (c := c) h query
  constructor
  · simp only [← toOption_eq_some_iff, hcompile, Option.map_eq_some_iff]
    constructor
    · rintro ⟨f, hf⟩
      exact ⟨_, f, hf, rfl⟩
    · rintro ⟨_, f, hf, _⟩
      exact ⟨f, hf⟩
  · intro f f' hf hf'
    rw [toOption_eq_some_iff.mpr hf, toOption_eq_some_iff.mpr hf', Option.map_some,
      Option.some.injEq] at hcompile
    subst hcompile
    cases f with
    | none => exact .none
    | some f =>
        obtain ⟨hplain, hresolved⟩ := Compiler.resolvedIn_of_compile hf
        rw [hplain]
        exact .some (Filter.sameRows_again h hresolved)

/-- A relation to many inside one to one: its join starts from the other join in the
one entity and from the root in the other. -/
theorem matchingRows_inlined_department :
    Entity.Inlined
        ⟨"Employee", [("dept", .to (.relation .toOne)
          ⟨"Department", [("staff", .to (.relation .toMany)
            ⟨"Person", [("name", .basic .string)]⟩)]⟩)]⟩
        ⟨"Employee", [("dept", .to .embedded
          ⟨"Department", [("staff", .to (.relation .toMany)
            ⟨"Person", [("name", .basic .string)]⟩)]⟩)]⟩ ∧
      ∃ f f',
        Compiler.standard.compile
          ⟨"Employee", [("dept", .to (.relation .toOne)
            ⟨"Department", [("staff", .to (.relation .toMany)
              ⟨"Person", [("name", .basic .string)]⟩)]⟩)]⟩ (some "dept.staff.name==A*") =
            .ok (some f) ∧
        Compiler.standard.compile
          ⟨"Employee", [("dept", .to .embedded
            ⟨"Department", [("staff", .to (.relation .toMany)
              ⟨"Person", [("name", .basic .string)]⟩)]⟩)]⟩ (some "dept.staff.name==A*") =
            .ok (some f') ∧
        f.joins = [⟨["dept"], none, ["dept"], .toOne⟩,
          ⟨["dept", "staff"], some ["dept"], ["staff"], .toMany⟩] ∧
        f'.joins = [⟨["dept", "staff"], none, ["dept", "staff"], .toMany⟩] ∧
        Filter.SameRows f f' := by
  have hinlined : Entity.Inlined
      ⟨"Employee", [("dept", .to (.relation .toOne)
        ⟨"Department", [("staff", .to (.relation .toMany)
          ⟨"Person", [("name", .basic .string)]⟩)]⟩)]⟩
      ⟨"Employee", [("dept", .to .embedded
        ⟨"Department", [("staff", .to (.relation .toMany)
          ⟨"Person", [("name", .basic .string)]⟩)]⟩)]⟩ := by
    refine ⟨rfl, .cons (.link .turn (.cons (.link (.keep _) ?_) .nil)) .nil⟩
    exact .cons (.basic .string) .nil
  have hparse : Compiler.standard.parse "dept.staff.name==A*" =
      .ok (.comparison ⟨"dept.staff.name", .equal, ["A*"]⟩) :=
    toOption_eq_some_iff.mp (by decide +kernel)
  have hcompile : ∀ e : Entity,
      Compiler.standard.compile e (some "dept.staff.name==A*") =
        (Compiler.standard.compileNode e
          (.comparison ⟨"dept.staff.name", .equal, ["A*"]⟩)).map
            fun p => some (.ofPredicate p) := by
    intro e
    rw [Compiler.compile, if_neg (by decide), hparse]
  refine ⟨hinlined, _, _, hcompile _, hcompile _, rfl, rfl, ?_⟩
  have hsame := (matchingRows_inlined .standard _ _ (some "dept.staff.name==A*") hinlined).2 _ _
    (hcompile _) (hcompile _)
  cases hsame with
  | some hrows => exact hrows

end RecordFilter
