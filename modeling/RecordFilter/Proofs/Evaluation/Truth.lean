/-
# `Proofs.Evaluation.Truth` — what the truth of a predicate depends on

The truth of a predicate on a row depends on what its paths read there and on
what the table holds for its patterns, and on nothing else (`Predicate.eval_congr`).
A prepared table holds for each pattern what the pattern alone decides
(`PatternTable.Serves`), so an evaluator that was made for more says the same
about a part; and a table can be prepared as soon as each pattern can be
(`PatternTable.prepare_ok_iff`).

`Predicate.Runs` and `Predicate.Matches` speak of the plain filter of a predicate;
`Predicate.matches_iff` takes such a filter back to the rows of its plan.
-/
import RecordFilter.Evaluation

namespace RecordFilter

/-! ## Paths and patterns of several predicates -/

namespace Predicate

theorem mem_pathsList {ps : List Predicate} {path : ResolvedPath} :
    path ∈ pathsList ps ↔ ∃ p ∈ ps, path ∈ p.paths := by
  induction ps with
  | nil => exact ⟨(nomatch ·), fun ⟨_, h, _⟩ => nomatch h⟩
  | cons p ps ih => simp only [pathsList, List.mem_append, ih, List.mem_cons, exists_eq_or_imp]

theorem mem_patternsList {ps : List Predicate} {pattern : String} :
    pattern ∈ patternsList ps ↔ ∃ p ∈ ps, pattern ∈ p.patterns := by
  induction ps with
  | nil => exact ⟨(nomatch ·), fun ⟨_, h, _⟩ => nomatch h⟩
  | cons p ps ih => simp only [patternsList, List.mem_append, ih, List.mem_cons, exists_eq_or_imp]

end Predicate

/-! ## Pattern tables -/

namespace PatternEngine

/-- An engine that takes every pattern. -/
def lenient : PatternEngine :=
  ⟨fun _ => none⟩

/-- The engine takes the pattern of a text. -/
def Accepts (engine : PatternEngine) (text : String) : Prop :=
  engine.refusal? (.ofText text) = none

variable {engine : PatternEngine} {text : String} {prepared : LikePattern}

theorem prepare_eq_ok_iff :
    engine.prepare text = .ok prepared ↔ engine.Accepts text ∧ prepared = .ofText text := by
  rw [prepare, Accepts]
  cases engine.refusal? (.ofText text) with
  | none =>
      constructor
      · intro h
        cases h
        exact ⟨rfl, rfl⟩
      · rintro ⟨_, rfl⟩
        rfl
  | some reason =>
      constructor
      · intro h
        cases h
      · rintro ⟨h, _⟩
        cases h

theorem Accepts.prepare (h : engine.Accepts text) : engine.prepare text = .ok (.ofText text) :=
  prepare_eq_ok_iff.mpr ⟨h, rfl⟩

@[simp]
theorem lenient_accepts (text : String) : lenient.Accepts text := by
  rw [Accepts, lenient]

end PatternEngine

namespace PatternTable

variable {engine : PatternEngine}

/-- What a table holds is what the engine prepares its pattern to. -/
def Faithful (engine : PatternEngine) (table : PatternTable) : Prop :=
  ∀ pattern prepared, table.lookup pattern = some prepared → engine.prepare pattern = .ok prepared

/-- The table is right about these patterns. -/
def Serves (table : PatternTable) (patterns : List String) : Prop :=
  ∀ pattern ∈ patterns, table.lookup pattern = some (.ofText pattern)

theorem Faithful.cons {table : PatternTable} {pattern : String} {prepared : LikePattern}
    (h : table.Faithful engine) (hprepared : engine.prepare pattern = .ok prepared) :
    Faithful engine ((pattern, prepared) :: table) := by
  intro other found hfound
  rw [List.lookup_cons] at hfound
  split at hfound
  · rename_i heq
    cases hfound
    rw [eq_of_beq heq, hprepared]
  · exact h other found hfound

/-- Preparing keeps what is there, and goes wrong only over a pattern that is
refused. -/
theorem prepare_ok {patterns : List String} :
    ∀ {table : PatternTable}, (∀ pattern ∈ patterns, engine.Accepts pattern) →
      ∃ table', table.prepare engine patterns = .ok table' := by
  induction patterns with
  | nil => exact fun {table} _ => ⟨table, rfl⟩
  | cons pattern patterns ih =>
      intro table hall
      obtain ⟨hfirst, hrest⟩ := List.forall_mem_cons.mp hall
      rw [prepare]
      split
      · exact ih hrest
      · rw [hfirst.prepare]
        exact ih hrest

theorem of_prepare_ok {patterns : List String} :
    ∀ {table table' : PatternTable}, table.Faithful engine →
      table.prepare engine patterns = .ok table' → table'.Faithful engine ∧
        ∀ pattern, (table.lookup pattern).isSome ∨ pattern ∈ patterns →
          (table'.lookup pattern).isSome := by
  induction patterns with
  | nil =>
      intro table table' htable h
      cases h
      exact ⟨htable, fun pattern hpattern => hpattern.resolve_right List.not_mem_nil⟩
  | cons pattern patterns ih =>
      intro table table' htable h
      rw [prepare] at h
      split at h
      · rename_i hthere
        obtain ⟨hfaithful, hall⟩ := ih htable h
        refine ⟨hfaithful, fun other hother => hall other ?_⟩
        rcases hother with hother | hother
        · exact .inl hother
        · rcases List.mem_cons.mp hother with rfl | hother
          · exact .inl hthere
          · exact .inr hother
      · split at h
        · rename_i prepared hprepared
          obtain ⟨hfaithful, hall⟩ := ih (htable.cons hprepared) h
          refine ⟨hfaithful, fun other hother => hall other ?_⟩
          rw [List.lookup_cons]
          split
          · exact .inl rfl
          · rename_i hne
            refine hother.imp_right fun hother => (List.mem_cons.mp hother).resolve_left ?_
            rintro rfl
            rw [beq_self_eq_true] at hne
            cases hne
        · cases h

theorem accepts_and_serves {patterns : List String} {table : PatternTable}
    (h : prepare engine [] patterns = .ok table) :
    ∀ pattern ∈ patterns,
      engine.Accepts pattern ∧ table.lookup pattern = some (.ofText pattern) := by
  have hempty : Faithful engine [] := fun _ _ h => nomatch h
  obtain ⟨hfaithful, hall⟩ := of_prepare_ok hempty h
  intro pattern hpattern
  obtain ⟨prepared, hprepared⟩ := Option.isSome_iff_exists.mp (hall pattern (.inr hpattern))
  obtain ⟨haccepts, rfl⟩ :=
    PatternEngine.prepare_eq_ok_iff.mp (hfaithful pattern prepared hprepared)
  exact ⟨haccepts, hprepared⟩

theorem serves_of_prepare {patterns : List String} {table : PatternTable}
    (h : prepare engine [] patterns = .ok table) : table.Serves patterns :=
  fun pattern hpattern => (accepts_and_serves h pattern hpattern).2

/-- **A table can be prepared if and only if the engine takes each pattern.** -/
theorem prepare_ok_iff {patterns : List String} :
    (∃ table, prepare engine [] patterns = .ok table) ↔
      ∀ pattern ∈ patterns, engine.Accepts pattern := by
  constructor
  · rintro ⟨table, h⟩ pattern hpattern
    exact (accepts_and_serves h pattern hpattern).1
  · exact prepare_ok

end PatternTable

/-! ## Predicates with other paths -/

theorem Condition.eval_congr {table table' : PatternTable} {path : ResolvedPath}
    (condition : Condition) (stored : Option Json)
    (h : ∀ pattern ∈ (Predicate.test path condition).patterns,
      table.lookup pattern = table'.lookup pattern) :
    condition.eval table stored = condition.eval table' stored := by
  cases condition with
  | like pattern negated =>
      have hlike := h pattern List.mem_cons_self
      simp only [Condition.eval, PatternTable.like, hlike]
  | joinedLike pattern =>
      have hlike := h pattern List.mem_cons_self
      simp only [Condition.eval, PatternTable.like, hlike]
  | _ => rfl

namespace Predicate

mutual

/-- The predicate with each path replaced. -/
def mapPaths (f : ResolvedPath → ResolvedPath) : Predicate → Predicate
  | all operands => .all (mapPathsList f operands)
  | any operands => .any (mapPathsList f operands)
  | not operand => .not (operand.mapPaths f)
  | test path condition => .test (f path) condition

def mapPathsList (f : ResolvedPath → ResolvedPath) : List Predicate → List Predicate
  | [] => []
  | operand :: operands => operand.mapPaths f :: mapPathsList f operands

end

mutual

@[simp]
theorem mapPaths_id : ∀ p : Predicate, p.mapPaths id = p
  | .all ps => by rw [mapPaths, mapPathsList_id ps]
  | .any ps => by rw [mapPaths, mapPathsList_id ps]
  | .not p => by rw [mapPaths, mapPaths_id p]
  | .test _ _ => rfl

theorem mapPathsList_id : ∀ ps : List Predicate, mapPathsList id ps = ps
  | [] => rfl
  | p :: ps => by rw [mapPathsList, mapPaths_id p, mapPathsList_id ps]

end

variable (f : ResolvedPath → ResolvedPath)

mutual

@[simp]
theorem paths_mapPaths : ∀ p : Predicate, (p.mapPaths f).paths = p.paths.map f
  | .all ps => pathsList_mapPathsList ps
  | .any ps => pathsList_mapPathsList ps
  | .not p => paths_mapPaths p
  | .test _ _ => rfl

theorem pathsList_mapPathsList :
    ∀ ps : List Predicate, pathsList (mapPathsList f ps) = (pathsList ps).map f
  | [] => rfl
  | p :: ps => by
      rw [mapPathsList, pathsList, pathsList, List.map_append, paths_mapPaths p,
        pathsList_mapPathsList ps]

end

mutual

@[simp]
theorem patterns_mapPaths : ∀ p : Predicate, (p.mapPaths f).patterns = p.patterns
  | .all ps => patternsList_mapPathsList ps
  | .any ps => patternsList_mapPathsList ps
  | .not p => patterns_mapPaths p
  | .test path condition => by cases condition <;> rfl

theorem patternsList_mapPathsList :
    ∀ ps : List Predicate, patternsList (mapPathsList f ps) = patternsList ps
  | [] => rfl
  | p :: ps => by
      rw [mapPathsList, patternsList, patternsList, patterns_mapPaths p,
        patternsList_mapPathsList ps]

end

variable {table table' : PatternTable} {record record' : Json} {row row' : Row}

mutual

theorem eval_mapPaths : ∀ p : Predicate,
    (∀ pattern ∈ p.patterns, table.lookup pattern = table'.lookup pattern) →
    (∀ path ∈ p.paths, (f path).read record row = path.read record' row') →
    (p.mapPaths f).eval table record row = p.eval table' record' row'
  | .all ps, hpatterns, hreads => evalAll_mapPaths ps hpatterns hreads
  | .any ps, hpatterns, hreads => evalAny_mapPaths ps hpatterns hreads
  | .not p, hpatterns, hreads => by
      rw [mapPaths, eval, eval, eval_mapPaths p hpatterns hreads]
  | .test path condition, hpatterns, hreads => by
      rw [mapPaths, eval, eval, hreads path List.mem_cons_self]
      exact condition.eval_congr _ hpatterns

theorem evalAll_mapPaths : ∀ ps : List Predicate,
    (∀ pattern ∈ patternsList ps, table.lookup pattern = table'.lookup pattern) →
    (∀ path ∈ pathsList ps, (f path).read record row = path.read record' row') →
    evalAll table record row (mapPathsList f ps) = evalAll table' record' row' ps
  | [], _, _ => rfl
  | p :: ps, hpatterns, hreads => by
      rw [mapPathsList, evalAll, evalAll,
        eval_mapPaths p (fun q hq => hpatterns q (List.mem_append_left _ hq))
          fun path hpath => hreads path (List.mem_append_left _ hpath),
        evalAll_mapPaths ps (fun q hq => hpatterns q (List.mem_append_right _ hq))
          fun path hpath => hreads path (List.mem_append_right _ hpath)]

theorem evalAny_mapPaths : ∀ ps : List Predicate,
    (∀ pattern ∈ patternsList ps, table.lookup pattern = table'.lookup pattern) →
    (∀ path ∈ pathsList ps, (f path).read record row = path.read record' row') →
    evalAny table record row (mapPathsList f ps) = evalAny table' record' row' ps
  | [], _, _ => rfl
  | p :: ps, hpatterns, hreads => by
      rw [mapPathsList, evalAny, evalAny,
        eval_mapPaths p (fun q hq => hpatterns q (List.mem_append_left _ hq))
          fun path hpath => hreads path (List.mem_append_left _ hpath),
        evalAny_mapPaths ps (fun q hq => hpatterns q (List.mem_append_right _ hq))
          fun path hpath => hreads path (List.mem_append_right _ hpath)]

end

/-- **The truth of a predicate depends on what its paths read**, if the tables hold
the same for its patterns. -/
theorem eval_congr {p : Predicate}
    (hpatterns : ∀ pattern ∈ p.patterns, table.lookup pattern = table'.lookup pattern)
    (hreads : ∀ path ∈ p.paths, path.read record row = path.read record' row') :
    p.eval table record row = p.eval table' record' row' := by
  rw [← eval_mapPaths id p hpatterns hreads, mapPaths_id]

/-! ## True connectives -/

theorem evalAny_eq_true_iff {ps : List Predicate} :
    evalAny table record row ps = some true ↔
      ∃ p ∈ ps, p.eval table record row = some true := by
  induction ps with
  | nil => exact ⟨(nomatch ·), fun ⟨_, h, _⟩ => nomatch h⟩
  | cons p ps ih =>
      simp only [List.mem_cons, exists_eq_or_imp, ← ih]
      rw [evalAny]
      split
      · rename_i hp
        exact ⟨fun _ => .inl hp, fun _ => rfl⟩
      · rename_i hp
        exact ⟨.inr, fun h => h.resolve_left fun h => by rw [hp] at h; cases h⟩
      · rename_i hp
        constructor
        · intro h
          split at h
          · rename_i hps
            exact .inr hps
          · cases h
        · intro h
          rw [h.resolve_left fun h => by rw [hp] at h; cases h]

theorem evalAll_eq_true_iff {ps : List Predicate} :
    evalAll table record row ps = some true ↔
      ∀ p ∈ ps, p.eval table record row = some true := by
  induction ps with
  | nil => exact ⟨fun _ _ h => (nomatch h), fun _ => rfl⟩
  | cons p ps ih =>
      rw [List.forall_mem_cons, ← ih, evalAll]
      split
      · rename_i hp
        refine ⟨fun h => ?_, fun h => ?_⟩
        · cases h
        · rw [hp] at h
          cases h.1
      · rename_i hp
        exact ⟨fun h => ⟨hp, h⟩, fun h => h.2⟩
      · rename_i hp
        refine ⟨fun h => ?_, fun h => ?_⟩
        · split at h <;> cases h
        · rw [hp] at h
          cases h.1

end Predicate

namespace PatternEngine

variable {engine : PatternEngine} {f : Filter} {ev : Evaluator}

theorem evaluator_eq_ok_iff :
    engine.evaluator f = .ok ev ↔
      ∃ table, PatternTable.prepare engine [] f.predicate.patterns = .ok table ∧
        ev = ⟨f, f.joins, table⟩ := by
  rw [evaluator]
  cases PatternTable.prepare engine [] f.predicate.patterns with
  | ok table =>
      constructor
      · intro h
        cases h
        exact ⟨table, rfl, rfl⟩
      · rintro ⟨_, h, rfl⟩
        cases h
        rfl
  | error e =>
      constructor
      · intro h
        cases h
      · rintro ⟨_, h, _⟩
        cases h

theorem filter_of_evaluator (h : engine.evaluator f = .ok ev) : ev.filter = f := by
  obtain ⟨_, _, rfl⟩ := evaluator_eq_ok_iff.mp h
  rfl

theorem exists_evaluator_iff :
    (∃ ev, engine.evaluator f = .ok ev) ↔
      ∀ pattern ∈ f.predicate.patterns, engine.Accepts pattern := by
  rw [← PatternTable.prepare_ok_iff]
  constructor
  · rintro ⟨ev, h⟩
    obtain ⟨table, htable, _⟩ := evaluator_eq_ok_iff.mp h
    exact ⟨table, htable⟩
  · rintro ⟨table, htable⟩
    exact ⟨_, evaluator_eq_ok_iff.mpr ⟨table, htable, rfl⟩⟩

end PatternEngine

/-! ## Plain filters -/

namespace Predicate

variable {engine : PatternEngine} {table table' : PatternTable} {record record' : Json}
  {row row' : Row}

/-- The plain filter of a predicate can be run. -/
def Runs (engine : PatternEngine) (p : Predicate) : Prop :=
  ∃ ev, engine.evaluator (.ofPredicate p) = .ok ev

/-- The plain filter of a predicate can be run, and lets a record through. -/
def Matches (engine : PatternEngine) (p : Predicate) (record : Json) : Prop :=
  ∃ ev, engine.evaluator (.ofPredicate p) = .ok ev ∧ ev.isMatch record = true

theorem Matches.runs {p : Predicate} (h : p.Matches engine record) : p.Runs engine := by
  obtain ⟨ev, hev, _⟩ := h
  exact ⟨ev, hev⟩

theorem evaluator_eq_ok_iff {p : Predicate} {ev : Evaluator} :
    engine.evaluator (.ofPredicate p) = .ok ev ↔
      ∃ table, PatternTable.prepare engine [] p.patterns = .ok table ∧
        ev = ⟨.ofPredicate p, p.joins, table⟩ :=
  PatternEngine.evaluator_eq_ok_iff

theorem isMatch_iff {ev : Evaluator} :
    ev.isMatch record = true ↔ ∃ row ∈ Row.ofRecord record ev.joins,
      ev.filter.predicate.eval ev.table record row = some true := by
  simp only [Evaluator.isMatch, Evaluator.matchingRows, decide_eq_true_eq, List.countP_pos_iff,
    beq_iff_eq]

/-- A predicate runs as soon as its patterns are accepted one by one. -/
theorem runs_iff {p : Predicate} :
    p.Runs engine ↔ ∀ pattern ∈ p.patterns, engine.Accepts pattern :=
  PatternEngine.exists_evaluator_iff

theorem runs_of_patterns_nil (engine : PatternEngine) {p : Predicate} (h : p.patterns = []) :
    p.Runs engine := by
  rw [runs_iff, h]
  exact nofun

theorem runs_iff_of_pattern {p : Predicate} {pattern : String} (h : p.patterns = [pattern]) :
    p.Runs engine ↔ engine.Accepts pattern := by
  rw [runs_iff, h, List.forall_mem_singleton]

theorem evaluator_of_not_runs {p : Predicate} (h : ¬ p.Runs engine) :
    (engine.evaluator (.ofPredicate p)).toOption = none := by
  cases hev : engine.evaluator (.ofPredicate p) with
  | error _ => rfl
  | ok ev => exact absurd ⟨ev, hev⟩ h

/-- A match is a row of the plan on which the predicate is true; any table will
do that is right about the patterns. -/
theorem matches_iff {p : Predicate} (hruns : p.Runs engine) (htable : table.Serves p.patterns) :
    p.Matches engine record ↔
      ∃ row ∈ Row.ofRecord record p.joins, p.eval table record row = some true := by
  obtain ⟨ev, hev⟩ := hruns
  obtain ⟨own, hown, rfl⟩ := evaluator_eq_ok_iff.mp hev
  have heval : ∀ row, p.eval own record row = p.eval table record row := by
    intro row
    refine eval_congr (fun pattern hpattern => ?_) fun _ _ => rfl
    rw [PatternTable.serves_of_prepare hown pattern hpattern, htable pattern hpattern]
  constructor
  · rintro ⟨ev, hev', hmatch⟩
    rw [hev] at hev'
    cases hev'
    obtain ⟨row, hrow, htrue⟩ := isMatch_iff.mp hmatch
    exact ⟨row, hrow, heval row ▸ htrue⟩
  · rintro ⟨row, hrow, htrue⟩
    exact ⟨_, hev, isMatch_iff.mpr ⟨row, hrow, (heval row).trans htrue⟩⟩

/-! ## Counting -/

/-- On how many rows of its plan a predicate is true. -/
def trueRows (table : PatternTable) (p : Predicate) (record : Json) : Nat :=
  (Row.ofRecord record p.joins).countP fun row => p.eval table record row == some true

end Predicate

theorem Evaluator.matchingRows_eq {engine : PatternEngine} {p : Predicate} {ev : Evaluator}
    (h : engine.evaluator (.ofPredicate p) = .ok ev) :
    ∃ table, PatternTable.prepare engine [] p.patterns = .ok table ∧
      ∀ record, ev.matchingRows record = p.trueRows table record := by
  obtain ⟨table, htable, rfl⟩ := Predicate.evaluator_eq_ok_iff.mp h
  exact ⟨table, htable, fun _ => rfl⟩

/-- With other paths the patterns are the same, and so are the tables. -/
theorem Evaluator.matchingRows_mapPaths {engine : PatternEngine} {q : Predicate}
    {f : ResolvedPath → ResolvedPath} {evp evq : Evaluator}
    (hevp : engine.evaluator (.ofPredicate (q.mapPaths f)) = .ok evp)
    (hevq : engine.evaluator (.ofPredicate q) = .ok evq) :
    ∃ table, (∀ record, evp.matchingRows record = (q.mapPaths f).trueRows table record) ∧
      ∀ record, evq.matchingRows record = q.trueRows table record := by
  obtain ⟨table, htable, hcount⟩ := matchingRows_eq hevp
  obtain ⟨table', htable', hcount'⟩ := matchingRows_eq hevq
  obtain rfl : table = table' := by
    rw [Predicate.patterns_mapPaths, htable'] at htable
    exact (Except.ok.inj htable).symm
  exact ⟨table, hcount, hcount'⟩

/-! ## Filters with the same rows -/

/-- With any engine, both filters can be run or neither, and a record has as many matching
rows for the one as for the other. -/
def Filter.SameRows (f f' : Filter) : Prop :=
  ∀ engine : PatternEngine,
    ((∃ ev, engine.evaluator f = .ok ev) ↔ ∃ ev', engine.evaluator f' = .ok ev') ∧
    ∀ ev ev', engine.evaluator f = .ok ev → engine.evaluator f' = .ok ev' →
      ∀ record, ev.matchingRows record = ev'.matchingRows record

/-- **Predicates with the same truth have the same rows**, if they have the same patterns
and make the same joins. -/
theorem Filter.sameRows_of_eval_eq {p q : Predicate}
    (hpatterns : ∀ pattern, pattern ∈ p.patterns ↔ pattern ∈ q.patterns)
    (hjoins : p.joins = q.joins)
    (heval : ∀ table record row, p.eval table record row = q.eval table record row) :
    SameRows (.ofPredicate p) (.ofPredicate q) := by
  intro engine
  have hruns : p.Runs engine ↔ q.Runs engine := by
    simp only [Predicate.runs_iff, hpatterns]
  refine ⟨hruns, ?_⟩
  intro ev ev' hev hev' record
  obtain ⟨table, htable, hcount⟩ := Evaluator.matchingRows_eq hev
  obtain ⟨table', htable', hcount'⟩ := Evaluator.matchingRows_eq hev'
  have hsame : ∀ row, p.eval table record row = q.eval table' record row := by
    intro row
    rw [heval]
    -- both tables are right about the patterns, whatever order they were prepared in
    refine Predicate.eval_congr (fun pattern hpattern => ?_) fun _ _ => rfl
    rw [PatternTable.serves_of_prepare htable' pattern hpattern,
      PatternTable.serves_of_prepare htable pattern ((hpatterns pattern).mpr hpattern)]
  rw [hcount, hcount', Predicate.trueRows, Predicate.trueRows, hjoins]
  simp only [hsame]

end RecordFilter
