/-
# `Proofs.Evaluation.Tables` — what evaluation looks up is there

Evaluation looks up two things: the pattern of a condition in a table, and an alias on a
row.  Either look-up has an answer for a key that is missing, too: the condition is then
unknown, and the alias stands for nothing.  Such an answer cannot be told from one that the
data give, so a key left out would not be noticed.  None is left out.

    a pattern that a condition searches for is in the table      (`mem_patterns_iff`)
    joins that are made bind their targets, one to a label       (`binds_of_mem_ofRecord`)
    a join that comes behind its parent finds it bound           (`binds_parent`)

The answers for missing keys are not used either: whatever a table and a row hold besides,
the rows are made, and the predicate is true, as they are without it (`expand_append_right`,
`eval_append_right`).
-/
import RecordFilter.Proofs.Compiler.Typing
import RecordFilter.Proofs.Evaluation.Patterns
import RecordFilter.Proofs.Evaluation.Reach
import RecordFilter.Proofs.Predicate.JoinSet

namespace RecordFilter

/-! ## Searches -/

/-- The pattern that a condition searches for, and the text of a value that it searches. -/
def Condition.search? : Condition → Option (String × (Json → Option String))
  | like pattern _ => some (pattern, Json.textOf)
  | joinedLike pattern => some (pattern, Json.joinedText)
  | _ => none

/-- A search for a pattern of the table is unknown only of a value without a text. -/
theorem Condition.eval_eq_none_iff {table : PatternTable} {condition : Condition} {pattern : String}
    {text : Json → Option String} {prepared : LikePattern}
    (h : condition.search? = some (pattern, text)) (hlookup : table.lookup pattern = some prepared)
    (stored : Option Json) : condition.eval table stored = none ↔ stored.bind text = none := by
  cases condition with
  | like pattern negated =>
      cases h
      cases stored with
      | none => simp only [Condition.eval, Option.bind_none]
      | some value =>
          cases htext : value.textOf <;>
            simp [Condition.eval, PatternTable.like, hlookup, htext]
  | joinedLike pattern =>
      cases h
      cases stored with
      | none => simp only [Condition.eval, Option.bind_none]
      | some value =>
          cases htext : value.joinedText <;>
            simp [Condition.eval, PatternTable.like, hlookup, htext]
  | _ => cases h

namespace Predicate

mutual

theorem patterns_eq : ∀ p : Predicate,
    p.patterns = p.tests.filterMap fun test => test.2.search?.map Prod.fst
  | .all operands => patternsList_eq operands
  | .any operands => patternsList_eq operands
  | .not operand => patterns_eq operand
  | .test _ condition => by cases condition <;> rfl

theorem patternsList_eq : ∀ operands : List Predicate,
    patternsList operands =
      (testsList operands).filterMap fun test => test.2.search?.map Prod.fst
  | [] => rfl
  | operand :: operands => by
      rw [patternsList, testsList, List.filterMap_append, patterns_eq operand,
        patternsList_eq operands]

end

theorem mem_patterns_iff {p : Predicate} {pattern : String} :
    pattern ∈ p.patterns ↔
      ∃ test ∈ p.tests, ∃ text, test.2.search? = some (pattern, text) := by
  rw [patterns_eq, List.mem_filterMap]
  refine exists_congr fun test => and_congr_right fun _ => ?_
  rw [Option.map_eq_some_iff]
  constructor
  · rintro ⟨⟨_, text⟩, h, rfl⟩
    exact ⟨text, h⟩
  · rintro ⟨text, h⟩
    exact ⟨(pattern, text), h, rfl⟩

end Predicate

/-! ## Aliases on a row -/

variable {record : Json} {row : Row} {joins front back : List Join} {j : Join} {a : Alias}

namespace Row

/-- The row binds the alias, and has no other entry under its label. -/
def Binds (row : Row) (a : Alias) (b : Option Json) : Prop :=
  (a, b) ∈ row ∧ ∀ entry ∈ row, entry.1.label = a.label → entry = (a, b)

theorem binds_of_mem_aliases (hlabels : (row.aliases.map Alias.label).Nodup)
    (ha : a ∈ row.aliases) : row.Binds a (row.bound? a) := by
  obtain ⟨⟨a, b⟩, hentry, rfl⟩ := List.mem_map.mp ha
  rw [bound?_of_mem hlabels.of_map hentry]
  refine ⟨hentry, fun entry hother hlabel => ?_⟩
  rw [aliases, List.map_map] at hlabels
  exact List.inj_on_of_nodup_map hlabels hother hentry hlabel

/-- **Joins that are made bind their targets**, if no two have one label. -/
theorem binds_of_mem_ofRecord (hlabels : (joins.map (·.target.label)).Nodup)
    (h : row ∈ ofRecord record joins) (hj : j ∈ joins) :
    row.Binds j.target (row.bound? j.target) := by
  have haliases : row.aliases = (joins.map (·.target)).reverse :=
    (aliases_of_mem_expand h).trans (List.append_nil _)
  refine binds_of_mem_aliases ?_ ?_
  · rw [haliases, List.map_reverse, List.nodup_reverse, List.map_map]
    exact hlabels
  · rw [haliases, List.mem_reverse]
    exact List.mem_map_of_mem hj

/-- **Nothing is read by default while rows are made**: entries below those of the joins
stay where they are and change nothing. -/
theorem expand_append_right (hjoins : Join.Ordered row.aliases joins) (others : Row) :
    expand record joins [row ++ others] = (expand record joins [row]).map (· ++ others) := by
  induction joins generalizing row with
  | nil => rfl
  | cons j joins ih =>
      obtain ⟨_, hparent, hrest⟩ := hjoins
      have hbindings : j.bindings record (row ++ others) = j.bindings record row :=
        Join.bindings_congr fun a ha => bound?_append_left (hparent a ha) others
      have hmade : ∀ b, Join.Ordered (aliases ((j.target, b) :: row)) joins := fun _ => hrest
      -- the new entry goes on top of the row, so the others stay below
      rw [expand_cons, expand_cons, hbindings, List.map_flatMap]
      exact congrArg (List.flatMap · _) (funext fun b => ih (hmade b))

end Row

/-! ## The tables of an evaluator -/

namespace Predicate

variable {e : Entity} {p : Predicate} {table : PatternTable}

theorem binds_source (hp : p.ResolvedIn e) (hrow : row ∈ Row.ofRecord record p.joins)
    {path : ResolvedPath} (hpath : path ∈ p.paths) (ha : path.source = some a) :
    row.Binds a (row.bound? a) := by
  obtain ⟨j, hj, rfl⟩ := ResolvedPath.source_mem ha
  have hplan : j ∈ p.joins := (Join.mem_plan_iff hp).mpr ⟨path, hpath, hj⟩
  exact Row.binds_of_mem_ofRecord (Join.nodup_labels hp) hrow hplan

theorem binds_parent (hp : p.ResolvedIn e) (hjoins : p.joins = front ++ j :: back)
    (hrow : row ∈ Row.ofRecord record front) (ha : j.parent = some a) :
    row.Binds a (row.bound? a) := by
  obtain ⟨k, hk, rfl⟩ := Join.parent_before hjoins ha
  have hlabels : (front.map (·.target.label)).Nodup := by
    have hall : (p.joins.map (·.target.label)).Nodup := Join.nodup_labels hp
    rw [hjoins] at hall
    exact hall.sublist ((List.sublist_append_left front _).map _)
  exact Row.binds_of_mem_ofRecord hlabels hrow hk

/-- **Nothing is read by default on a row**: what is behind the entries of the table and
of the row changes nothing. -/
theorem eval_append_right (hp : p.ResolvedIn e) (hrow : row ∈ Row.ofRecord record p.joins)
    (htable : ∀ pattern ∈ p.patterns, (table.lookup pattern).isSome) (extra : PatternTable)
    (others : Row) :
    p.eval (table ++ extra) record (row ++ others) = p.eval table record row := by
  refine eval_congr (fun pattern hpattern => ?_) fun path hpath => ?_
  · rw [List.lookup_append, Option.or_of_isSome (htable pattern hpattern)]
  · refine ResolvedPath.read_congr fun j hj => Row.bound?_append_left ?_ others
    have hplan : j ∈ p.joins := (Join.mem_plan_iff hp).mpr ⟨path, hpath, hj⟩
    exact (Row.mem_aliases_of_mem_expand hrow).mpr (.inr ⟨j, hplan, rfl⟩)

end Predicate

/-- **Evaluation never misses its own tables.**  Let one entity resolve the paths of a
filter.  An evaluator can be made if and only if the engine takes each pattern that a
condition searches for, at whatever depth the condition stands.  Its table then holds that
pattern, prepared from that very text, and the condition is unknown only of a value without a
text.

On each row of a record, the alias that a path starts from is bound, once, and the path reads
what it is bound to.  When a join is made, on the rows that the joins in front of it have
made, the alias that it starts from is bound, once, and the join follows what it is bound to.

So nothing is read by default: whatever a table and a row hold besides, and however missing
keys would thus be answered, the rows are the same, and the truth of the predicate on them. -/
theorem look_ups_never_miss (engine : PatternEngine) (e : Entity) (f : Filter)
    (h : f.predicate.ResolvedIn e) :
    ((∃ ev, engine.evaluator f = .ok ev) ↔
      ∀ test ∈ f.predicate.tests, ∀ pattern text, test.2.search? = some (pattern, text) →
        engine.Accepts pattern) ∧
    ∀ ev, engine.evaluator f = .ok ev →
      (∀ test ∈ f.predicate.tests, ∀ pattern text, test.2.search? = some (pattern, text) →
        ev.table.lookup pattern = some (.ofText pattern) ∧
          ∀ stored, test.2.eval ev.table stored = none ↔ stored.bind text = none) ∧
      ∀ record,
        (∀ row ∈ Row.ofRecord record ev.joins, ∀ path ∈ f.predicate.paths, ∀ a,
          path.source = some a → ∃ b, row.Binds a b ∧
            path.read record row = Json.present? (b.bind (·.descend path.accessor))) ∧
        (∀ front j back, ev.joins = front ++ j :: back →
          Row.ofRecord record ev.joins =
            Row.expand record (j :: back) (Row.ofRecord record front) ∧
          ∀ row ∈ Row.ofRecord record front, ∀ a, j.parent = some a →
            ∃ b, row.Binds a b ∧
              j.related record row = Json.present? (b.bind (·.descend j.attributes))) ∧
        ∀ (extra : PatternTable) (others : Row),
          Row.expand record ev.joins [others] =
            (Row.ofRecord record ev.joins).map (· ++ others) ∧
          ∀ row ∈ Row.ofRecord record ev.joins,
            f.predicate.eval (ev.table ++ extra) record (row ++ others) =
              f.predicate.eval ev.table record row := by
  constructor
  · rw [PatternEngine.exists_evaluator_iff]
    constructor
    · intro hall test htest pattern text hsearch
      exact hall pattern (Predicate.mem_patterns_iff.mpr ⟨test, htest, text, hsearch⟩)
    · intro hall pattern hpattern
      obtain ⟨test, htest, text, hsearch⟩ := Predicate.mem_patterns_iff.mp hpattern
      exact hall test htest pattern text hsearch
  · intro ev hev
    have hlookup : ∀ pattern ∈ f.predicate.patterns,
        ev.table.lookup pattern = some (.ofText pattern) :=
      fun pattern hpattern => PatternEngine.lookup_of_evaluator hev hpattern
    have htable : ∀ pattern ∈ f.predicate.patterns, (ev.table.lookup pattern).isSome :=
      fun pattern hpattern => Option.isSome_of_eq_some (hlookup pattern hpattern)
    obtain ⟨table, _, rfl⟩ := PatternEngine.evaluator_eq_ok_iff.mp hev
    refine ⟨?_, fun record => ⟨?_, ?_, fun extra others => ⟨?_, ?_⟩⟩⟩
    · intro test htest pattern text hsearch
      have hprepared :=
        hlookup pattern (Predicate.mem_patterns_iff.mpr ⟨test, htest, text, hsearch⟩)
      exact ⟨hprepared, test.2.eval_eq_none_iff hsearch hprepared⟩
    · intro row hrow path hpath a ha
      refine ⟨row.bound? a, Predicate.binds_source h hrow hpath ha, ?_⟩
      rw [ResolvedPath.read, ha]
    · intro front j back hjoins
      refine ⟨?_, fun row hrow a ha =>
        ⟨row.bound? a, Predicate.binds_parent h hjoins hrow ha, ?_⟩⟩
      · rw [hjoins]
        exact Row.expand_append record front (j :: back) [[]]
      · rw [Join.related, ha]
    · have hordered : Join.Ordered (Row.aliases []) f.joins := Join.plan_ordered f.predicate.paths
      exact Row.expand_append_right hordered others
    · exact fun row hrow => Predicate.eval_append_right h hrow htable extra others

/-- Three pets have four rows, one for each visit and one where there is none, and all bind
the visits.  The note of the first visit begins with an `a`; the others are missing, and so
are the tags.  Visits that stand below the rows are not read, nor is another pattern under
the same text. -/
theorem look_ups_never_miss_visits :
    ∃ ev record, PatternEngine.lenient.evaluator (.ofPredicate (.any
        [.not (.test ⟨[⟨"pets", some (.relation .toMany)⟩, ⟨"visits", some (.relation .toMany)⟩,
            ⟨"note", none⟩], .string⟩ (.like "a%" true)),
          .test ⟨[⟨"tags", none⟩], .list⟩ (.joinedLike "%b_")])) = .ok ev ∧
      record = .object [("pets", .array [
          .object [("visits", .array [.object [("note", .string "Abc")], .object []])],
          .object [("visits", .array [])], .null]), ("tags", .null)] ∧
      ev.table.lookup "a%" = some (.ofText "a%") ∧
      (∀ row ∈ Row.ofRecord record ev.joins, ∃ b, row.Binds ["pets", "visits"] b) ∧
      (Row.expand record ev.joins
          [[(["pets", "visits"], some (.object [("note", .string "a")]))]]).map
        (ev.filter.predicate.eval (ev.table ++ [("a%", ⟨[]⟩)]) record) =
          [some true, none, none, none] := by
  have hresolved : Predicate.ResolvedIn
      ⟨"Owner", [("tags", .basic .list),
        ("pets", .link (.relation .toMany) "Pet"
          [("visits", .link (.relation .toMany) "Visit" [("note", .basic .string)])])]⟩
      (.any
        [.not (.test ⟨[⟨"pets", some (.relation .toMany)⟩, ⟨"visits", some (.relation .toMany)⟩,
            ⟨"note", none⟩], .string⟩ (.like "a%" true)),
          .test ⟨[⟨"tags", none⟩], .list⟩ (.joinedLike "%b_")]) :=
    List.forall_mem_cons.mpr
      ⟨⟨"pets.visits.note", rfl⟩, List.forall_mem_singleton.mpr ⟨"tags", rfl⟩⟩
  obtain ⟨_, hnever⟩ := look_ups_never_miss .lenient _ (.ofPredicate _) hresolved
  obtain ⟨hpatterns, hrecord⟩ := hnever _ rfl
  refine ⟨_, _, rfl, rfl, ?_, ?_, ?_⟩
  · exact (hpatterns _ List.mem_cons_self "a%" _ rfl).1
  · intro row hrow
    obtain ⟨b, hbinds, _⟩ := (hrecord _).1 row hrow _ List.mem_cons_self _ rfl
    exact ⟨b, hbinds⟩
  · obtain ⟨hrows, heval⟩ := (hrecord _).2.2 [("a%", ⟨[]⟩)]
      [(["pets", "visits"], some (.object [("note", .string "a")]))]
    rw [hrows, List.map_map]
    refine (List.map_congr_left heval).trans ?_
    decide +kernel

end RecordFilter
