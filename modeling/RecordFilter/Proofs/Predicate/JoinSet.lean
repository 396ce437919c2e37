/-
# `Proofs.Predicate.JoinSet` — a plan is a set of joins in one order

A plan is made by insertion, which looks at labels only, and keeps the first join of
each.  For paths that one entity resolves nothing is left to chance in that: a label
tells the join (`Entity.Resolves.join_unique_of_label`), so the plan holds the joins
of the paths, each once; and two joins are equally placed only if they are one join
(`Join.Coherent.eq_of_placed_alike`), so there is one order that they can stand in.

    same paths, in any order and any number  ⟹  same plan          (`plan_congr`)

`joins_of_one_entity` says all of it about predicates.
-/
import Mathlib.Data.List.Nodup
import Mathlib.Data.List.Perm.Basic
import RecordFilter.Proofs.Path.Labels
import RecordFilter.Proofs.Predicate.Plan

namespace RecordFilter

/-! ## The order of labels is total -/

theorem Text.eq_of_compareChars {as : List Char} :
    ∀ {bs : List Char}, compareChars as bs ≠ .lt → compareChars bs as ≠ .lt → as = bs := by
  induction as with
  | nil =>
      intro bs hab _
      cases bs with
      | nil => rfl
      | cons b bs => exact absurd rfl hab
  | cons a as ih =>
      intro bs hab hba
      cases bs with
      | nil => exact absurd rfl hba
      | cons b bs =>
          rw [compareChars, Ne, Ordering.then_eq_lt, Nat.compare_eq_lt, Nat.compare_eq_eq] at hab hba
          obtain ⟨hlt, has⟩ := not_or.mp hab
          obtain ⟨hgt, hbs⟩ := not_or.mp hba
          have hnat : a.toNat = b.toNat := Nat.le_antisymm (Nat.not_lt.mp hgt) (Nat.not_lt.mp hlt)
          have htail : as = bs :=
            ih (fun h => has ⟨hnat, h⟩) fun h => hbs ⟨hnat.symm, h⟩
          rw [Char.toNat_inj.mp hnat, htail]

namespace Join

variable {e : Entity} {j k : Join} {paths paths' : List ResolvedPath}

theorem label_eq_of_placed_alike (hjk : j.before k ≠ .lt) (hkj : k.before j ≠ .lt) :
    j.target.label = k.target.label := by
  rw [Ne, before_eq_lt_iff] at hjk hkj
  obtain ⟨hlt, hlabel⟩ := not_or.mp hjk
  obtain ⟨hgt, hlabel'⟩ := not_or.mp hkj
  have hdepth : j.depth = k.depth := Nat.le_antisymm (Nat.not_lt.mp hgt) (Nat.not_lt.mp hlt)
  refine String.toList_inj.mp (Text.eq_of_compareChars ?_ ?_)
  · exact fun h => hlabel ⟨hdepth, h⟩
  · exact fun h => hlabel' ⟨hdepth.symm, h⟩

/-! ## Plans -/

theorem Sorted.nodup {plan : List Join} (h : Sorted plan) : plan.Nodup :=
  h.imp fun hne heq => hne.1 (congrArg target heq)

/-- A label stands for one join among those of the paths. -/
def Coherent (paths : List ResolvedPath) : Prop :=
  ∀ p ∈ paths, ∀ q ∈ paths, ∀ j ∈ p.joins, ∀ k ∈ q.joins,
    j.target.label = k.target.label → j = k

theorem coherent_of_resolves (h : ∀ p ∈ paths, e.Resolves p) : Coherent paths := by
  intro p hp q hq j hj k hk hlabel
  exact (h p hp).join_unique_of_label (h q hq) hj hk hlabel

/-- A plan of coherent paths is the union of their joins. -/
theorem Coherent.mem_plan_iff (h : Coherent paths) :
    j ∈ plan paths ↔ ∃ p ∈ paths, j ∈ p.joins := by
  refine ⟨mem_of_mem_plan, ?_⟩
  rintro ⟨p, hp, hj⟩
  obtain ⟨k, hk, htarget⟩ := target_mem_plan hp hj
  obtain ⟨q, hq, hkq⟩ := mem_of_mem_plan hk
  rw [h p hp q hq j hj k hkq (congrArg Alias.label htarget.symm)]
  exact hk

/-- Joins of coherent paths are placed alike only if they are one join. -/
theorem Coherent.eq_of_placed_alike (h : Coherent paths) (hj : j ∈ plan paths)
    (hk : k ∈ plan paths) (hjk : j.before k ≠ .lt) (hkj : k.before j ≠ .lt) : j = k := by
  obtain ⟨p, hp, hjp⟩ := mem_of_mem_plan hj
  obtain ⟨q, hq, hkq⟩ := mem_of_mem_plan hk
  exact h p hp q hq j hjp k hkq (label_eq_of_placed_alike hjk hkj)

/-- **A plan of coherent paths depends on the set of them only.** -/
theorem Coherent.plan_congr (h : Coherent paths) (hset : ∀ p, p ∈ paths' ↔ p ∈ paths) :
    plan paths' = plan paths := by
  have h' : Coherent paths' := by
    intro p hp q hq
    exact h p ((hset p).mp hp) q ((hset q).mp hq)
  have hmem : ∀ j, j ∈ plan paths' ↔ j ∈ plan paths := by
    intro j
    simp only [h.mem_plan_iff, h'.mem_plan_iff, hset]
  have hperm : (plan paths').Perm (plan paths) :=
    (List.perm_ext_iff_of_nodup (plan_sorted paths').nodup (plan_sorted paths).nodup).mpr hmem
  have hplaced : ∀ paths, (plan paths).Pairwise fun j k => k.before j ≠ .lt :=
    fun paths => (plan_sorted paths).imp And.right
  refine hperm.eq_of_pairwise (fun j k hj hk hjk hkj => ?_) (hplaced paths') (hplaced paths)
  exact h.eq_of_placed_alike ((hmem j).mp hj) hk hkj hjk

theorem plan_congr (h : ∀ p ∈ paths, e.Resolves p) (hset : ∀ p, p ∈ paths' ↔ p ∈ paths) :
    plan paths' = plan paths :=
  (coherent_of_resolves h).plan_congr hset

theorem nodup_labels (h : ∀ p ∈ paths, e.Resolves p) :
    ((plan paths).map (·.target.label)).Nodup := by
  refine List.Nodup.map_on (fun j hj k hk hlabel => ?_) (plan_sorted paths).nodup
  obtain ⟨p, hp, hjp⟩ := mem_of_mem_plan hj
  obtain ⟨q, hq, hkq⟩ := mem_of_mem_plan hk
  exact (h p hp).join_unique_of_label (h q hq) hjp hkq hlabel

theorem Ordered.parent_before {joins : List Join} :
    ∀ {made : List Alias} {front : List Join} {j : Join} {back : List Join} {a : Alias},
      Ordered made joins → joins = front ++ j :: back → j.parent = some a →
      a ∈ made ∨ ∃ k ∈ front, k.target = a := by
  induction joins with
  | nil =>
      intro made front j back a _ hjoins _
      exact absurd hjoins.symm (List.append_ne_nil_of_right_ne_nil front (List.cons_ne_nil j back))
  | cons l joins ih =>
      intro made front j back a h hjoins ha
      obtain ⟨_, hparent, hrest⟩ := h
      cases front with
      | nil =>
          obtain ⟨rfl, rfl⟩ := List.cons.inj hjoins
          exact .inl (hparent a ha)
      | cons l' front =>
          obtain ⟨rfl, htail⟩ := List.cons.inj hjoins
          rcases ih hrest htail ha with hmade | ⟨k, hk, htarget⟩
          · rcases List.mem_cons.mp hmade with rfl | hmade
            · exact .inr ⟨l, List.mem_cons_self, rfl⟩
            · exact .inl hmade
          · exact .inr ⟨k, List.mem_cons_of_mem l hk, htarget⟩

/-- **A join stands behind the join that it starts from.** -/
theorem parent_before {front back : List Join} {a : Alias} (h : plan paths = front ++ j :: back)
    (ha : j.parent = some a) : ∃ k ∈ front, k.target = a := by
  rcases (plan_ordered paths).parent_before h ha with hmade | hfront
  · cases hmade
  · exact hfront

end Join

/-! ## Predicates -/

/-- **The joins of a predicate are the joins of its paths, in one order.**  Let one
entity resolve the paths.  On any two of them, joins of the same label are the same
join.  The predicate makes each join of its paths once and no other, and no label
twice; a join that starts from another stands somewhere behind it; and any predicate
with the same paths, wherever and however often it reads them, makes the same joins in
the same order. -/
theorem joins_of_one_entity (e : Entity) (p : Predicate) (h : p.ResolvedIn e) :
    (∀ path ∈ p.paths, ∀ path' ∈ p.paths, ∀ j ∈ path.joins, ∀ k ∈ path'.joins,
      j.target.label = k.target.label → j = k) ∧
    (p.joins.Nodup ∧ ∀ j, j ∈ p.joins ↔ ∃ path ∈ p.paths, j ∈ path.joins) ∧
    (p.joins.map (·.target.label)).Nodup ∧
    (∀ front j back, p.joins = front ++ j :: back →
      ∀ a, j.parent = some a → ∃ k ∈ front, k.target = a) ∧
    ∀ q : Predicate, (∀ path, path ∈ q.paths ↔ path ∈ p.paths) → q.joins = p.joins := by
  refine ⟨?_, ⟨?_, ?_⟩, ?_, ?_, ?_⟩
  · intro path hpath path' hpath' j hj k hk hlabel
    exact (h path hpath).join_unique_of_label (h path' hpath') hj hk hlabel
  · exact (Join.plan_sorted p.paths).nodup
  · exact fun j => Join.mem_plan_iff h
  · exact Join.nodup_labels h
  · exact fun front j back hjoins a ha => Join.parent_before hjoins ha
  · exact fun q hpaths => Join.plan_congr h hpaths

/-- A join behind an embedded value, which comes behind one that starts from the root
though it is read first; and the same paths in another predicate, one of them twice. -/
theorem joins_of_one_entity_order :
    (Predicate.all
        [.test ⟨[⟨"buyer", some (.relation .toOne)⟩, ⟨"home", some .embedded⟩,
            ⟨"town", some (.relation .toOne)⟩, ⟨"name", none⟩], .string⟩ .isNull,
          .not (.test ⟨[⟨"lines", some (.relation .toMany)⟩, ⟨"amount", none⟩], .integer⟩
            .isNull)]).ResolvedIn
      ⟨"Order", [("lines", .to (.relation .toMany) ⟨"Line", [("amount", .basic .integer)]⟩),
        ("buyer", .to (.relation .toOne) ⟨"Person", [("home", .to .embedded ⟨"Home",
          [("town", .to (.relation .toOne) ⟨"Town", [("name", .basic .string)]⟩)]⟩)]⟩)]⟩ ∧
    (Predicate.all
        [.test ⟨[⟨"buyer", some (.relation .toOne)⟩, ⟨"home", some .embedded⟩,
            ⟨"town", some (.relation .toOne)⟩, ⟨"name", none⟩], .string⟩ .isNull,
          .not (.test ⟨[⟨"lines", some (.relation .toMany)⟩, ⟨"amount", none⟩], .integer⟩
            .isNull)]).joins =
      [⟨["buyer"], none, ["buyer"], .toOne⟩, ⟨["lines"], none, ["lines"], .toMany⟩,
        ⟨["buyer", "home", "town"], some ["buyer"], ["home", "town"], .toOne⟩] ∧
    (Predicate.any
        [.test ⟨[⟨"lines", some (.relation .toMany)⟩, ⟨"amount", none⟩], .integer⟩ .isNotNull,
          .test ⟨[⟨"buyer", some (.relation .toOne)⟩, ⟨"home", some .embedded⟩,
            ⟨"town", some (.relation .toOne)⟩, ⟨"name", none⟩], .string⟩ .isNull,
          .test ⟨[⟨"lines", some (.relation .toMany)⟩, ⟨"amount", none⟩], .integer⟩ .isNull]).joins =
      (Predicate.all
        [.test ⟨[⟨"buyer", some (.relation .toOne)⟩, ⟨"home", some .embedded⟩,
            ⟨"town", some (.relation .toOne)⟩, ⟨"name", none⟩], .string⟩ .isNull,
          .not (.test ⟨[⟨"lines", some (.relation .toMany)⟩, ⟨"amount", none⟩], .integer⟩
            .isNull)]).joins := by
  have hresolved : (Predicate.all
      [.test ⟨[⟨"buyer", some (.relation .toOne)⟩, ⟨"home", some .embedded⟩,
          ⟨"town", some (.relation .toOne)⟩, ⟨"name", none⟩], .string⟩ .isNull,
        .not (.test ⟨[⟨"lines", some (.relation .toMany)⟩, ⟨"amount", none⟩], .integer⟩
          .isNull)]).ResolvedIn
      ⟨"Order", [("lines", .to (.relation .toMany) ⟨"Line", [("amount", .basic .integer)]⟩),
        ("buyer", .to (.relation .toOne) ⟨"Person", [("home", .to .embedded ⟨"Home",
          [("town", .to (.relation .toOne) ⟨"Town", [("name", .basic .string)]⟩)]⟩)]⟩)]⟩ := by
    refine List.forall_mem_cons.mpr ⟨⟨"buyer.home.town.name", rfl⟩, ?_⟩
    exact List.forall_mem_singleton.mpr ⟨"lines.amount", rfl⟩
  refine ⟨hresolved, by decide +kernel, ?_⟩
  refine (joins_of_one_entity _ _ hresolved).2.2.2.2 _ fun path => ?_
  show path ∈ [_, _, _] ↔ path ∈ [_, _]
  simp only [List.mem_cons, List.not_mem_nil, or_false]
  constructor
  · rintro (h | h | h)
    · exact .inr h
    · exact .inl h
    · exact .inr h
  · rintro (h | h)
    · exact .inr (.inl h)
    · exact .inl h

end RecordFilter
