/-
# `Proofs.Evaluation.Choices` — one row for each choice of elements

The rows of a record are the left outer join of its relations.  Nothing about a
row is free but positions: where a relation to many leads to a list, the row takes
the element at one position of it.  `Join.Binds` says what a target is bound to at
a position, `Choice` is a position for every alias, and `Row.Follows` says that a
row binds each target at the position that is chosen for it.

    a choice has at most one row                              (`Follows.unique`)
    the rows that are made follow the consistent choices,
    one row each, and no choice twice                         (`exists_choices`)

The second is an induction over the joins in order.  `Row.trace` is the expansion
with the choice that led to a row written beside it; what it lists is known exactly
(`mem_trace_iff`), and two branches of a join differ in the position of its target.
-/
import Mathlib.Data.List.Nodup
import Mathlib.Logic.Function.Basic
import RecordFilter.Proofs.Evaluation.Connectives

namespace RecordFilter

/-! ## What a join binds -/

/-- `Binds cardinality found i b`: where the names of a join lead to `found`, its
target is bound to `b` at position `i`.  Nothing, null and a list without elements
under a relation to many bind nothing; a list with elements binds each of them, at
its position; any other value is bound as it is.  Where no element is taken the
only position is 0. -/
inductive Join.Binds : Cardinality → Option Json → Nat → Option Json → Prop
  | missing {cardinality : Cardinality} : Binds cardinality none 0 none
  | null {cardinality : Cardinality} : Binds cardinality (some .null) 0 none
  | empty : Binds .toMany (some (.array [])) 0 none
  | element {items : List Json} {i : Nat} {item : Json} :
      items[i]? = some item → Binds .toMany (some (.array items)) i (some item)
  | value {cardinality : Cardinality} {v : Json} :
      v ≠ .null → (cardinality = .toMany → ∀ items, v ≠ .array items) →
      Binds cardinality (some v) 0 (some v)

/-- The value that an alias stands for on a row, and the record where there is no
alias. -/
def Row.value? (row : Row) (record : Json) : Option Alias → Option Json
  | none => some record
  | some a => row.bound? a

/-- What the names of a join lead to from its parent. -/
def Join.found (j : Join) (record : Json) (row : Row) : Option Json :=
  (row.value? record j.parent).bind (·.descend j.attributes)

theorem Join.related_eq (j : Join) (record : Json) (row : Row) :
    j.related record row = Json.present? (j.found record row) := by
  rw [Join.related, Join.found]
  cases j.parent <;> rfl

variable {record : Json} {row row' : Row} {joins : List Join}

theorem Join.Binds.unique {cardinality : Cardinality} {found b b' : Option Json} {i : Nat}
    (h : Binds cardinality found i b) (h' : Binds cardinality found i b') : b = b' := by
  cases h with
  | missing =>
      cases h'
      rfl
  | null =>
      cases h' with
      | null => rfl
      | value hnull _ => exact absurd rfl hnull
  | empty =>
      cases h' with
      | empty => rfl
      | element hitem => cases hitem
      | value _ hlist => exact absurd rfl (hlist rfl [])
  | element hitem =>
      cases h' with
      | empty => cases hitem
      | element hitem' =>
          rw [hitem] at hitem'
          exact hitem'
      | value _ hlist => exact absurd rfl (hlist rfl _)
  | value hnull hlist =>
      cases h' with
      | null => exact absurd rfl hnull
      | empty => exact absurd rfl (hlist rfl [])
      | element _ => exact absurd rfl (hlist rfl _)
      | value _ _ => rfl

theorem Join.Binds.getElem?_singleton_iff {cardinality : Cardinality} {found b b' : Option Json}
    {i : Nat} (hb : Binds cardinality found 0 b)
    (hzero : ∀ i b', Binds cardinality found i b' → i = 0) :
    [b][i]? = some b' ↔ Binds cardinality found i b' := by
  rw [List.getElem?_singleton]
  constructor
  · intro h
    split at h
    · next hi =>
        cases h
        rw [hi]
        exact hb
    · cases h
  · intro h
    obtain rfl := hzero i b' h
    rw [if_pos rfl, hb.unique h]

theorem Join.getElem?_bindings_eq_some_iff {j : Join} {i : Nat} {b : Option Json} :
    (j.bindings record row)[i]? = some b ↔ Binds j.cardinality (j.found record row) i b := by
  rw [Join.bindings, related_eq]
  generalize j.found record row = found
  generalize j.cardinality = cardinality
  -- every value but a list with elements is taken whole
  have hvalue : ∀ v, v ≠ .null → (cardinality = .toMany → ∀ items, v ≠ .array items) →
      ([some v][i]? = some b ↔ Binds cardinality (some v) i b) := by
    intro v hnull hlist
    refine Binds.getElem?_singleton_iff (.value hnull hlist) fun k b' h => ?_
    cases h with
    | element _ => exact absurd rfl (hlist rfl _)
    | _ => rfl
  cases found with
  | none => exact Binds.missing.getElem?_singleton_iff fun _ _ h => by cases h; rfl
  | some v =>
      cases v with
      | null => exact Binds.null.getElem?_singleton_iff fun _ _ h => by cases h <;> rfl
      | array items =>
          cases cardinality with
          | toOne =>
              have hwhole := hvalue (.array items) (by simp) (by simp)
              cases items <;> exact hwhole
          | toMany =>
              cases items with
              | nil =>
                  refine Binds.empty.getElem?_singleton_iff fun _ _ h => ?_
                  cases h with
                  | element hitem => cases hitem
                  | _ => rfl
              | cons item items =>
                  show ((item :: items).map some)[i]? = some b ↔ _
                  rw [List.getElem?_map, Option.map_eq_some_iff]
                  constructor
                  · rintro ⟨item', hitem, rfl⟩
                    exact .element hitem
                  · intro h
                    cases h with
                    | element hitem => exact ⟨_, hitem, rfl⟩
                    | value _ hlist => exact absurd rfl (hlist rfl _)
      | _ => exact hvalue _ (by simp) (by simp)

/-! ## Choices -/

/-- A position for every alias. -/
abbrev Choice := Alias → Nat

/-- A row is the consistent binding of some joins at the chosen positions: it binds
the targets, the last one first, and each of them to what its join binds there. -/
structure Row.Follows (record : Json) (joins : List Join) (choice : Choice) (row : Row) :
    Prop where
  aliases_eq : row.aliases = (joins.map (·.target)).reverse
  binds : ∀ j ∈ joins,
    Join.Binds j.cardinality (j.found record row) (choice j.target) (row.bound? j.target)

/-- A choice is consistent if there is a row for it; what is not joined stands at
position 0. -/
def Choice.Consistent (record : Json) (joins : List Join) (choice : Choice) : Prop :=
  (∃ row, Row.Follows record joins choice row) ∧
    ∀ a, a ∉ joins.map (·.target) → choice a = 0

variable {choice choice' : Choice} {made : List Alias} {j : Join} {new : Row}

/-! ## Joins in order -/

namespace Join

theorem Ordered.target_notMem (h : Ordered made joins) : ∀ j ∈ joins, j.target ∉ made := by
  induction joins generalizing made with
  | nil =>
      intro j hj
      cases hj
  | cons k joins ih =>
      obtain ⟨hnew, _, hjoins⟩ := h
      intro j hj
      rcases List.mem_cons.mp hj with rfl | hj
      · exact hnew
      · intro hmem
        exact ih hjoins j hj (List.mem_cons_of_mem _ hmem)

theorem Ordered.target_notMem_targets (h : Ordered made (j :: joins)) :
    j.target ∉ joins.map (·.target) := by
  obtain ⟨_, _, hjoins⟩ := h
  intro hmem
  obtain ⟨k, hk, htarget⟩ := List.mem_map.mp hmem
  exact hjoins.target_notMem k hk (htarget ▸ List.mem_cons_self)

theorem Ordered.targets_nodup (h : Ordered made joins) : (joins.map (·.target)).Nodup := by
  induction joins generalizing made with
  | nil => exact List.nodup_nil
  | cons k joins ih =>
      have hjoins : Ordered (k.target :: made) joins := h.2.2
      exact List.nodup_cons.mpr ⟨h.target_notMem_targets, ih hjoins⟩

/-- **Induction along joins in order.**  What holds of a target as soon as it holds
of its parent holds of all targets. -/
theorem Ordered.forall_target {P : Alias → Prop} (h : Ordered made joins)
    (hmade : ∀ a ∈ made, P a)
    (hstep : ∀ j ∈ joins, (∀ a, j.parent = some a → P a) → P j.target) :
    ∀ j ∈ joins, P j.target := by
  induction joins generalizing made with
  | nil =>
      intro j hj
      cases hj
  | cons k joins ih =>
      obtain ⟨_, hparent, hjoins⟩ := h
      obtain ⟨hk, hstep⟩ := List.forall_mem_cons.mp hstep
      have htarget : P k.target := hk fun a ha => hmade a (hparent a ha)
      exact List.forall_mem_cons.mpr
        ⟨htarget, ih hjoins (List.forall_mem_cons.mpr ⟨htarget, hmade⟩) hstep⟩

theorem found_congr (h : ∀ a, j.parent = some a → row.bound? a = row'.bound? a) :
    j.found record row = j.found record row' := by
  rw [found, found]
  cases hparent : j.parent with
  | none => rfl
  | some a =>
      show (row.bound? a).bind _ = (row'.bound? a).bind _
      rw [h a hparent]

end Join

/-! ## The row of a choice -/

namespace Row

theorem bound?_new (hjoins : Join.Ordered row.aliases joins)
    (hnew : new.aliases = (joins.map (·.target)).reverse) {a : Alias} (ha : a ∈ row.aliases) :
    bound? (new ++ row) a = row.bound? a := by
  refine bound?_append_right (fun hmem => ?_) row
  rw [hnew, List.mem_reverse] at hmem
  obtain ⟨j, hj, rfl⟩ := List.mem_map.mp hmem
  exact hjoins.target_notMem j hj ha

theorem eq_of_bound? (haliases : row.aliases = row'.aliases) (hnodup : row.aliases.Nodup)
    (h : ∀ a ∈ row.aliases, row.bound? a = row'.bound? a) : row = row' := by
  induction row generalizing row' with
  | nil => exact (List.map_eq_nil_iff.mp haliases.symm).symm
  | cons entry row ih =>
      match row', haliases with
      | entry' :: row', haliases =>
          obtain ⟨hname, htail⟩ := List.cons.inj haliases
          obtain ⟨a, b⟩ := entry
          obtain ⟨a', b'⟩ := entry'
          obtain rfl : a = a' := hname
          obtain ⟨hfresh, hrow⟩ := List.nodup_cons.mp hnodup
          have hb := h a List.mem_cons_self
          rw [bound?_cons_self, bound?_cons_self] at hb
          have hrest : row = row' := by
            refine ih htail hrow fun c hc => ?_
            have hne : c ≠ a := fun heq => hfresh (heq ▸ hc)
            have hbound := h c (List.mem_cons_of_mem _ hc)
            rwa [bound?_cons_of_ne hne, bound?_cons_of_ne hne] at hbound
          rw [hb, hrest]

end Row

namespace Join

/-- `Ancestor joins a b`: going from target to parent along the joins, `b` is met on
the way from `a`, which is its own first ancestor. -/
inductive Ancestor (joins : List Join) : Alias → Alias → Prop
  | self (a : Alias) : Ancestor joins a a
  | parent {j : Join} {a b : Alias} :
      j ∈ joins → j.parent = some a → Ancestor joins a b → Ancestor joins j.target b

end Join

namespace Row

/-- **A binding depends on the ancestors of its alias alone**: choices that agree on
them bind it alike. -/
theorem Follows.bound?_congr (hjoins : Join.Ordered [] joins)
    (h : row.Follows record joins choice) (h' : row'.Follows record joins choice') :
    ∀ j ∈ joins, (∀ a, Join.Ancestor joins j.target a → choice a = choice' a) →
      row.bound? j.target = row'.bound? j.target := by
  refine hjoins.forall_target (P := fun target => (∀ a, Join.Ancestor joins target a →
    choice a = choice' a) → row.bound? target = row'.bound? target) (fun a ha => nomatch ha) ?_
  intro j hj hparent hagree
  have hfound : j.found record row = j.found record row' := by
    refine Join.found_congr fun a ha => hparent a ha fun b hb => ?_
    exact hagree b (.parent hj ha hb)
  have hbinds := h.binds j hj
  rw [hfound, hagree _ (.self _)] at hbinds
  exact hbinds.unique (h'.binds j hj)

/-- **A choice has at most one row.** -/
theorem Follows.unique (hjoins : Join.Ordered [] joins) (h : row.Follows record joins choice)
    (h' : row'.Follows record joins choice) : row = row' := by
  have hnodup : row.aliases.Nodup := by
    rw [h.aliases_eq, List.nodup_reverse]
    exact hjoins.targets_nodup
  refine eq_of_bound? (h.aliases_eq.trans h'.aliases_eq.symm) hnodup fun a ha => ?_
  rw [h.aliases_eq, List.mem_reverse] at ha
  obtain ⟨j, hj, rfl⟩ := List.mem_map.mp ha
  exact h.bound?_congr hjoins h' j hj fun _ _ => rfl

/-! ## Expansion with the choices written beside it -/

/-- The rows of an expansion, each with the choice that leads to it. -/
def trace (record : Json) : List Join → Choice → Row → List (Choice × Row)
  | [], choice, row => [(choice, row)]
  | j :: joins, choice, row =>
    (j.bindings record row).zipIdx.flatMap fun entry =>
      trace record joins (Function.update choice j.target entry.2) ((j.target, entry.1) :: row)

theorem map_snd_trace (record : Json) (joins : List Join) (choice : Choice) (row : Row) :
    (trace record joins choice row).map (·.2) = expand record joins [row] := by
  induction joins generalizing choice row with
  | nil => rfl
  | cons j joins ih =>
      have hbindings : (j.bindings record row).zipIdx.map (·.1) = j.bindings record row :=
        List.zipIdx_map_fst 0 _
      rw [trace, List.map_flatMap, expand_cons]
      conv_rhs => rw [← hbindings, List.flatMap_map]
      refine congrArg (List.flatMap · _) (funext fun entry => ?_)
      exact ih _ _

/-- The row `row'` goes on from `row` along the joins as `choice` says: it has the targets
in front, each bound at its position.  Elsewhere the choice is still what it was at the
start. -/
structure Continues (record : Json) (joins : List Join) (start choice : Choice)
    (row row' : Row) : Prop where
  grown : ∃ new, row' = new ++ row ∧ new.aliases = (joins.map (·.target)).reverse
  binds : ∀ j ∈ joins,
    Join.Binds j.cardinality (j.found record row') (choice j.target) (row'.bound? j.target)
  elsewhere : ∀ a, a ∉ joins.map (·.target) → choice a = start a

/-- On a row that goes on from a binding, it stands, and its join finds what it found. -/
theorem bound?_grown (record : Json) (b : Option Json)
    (hjoins : Join.Ordered row.aliases (j :: joins))
    (hnew : new.aliases = (joins.map (·.target)).reverse) :
    bound? (new ++ (j.target, b) :: row) j.target = b ∧
      j.found record (new ++ (j.target, b) :: row) = j.found record row := by
  obtain ⟨hfresh, hparent, hrest⟩ := hjoins
  have hmade : Join.Ordered (aliases ((j.target, b) :: row)) joins := hrest
  refine ⟨?_, Join.found_congr fun a ha => ?_⟩
  · rw [bound?_new hmade hnew List.mem_cons_self, bound?_cons_self]
  · have hne : a ≠ j.target := fun heq => hfresh (heq ▸ hparent a ha)
    rw [bound?_new hmade hnew (List.mem_cons_of_mem _ (hparent a ha)), bound?_cons_of_ne hne]

variable {b : Option Json} {i : Nat}

theorem Continues.cons (hjoins : Join.Ordered row.aliases (j :: joins))
    (hb : Join.Binds j.cardinality (j.found record row) i b)
    (h : Continues record joins (Function.update choice j.target i) choice'
      ((j.target, b) :: row) row') :
    Continues record (j :: joins) choice choice' row row' := by
  obtain ⟨⟨new, rfl, hnew⟩, hbinds, helsewhere⟩ := h
  have hposition : choice' j.target = i := by
    rw [helsewhere _ hjoins.target_notMem_targets, Function.update_self]
  obtain ⟨hbound, hsame⟩ := bound?_grown record b hjoins hnew
  refine ⟨⟨new ++ [(j.target, b)], ?_, ?_⟩, List.forall_mem_cons.mpr ⟨?_, hbinds⟩, ?_⟩
  · rw [List.append_assoc]
    rfl
  · rw [List.map_cons, List.reverse_cons, ← hnew, aliases, List.map_append]
    rfl
  · rw [hbound, hsame, hposition]
    exact hb
  · intro a ha
    obtain ⟨hne, ha⟩ := not_or.mp (mt List.mem_cons.mpr ha)
    rw [helsewhere a ha, Function.update_of_ne hne]

theorem Continues.of_cons (hjoins : Join.Ordered row.aliases (j :: joins))
    (h : Continues record (j :: joins) choice choice' row row') :
    ∃ b, Join.Binds j.cardinality (j.found record row) (choice' j.target) b ∧
      Continues record joins (Function.update choice j.target (choice' j.target)) choice'
        ((j.target, b) :: row) row' := by
  obtain ⟨⟨new, rfl, hnew⟩, hbinds, helsewhere⟩ := h
  obtain ⟨hfirst, hbinds⟩ := List.forall_mem_cons.mp hbinds
  rw [List.map_cons, List.reverse_cons] at hnew
  obtain ⟨front, last, rfl, hfront, hlast⟩ := List.map_eq_append_iff.mp hnew
  obtain ⟨⟨a, b⟩, rfl, rfl⟩ := List.map_eq_singleton_iff.mp hlast
  have hgrown : front ++ [(j.target, b)] ++ row = front ++ (j.target, b) :: row :=
    (List.append_cons front _ row).symm
  rw [hgrown] at hfirst hbinds ⊢
  obtain ⟨hbound, hsame⟩ := bound?_grown record b hjoins hfront
  rw [hbound, hsame] at hfirst
  refine ⟨b, hfirst, ⟨front, rfl, hfront⟩, hbinds, fun a ha => ?_⟩
  by_cases heq : a = j.target
  · rw [heq, Function.update_self]
  · rw [Function.update_of_ne heq]
    exact helsewhere a fun hmem => (List.mem_cons.mp hmem).elim heq ha

/-- **What is traced is exactly what goes on along the joins.** -/
theorem mem_trace_iff (hjoins : Join.Ordered row.aliases joins) :
    (choice', row') ∈ trace record joins choice row ↔
      Continues record joins choice choice' row row' := by
  induction joins generalizing choice row row' with
  | nil =>
      rw [trace, List.mem_singleton, Prod.mk.injEq]
      constructor
      · rintro ⟨rfl, rfl⟩
        exact ⟨⟨[], rfl, rfl⟩, fun _ hj => (nomatch hj), fun _ _ => rfl⟩
      · rintro ⟨⟨new, rfl, hnew⟩, _, hchoice⟩
        rw [List.map_eq_nil_iff.mp hnew]
        exact ⟨funext fun a => hchoice a List.not_mem_nil, rfl⟩
  | cons j joins ih =>
      have hmade : ∀ b, Join.Ordered (aliases ((j.target, b) :: row)) joins := fun _ => hjoins.2.2
      rw [trace, List.mem_flatMap]
      constructor
      · rintro ⟨⟨b, i⟩, hentry, hmem⟩
        have hoffer : (j.bindings record row)[i]? = some b :=
          List.mem_zipIdx_iff_getElem?.mp hentry
        exact ((ih (hmade b)).mp hmem).cons hjoins (Join.getElem?_bindings_eq_some_iff.mp hoffer)
      · intro h
        obtain ⟨b, hb, hcontinues⟩ := h.of_cons hjoins
        refine ⟨(b, choice' j.target), ?_, (ih (hmade b)).mpr hcontinues⟩
        exact List.mem_zipIdx_iff_getElem?.mpr (Join.getElem?_bindings_eq_some_iff.mpr hb)

/-- No choice is traced twice: two branches differ in the position of the target. -/
theorem nodup_trace (hjoins : Join.Ordered row.aliases joins) :
    ((trace record joins choice row).map (·.1)).Nodup := by
  induction joins generalizing choice row with
  | nil => exact List.nodup_singleton _
  | cons j joins ih =>
      have htarget := hjoins.target_notMem_targets
      have hmade : ∀ b, Join.Ordered (aliases ((j.target, b) :: row)) joins := fun _ => hjoins.2.2
      have hposition : ∀ (b : Option Json) (i : Nat),
          ∀ c ∈ (trace record joins (Function.update choice j.target i)
            ((j.target, b) :: row)).map (·.1), c j.target = i := by
        intro b i c hc
        obtain ⟨⟨c, row'⟩, hmem, rfl⟩ := List.mem_map.mp hc
        have hcontinues := (mem_trace_iff (hmade b)).mp hmem
        exact (hcontinues.elsewhere _ htarget).trans (Function.update_self _ _ _)
      rw [trace, List.map_flatMap, List.nodup_flatMap]
      refine ⟨fun entry _ => ih (hmade entry.1), ?_⟩
      have hdiffer : (j.bindings record row).zipIdx.Pairwise fun entry entry' =>
          entry.2 ≠ entry'.2 := by
        rw [← List.pairwise_map, List.zipIdx_map_snd]
        exact List.nodup_range'
      refine hdiffer.imp fun hne => List.disjoint_left.mpr fun c hc hc' => hne ?_
      rw [← hposition _ _ c hc, ← hposition _ _ c hc']

/-! ## The rows of a record -/

theorem mem_trace_nil_iff (hjoins : Join.Ordered [] joins) :
    (choice, row) ∈ trace record joins (fun _ => 0) [] ↔
      row.Follows record joins choice ∧ ∀ a, a ∉ joins.map (·.target) → choice a = 0 := by
  have hempty : Join.Ordered (aliases []) joins := hjoins
  rw [mem_trace_iff hempty]
  constructor
  · rintro ⟨⟨new, rfl, hnew⟩, hbinds, hchoice⟩
    rw [List.append_nil] at hbinds ⊢
    exact ⟨⟨hnew, hbinds⟩, hchoice⟩
  · rintro ⟨⟨haliases, hbinds⟩, hchoice⟩
    exact ⟨⟨row, (List.append_nil row).symm, haliases⟩, hbinds, hchoice⟩

/-- **The rows of a record follow the consistent choices**, one row each, and no
choice twice. -/
theorem exists_choices (hjoins : Join.Ordered [] joins) (record : Json) :
    ∃ choices : List Choice, choices.Nodup ∧
      (∀ choice, choice ∈ choices ↔ choice.Consistent record joins) ∧
      List.Forall₂ (fun choice row => row.Follows record joins choice) choices
        (ofRecord record joins) := by
  have hempty : Join.Ordered (aliases []) joins := hjoins
  refine ⟨(trace record joins (fun _ => 0) []).map (·.1), nodup_trace hempty, ?_, ?_⟩
  · intro choice
    rw [List.mem_map]
    constructor
    · rintro ⟨⟨choice, row⟩, hentry, rfl⟩
      obtain ⟨hfollows, hchoice⟩ := (mem_trace_nil_iff hjoins).mp hentry
      exact ⟨⟨row, hfollows⟩, hchoice⟩
    · rintro ⟨⟨row, hfollows⟩, hchoice⟩
      exact ⟨(choice, row), (mem_trace_nil_iff hjoins).mpr ⟨hfollows, hchoice⟩, rfl⟩
  · rw [ofRecord, ← map_snd_trace record joins (fun _ => 0) [], List.forall₂_map_left_iff,
      List.forall₂_map_right_iff, List.forall₂_same]
    rintro ⟨choice, row⟩ hentry
    exact ((mem_trace_nil_iff hjoins).mp hentry).1

/-- What a choice says of aliases that are not joined does not matter. -/
theorem Follows.congr (h : row.Follows record joins choice)
    (hchoice : ∀ j ∈ joins, choice j.target = choice' j.target) :
    row.Follows record joins choice' := by
  refine ⟨h.aliases_eq, fun j hj => ?_⟩
  rw [← hchoice j hj]
  exact h.binds j hj

/-- **The rows of a record are the consistent bindings of the joins.** -/
theorem mem_ofRecord_iff (hjoins : Join.Ordered [] joins) :
    row ∈ ofRecord record joins ↔ ∃ choice, row.Follows record joins choice := by
  rw [ofRecord, ← map_snd_trace record joins (fun _ => 0) [], List.mem_map]
  constructor
  · rintro ⟨⟨choice, row⟩, hentry, rfl⟩
    exact ⟨choice, ((mem_trace_nil_iff hjoins).mp hentry).1⟩
  · rintro ⟨choice, h⟩
    -- the choice is put to 0 where nothing is joined
    refine ⟨(fun a => if a ∈ joins.map (·.target) then choice a else 0, row),
      (mem_trace_nil_iff hjoins).mpr ⟨h.congr fun j hj => ?_, fun a ha => if_neg ha⟩, rfl⟩
    exact (if_pos (List.mem_map_of_mem hj)).symm

theorem expand_ne_nil (record : Json) (joins : List Join) (row : Row) :
    expand record joins [row] ≠ [] := by
  induction joins generalizing row with
  | nil => exact List.cons_ne_nil _ _
  | cons j joins ih =>
      obtain ⟨b, hb⟩ := List.exists_mem_of_ne_nil _ (j.bindings_ne_nil record row)
      obtain ⟨row', hrow'⟩ := List.exists_mem_of_ne_nil _ (ih ((j.target, b) :: row))
      exact List.ne_nil_of_mem (mem_expand_cons.mpr ⟨b, hb, hrow'⟩)

end Row

/-- **Row expansion is the left outer join.**  The joins of a predicate are those of
its paths, and its evaluator makes no others.  A record has a row at least.  Its rows
are the consistent bindings of the joins, in which each alias is bound to what its
join binds at the chosen position (`Join.Binds`); every consistent choice of
positions has one row, in a list of all of them without repetition.  What an alias is
bound to depends on the positions of its own ancestors alone. -/
theorem rows_are_consistent_bindings (e : Entity) (p : Predicate) (record : Json)
    (h : p.ResolvedIn e) :
    (∀ j, j ∈ p.joins ↔ ∃ path ∈ p.paths, j ∈ path.joins) ∧
    (∀ (engine : PatternEngine) distinct ev,
      engine.evaluator ⟨p, distinct⟩ = .ok ev → ev.joins = p.joins) ∧
    Row.ofRecord record p.joins ≠ [] ∧
    (∀ row, row ∈ Row.ofRecord record p.joins ↔ ∃ choice, Row.Follows record p.joins choice row) ∧
    (∃ choices : List Choice, choices.Nodup ∧
      (∀ choice, choice ∈ choices ↔ choice.Consistent record p.joins) ∧
      List.Forall₂ (fun choice row => Row.Follows record p.joins choice row) choices
        (Row.ofRecord record p.joins)) ∧
    (∀ choice row row', Row.Follows record p.joins choice row →
      Row.Follows record p.joins choice row' → row = row') ∧
    ∀ choice choice' row row', Row.Follows record p.joins choice row →
      Row.Follows record p.joins choice' row' → ∀ j ∈ p.joins,
        (∀ a, Join.Ancestor p.joins j.target a → choice a = choice' a) →
          row.bound? j.target = row'.bound? j.target := by
  have hordered : Join.Ordered [] p.joins := Join.plan_ordered p.paths
  refine ⟨fun j => Join.mem_plan_iff h, ?_, Row.expand_ne_nil record p.joins [],
    fun row => Row.mem_ofRecord_iff hordered, Row.exists_choices hordered record,
    fun _ _ _ hrow hrow' => hrow.unique hordered hrow',
    fun _ _ _ _ hrow hrow' => hrow.bound?_congr hordered hrow'⟩
  intro engine distinct ev hev
  obtain ⟨_, _, rfl⟩ := PatternEngine.evaluator_eq_ok_iff.mp hev
  rfl

/-- Elements of elements: the second dog of the second owner has a row, though the
first owner has none, and the house has no garage. -/
theorem rows_are_consistent_bindings_second_dog :
    [(["owners", "dogs"], some (.object [("name", .string "Rex")])),
      (["owners"], some (.object [("dogs", .array [.null, .object [("name", .string "Rex")]])])),
      (["garage"], none)] ∈
    Row.ofRecord
      (.object [("garage", .null), ("owners", .array [.object [("dogs", .array [])],
        .object [("dogs", .array [.null, .object [("name", .string "Rex")]])]])])
      (Predicate.joins
        (.all [.test ⟨[⟨"owners", some (.relation .toMany)⟩, ⟨"dogs", some (.relation .toMany)⟩,
            ⟨"name", none⟩], .string⟩ .isNotNull,
          .test ⟨[⟨"garage", some (.relation .toOne)⟩, ⟨"size", none⟩], .long⟩ .isNull])) := by
  have hresolved : Predicate.ResolvedIn
      ⟨"House",
        [("garage", .link (.relation .toOne) "Garage" [("size", .basic .long)]),
          ("owners", .link (.relation .toMany) "Person"
            [("dogs", .link (.relation .toMany) "Dog" [("name", .basic .string)])])]⟩
      (.all [.test ⟨[⟨"owners", some (.relation .toMany)⟩, ⟨"dogs", some (.relation .toMany)⟩,
          ⟨"name", none⟩], .string⟩ .isNotNull,
        .test ⟨[⟨"garage", some (.relation .toOne)⟩, ⟨"size", none⟩], .long⟩ .isNull]) := by
    refine List.forall_mem_cons.mpr ⟨⟨"owners.dogs.name", rfl⟩, ?_⟩
    exact List.forall_mem_singleton.mpr ⟨"garage.size", rfl⟩
  refine ((rows_are_consistent_bindings _ _ _ hresolved).2.2.2.1 _).mpr
    ⟨fun a => if a = ["garage"] then 0 else 1, rfl, ?_⟩
  refine List.forall_mem_cons.mpr ⟨.null, List.forall_mem_cons.mpr ⟨?_, ?_⟩⟩
  · exact .element rfl
  · exact List.forall_mem_singleton.mpr (.element rfl)

end RecordFilter
