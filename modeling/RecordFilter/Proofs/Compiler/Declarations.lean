/-
# `Proofs.Compiler.Declarations` — the names that a query declares

A query names the entity that it starts from, `root`, and each entity that it joins, by its
alias; and each join says which of these it starts from:

    select root from root left join "P".attributes as "A" … where …

`Text.joinsIn` reads the joins off the text, and reads what the filter has, since no name
holds a double quote (`Filter.joinsIn_clauses`).  So what is said of the joins of a filter
is said of its query:

| | |
| :-- | :-- |
| aliases | no two joins declare the same one |
| starts | a join starts from the root, or from an alias that is declared in front of it |
| the root | it has its name for itself if no relation of the root is named `root` |

The last line has its condition because the root and the joins are named apart nowhere: a
join is named after attributes, and the root is not.
-/
import RecordFilter.Predicate.Query
import RecordFilter.Proofs.Compiler.Filters
import RecordFilter.Proofs.Predicate.JoinSet

namespace RecordFilter

/-- The query behind the entity that it selects. -/
def Filter.clauses (f : Filter) : String :=
  String.join (f.joins.map fun j => " " ++ j.render) ++ " where " ++ f.predicate.render

/-! ## Reading the joins -/

namespace Text

/-- The joins at the front of a text that is cut at its double quotes: of each, the name
that it starts from and the name that it declares. -/
def joinsIn : List (List Char) → List (String × String)
  | behind :: start :: _ :: name :: rest =>
    if behind = " left join ".toList then
      (String.ofList start, String.ofList name) :: joinsIn rest
    else []
  | _ => []

theorem joinsIn_left_join (start attributes name : List Char) (rest : List (List Char)) :
    joinsIn (" left join ".toList :: start :: attributes :: name :: rest) =
      (String.ofList start, String.ofList name) :: joinsIn rest :=
  if_pos rfl

theorem joinsIn_of_ne {behind : List Char} (h : behind ≠ " left join ".toList)
    (rest : List (List Char)) : joinsIn (behind :: rest) = [] := by
  rw [joinsIn.eq_def]
  split
  · next heq =>
      cases heq
      exact if_neg h
  · rfl

theorem joinsIn_where (text : List Char) : joinsIn (cut '"' (" where ".toList ++ text)) = [] := by
  obtain ⟨piece, pieces, hcut⟩ :=
    cut_front (show '"' ∉ " where ".toList by decide) text
  rw [hcut]
  refine joinsIn_of_ne (fun h => ?_) pieces
  have hsecond : some 'w' = some 'l' := congrArg (fun chars : List Char => chars[1]?) h
  cases hsecond

end Text

namespace ResolvedPath.Lacks

variable {p : ResolvedPath} {j : Join}

theorem cut_join (h : p.Lacks '"') (hj : j ∈ p.joins) (rest : List Char) :
    Text.cut '"' ((" " ++ j.render).toList ++ rest) =
      " left join ".toList :: j.start.toList ::
        ('.' :: ((Text.joinDots j.attributes).toList ++ " as ".toList)) ::
          j.target.label.toList :: Text.cut '"' rest := by
  have hrender : (" " ++ j.render).toList ++ rest =
      " left join ".toList ++ '"' :: (j.start.toList ++ '"' ::
        ('.' :: ((Text.joinDots j.attributes).toList ++ " as ".toList) ++ '"' ::
          (j.target.label.toList ++ '"' :: rest))) := by
    show (" " ++ ("left join \"" ++ j.start ++ "\"." ++ Text.joinDots j.attributes ++ " as \"" ++
      j.target.label ++ "\"")).toList ++ rest = _
    simp only [String.toList_append, List.append_assoc, List.cons_append]
    rfl
  have hattributes : '"' ∉ '.' :: ((Text.joinDots j.attributes).toList ++ " as ".toList) :=
    List.not_mem_cons_of_ne_of_not_mem h.ne_dot
      (List.not_mem_append (h.attributes hj) (by decide))
  rw [hrender, Text.cut_append (by decide), Text.cut_append (h.start (by decide) hj),
    Text.cut_append hattributes, Text.cut_append (h.target hj)]

end ResolvedPath.Lacks

/-- The joins of paths are read off their texts, one after another. -/
theorem Join.joinsIn_joins {paths : List ResolvedPath} (h : ∀ p ∈ paths, p.Lacks '"')
    (rest : List Char) {joins : List Join} (hjoins : ∀ j ∈ joins, ∃ p ∈ paths, j ∈ p.joins) :
    Text.joinsIn (Text.cut '"'
        ((String.join (joins.map fun j => " " ++ j.render)).toList ++ rest)) =
      joins.map (fun j => (j.start, j.target.label)) ++ Text.joinsIn (Text.cut '"' rest) := by
  induction joins with
  | nil => rfl
  | cons j joins ih =>
      obtain ⟨⟨p, hp, hj⟩, hrest⟩ := List.forall_mem_cons.mp hjoins
      rw [List.map_cons, String.join_cons, String.toList_append, List.append_assoc,
        (h p hp).cut_join hj, Text.joinsIn_left_join, ih hrest, String.ofList_toList,
        String.ofList_toList]
      rfl

namespace Filter

variable {f : Filter}

/-- **The joins of a filter are read off its query.** -/
theorem joinsIn_clauses (h : ∀ path ∈ f.predicate.paths, path.Lacks '"') :
    Text.joinsIn (Text.cut '"' f.clauses.toList) =
      f.joins.map fun j => (j.start, j.target.label) := by
  have hjoins : ∀ j ∈ f.joins, ∃ p ∈ f.predicate.paths, j ∈ p.joins :=
    fun j hj => Join.mem_of_mem_plan hj
  have hclauses : f.clauses.toList =
      (String.join (f.joins.map fun j => " " ++ j.render)).toList ++
        (" where ".toList ++ f.predicate.render.toList) := by
    simp only [clauses, String.toList_append, List.append_assoc]
  rw [hclauses, Join.joinsIn_joins h _ hjoins, Text.joinsIn_where, List.append_nil]

theorem append_clauses (opening : String) (f : Filter) :
    opening ++ String.join (f.joins.map fun j => " " ++ j.render) ++ " where " ++
      f.predicate.render = opening ++ f.clauses :=
  (congrArg (· ++ f.predicate.render) (String.append_assoc ..)).trans (String.append_assoc ..)

theorem render_eq_clauses (h : f.distinct = false) :
    f.render = "select root from root" ++ f.clauses := by
  obtain ⟨predicate, distinct⟩ := f
  cases h
  exact append_clauses "select root from root" _

theorem render_asDistinct_eq_clauses (f : Filter) :
    f.asDistinct.render = "select distinct root from root" ++ f.clauses :=
  append_clauses "select distinct root from root" f

end Filter

/-! ## The name of the root -/

@[simp]
theorem Alias.label_root : Alias.label [Alias.root] = Alias.root := rfl

/-- An alias is called as the root is only if it is the name of a relation. -/
theorem Alias.label_eq_root_iff {a : Alias} (ha : a.Dotless) :
    a.label = Alias.root ↔ a = [Alias.root] := by
  have hroot : Alias.Dotless [Alias.root] :=
    ⟨List.cons_ne_nil _ _, List.forall_mem_singleton.mpr (by decide)⟩
  rw [← Alias.label_root]
  exact Alias.label_inj ha hroot

/-- A join seems to start from the root if it does, or if it starts from such an alias. -/
theorem Entity.Resolves.start_eq_root_iff {e : Entity} {p : ResolvedPath} {j : Join}
    (h : e.Resolves p) (hj : j ∈ p.joins) :
    j.start = Alias.root ↔ j.parent = none ∨ j.parent = some [Alias.root] := by
  rw [Join.start]
  cases ha : j.parent with
  | none => exact ⟨fun _ => .inl rfl, fun _ => rfl⟩
  | some a =>
      obtain ⟨k, hk, rfl, _⟩ := ResolvedPath.joins_parent hj ha
      have hlabel := Alias.label_eq_root_iff (h.target_dotless hk)
      constructor
      · intro hstart
        exact .inr (congrArg some (hlabel.mp hstart))
      · rintro (hparent | hparent)
        · cases hparent
        · exact hlabel.mpr (Option.some.inj hparent)

/-! ## Queries -/

/-- **The names in a query.**  The text of a compiled filter holds its joins: what each
starts from, and the alias that it declares.  No two of them declare the same alias, and
each starts from the root, under its name, or from an alias that is declared in front of
it.  The root and the aliases have different names if and only if no relation of the root
entity is joined that is named as the root is; and a join that is said to start from that
name starts from the root, or from such a relation. -/
theorem declared_names (c : Compiler) (e : Entity) (query : Option String) (f : Filter)
    (h : c.compile e query = .ok (some f)) :
    (f.render = "select root from root" ++ f.clauses ∧
      f.asDistinct.render = "select distinct root from root" ++ f.clauses ∧
      Text.joinsIn (Text.cut '"' f.clauses.toList) =
        f.joins.map fun j => (j.start, j.target.label)) ∧
    (f.joins.map (·.target.label)).Nodup ∧
    (∀ front j back, f.joins = front ++ j :: back →
      (j.parent = none ∧ j.start = Alias.root) ∨
        ∃ k ∈ front, j.parent = some k.target ∧ j.start = k.target.label) ∧
    ((Alias.root :: f.joins.map (·.target.label)).Nodup ↔
      ∀ j ∈ f.joins, j.target ≠ [Alias.root]) ∧
    ∀ j ∈ f.joins, (j.start = Alias.root ↔ j.parent = none ∨ j.parent = some [Alias.root]) := by
  obtain ⟨hplain, hresolved⟩ := Compiler.resolvedIn_of_compile h
  have hlacks : ∀ path ∈ f.predicate.paths, path.Lacks '"' :=
    fun path hpath => (Compiler.spelled_of_compile h path hpath).lacks rfl
  have hdistinct : f.distinct = false := by
    rw [hplain]
    rfl
  have hlabels : (f.joins.map (·.target.label)).Nodup := Join.nodup_labels hresolved
  have hnamed : ∀ j ∈ f.joins, (j.target.label = Alias.root ↔ j.target = [Alias.root]) := by
    intro j hj
    obtain ⟨p, hp, hjp⟩ := Join.mem_of_mem_plan hj
    exact Alias.label_eq_root_iff ((hresolved p hp).target_dotless hjp)
  refine ⟨⟨?_, ?_, ?_⟩, hlabels, ?_, ?_, ?_⟩
  · exact Filter.render_eq_clauses hdistinct
  · exact f.render_asDistinct_eq_clauses
  · exact Filter.joinsIn_clauses hlacks
  · intro front j back hjoins
    rw [Join.start]
    cases ha : j.parent with
    | none => exact .inl ⟨rfl, rfl⟩
    | some a =>
        obtain ⟨k, hk, rfl⟩ := Join.parent_before hjoins ha
        exact .inr ⟨k, hk, rfl, rfl⟩
  · rw [List.nodup_cons, List.mem_map]
    constructor
    · rintro ⟨hroot, _⟩ j hj htarget
      exact hroot ⟨j, hj, (hnamed j hj).mpr htarget⟩
    · intro htargets
      refine ⟨?_, hlabels⟩
      rintro ⟨j, hj, hlabel⟩
      exact htargets j hj ((hnamed j hj).mp hlabel)
  · intro j hj
    obtain ⟨p, hp, hjp⟩ := Join.mem_of_mem_plan hj
    exact (hresolved p hp).start_eq_root_iff hjp

/-- A join that starts from another one, and reads an embedded value on the way: three
names, all different. -/
theorem declared_names_manager :
    ∃ f,
      Compiler.standard.compile
          ⟨"Employee", [("dept", .to (.relation .toOne) ⟨"Department", [("office", .to .embedded
            ⟨"Office", [("manager", .to (.relation .toOne)
              ⟨"Person", [("age", .basic .integer)]⟩)]⟩)]⟩)]⟩
          (some "dept.office.manager.age=gt=40") = .ok (some f) ∧
      f.joins.map (fun j => (j.start, j.target.label)) =
        [("root", "dept"), ("dept", "dept.office.manager")] ∧
      (Alias.root :: f.joins.map (·.target.label)).Nodup := by
  have hparse : Compiler.standard.parse "dept.office.manager.age=gt=40" =
      .ok (.comparison ⟨"dept.office.manager.age", .greaterThan, ["40"]⟩) :=
    toOption_eq_some_iff.mp (by decide +kernel)
  have hcompile : Compiler.standard.compile
      ⟨"Employee", [("dept", .to (.relation .toOne) ⟨"Department", [("office", .to .embedded
        ⟨"Office", [("manager", .to (.relation .toOne)
          ⟨"Person", [("age", .basic .integer)]⟩)]⟩)]⟩)]⟩
      (some "dept.office.manager.age=gt=40") =
      .ok (some (.ofPredicate (.test
        ⟨[⟨"dept", some (.relation .toOne)⟩, ⟨"office", some .embedded⟩,
          ⟨"manager", some (.relation .toOne)⟩, ⟨"age", none⟩], .integer⟩
        (.compareText .greater "40")))) := by
    rw [Compiler.compile, if_neg (by decide), hparse]
    rfl
  obtain ⟨-, -, -, hnames, -⟩ := declared_names _ _ _ _ hcompile
  exact ⟨_, hcompile, by decide +kernel, hnames.mpr (by decide +kernel)⟩

/-- A relation named `root`: its alias is the name of the root, and the join behind it
seems to start there. -/
theorem root_relation_shares_its_name :
    ∃ f,
      Compiler.standard.compile
          ⟨"E", [("root", .to (.relation .toOne) ⟨"T", [("b", .to (.relation .toOne)
            ⟨"U", [("x", .basic .integer)]⟩)]⟩)]⟩
          (some "root.b.x==1") = .ok (some f) ∧
      f.render = "select root from root left join \"root\".root as \"root\"" ++
        " left join \"root\".b as \"root.b\" where \"root.b\".x = 1" ∧
      ¬ (Alias.root :: f.joins.map (·.target.label)).Nodup ∧
      ∃ j ∈ f.joins, j.start = Alias.root ∧ j.parent = some [Alias.root] := by
  have hparse : Compiler.standard.parse "root.b.x==1" =
      .ok (.comparison ⟨"root.b.x", .equal, ["1"]⟩) :=
    toOption_eq_some_iff.mp (by decide +kernel)
  have hcompile : Compiler.standard.compile
      ⟨"E", [("root", .to (.relation .toOne) ⟨"T", [("b", .to (.relation .toOne)
        ⟨"U", [("x", .basic .integer)]⟩)]⟩)]⟩
      (some "root.b.x==1") =
      .ok (some (.ofPredicate (.test
        ⟨[⟨"root", some (.relation .toOne)⟩, ⟨"b", some (.relation .toOne)⟩, ⟨"x", none⟩],
          .integer⟩ (.equal (.int .integer 1))))) := by
    rw [Compiler.compile, if_neg (by decide), hparse]
    rfl
  refine ⟨_, hcompile, by decide +kernel, by decide +kernel, ?_⟩
  exact ⟨⟨["root", "b"], some ["root"], ["b"], .toOne⟩, by decide +kernel, rfl, rfl⟩

end RecordFilter
