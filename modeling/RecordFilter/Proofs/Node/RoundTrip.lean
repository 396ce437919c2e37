/-
# `Proofs.Node.RoundTrip` — writing and reading are inverse

The trees that reading can return are the well-formed ones (`Node.WellFormed`),
and each of them is read back from its written form:

    n.WellFormed ops        ⟹  Node.parse n.render ops = .ok n
    Node.parse text ops = .ok n  ⟹  n.WellFormed ops

The first goes through two layers at once.  `Printed` says of a part of a tree
that its text is read as some tokens, whatever follows, and that these tokens
derive it; it is proved from the arguments outwards, and the grammar does the
rest (`Proofs.Node.Acceptance`).  What follows a bare word must not go on with
it, and that is the one condition: `Token.Breaks`.

The second is an induction over derivations from well-spelled tokens.
-/
import RecordFilter.Node.Printer
import RecordFilter.Proofs.Node.Acceptance
import RecordFilter.Proofs.Token.Lexeme

namespace RecordFilter

open Grammar

/-! ## Well-formed trees -/

/-- A clause that can be written: what its selector, its operator and the number
of its arguments must be.  The texts of the arguments are free. -/
structure Comparison.WellFormed (ops : OperatorSet) (clause : Comparison) : Prop where
  selector_ne_empty : clause.selector ≠ ""
  selector_unreserved : ∀ c ∈ clause.selector.toList, Token.isUnreserved c = true
  operator_mem : clause.operator ∈ ops.toList
  arguments_ne_nil : clause.arguments ≠ []
  one_argument : clause.operator.takesList = false → clause.arguments.length = 1

/-- A tree that can be written: two members or more to every group. -/
inductive Node.WellFormed (ops : OperatorSet) : Node → Prop
  | all {children : List Node} :
      2 ≤ children.length → (∀ child ∈ children, child.WellFormed ops) →
      WellFormed ops (.all children)
  | any {children : List Node} :
      2 ≤ children.length → (∀ child ∈ children, child.WellFormed ops) →
      WellFormed ops (.any children)
  | comparison {clause : Comparison} :
      clause.WellFormed ops → WellFormed ops (.comparison clause)

theorem Node.group_eq_self {make : List Node → Node} {ns : List Node} (h : 2 ≤ ns.length) :
    Node.group make ns = make ns := by
  match ns, h with
  | _ :: _ :: _, _ => rfl

/-! ## Quoted arguments -/

namespace Token

/-- The printer's way of writing: a backslash where there has to be one. -/
theorem quotes_escaped (text : List Char) :
    Quotes '"' (text.flatMap fun c => if c = '\\' ∨ c = '"' then ['\\', c] else [c]) text := by
  induction text with
  | nil => exact .nil
  | cons c text ih =>
      rw [List.flatMap_cons]
      split
      · exact .escaped ih
      · next h =>
          rw [not_or] at h
          exact .plain h.2 h.1 ih

end Token

/-! ## Texts that are read as known tokens -/

namespace Lexer

theorem passes_bare {text rest : List Char} (hne : text ≠ [])
    (hall : ∀ c ∈ text, Token.isUnreserved c = true) (hrest : Token.Breaks rest) :
    Passes (text ++ rest) [.bare (String.ofList text)] rest := by
  refine passes_one ?_ (Token.scan_bare hne hall hrest)
  match text, hne, hall with
  | c :: text, _, hall => exact Token.trimLeft_of_unreserved (hall c List.mem_cons_self) _

theorem passes_semicolon (rest : List Char) : Passes (';' :: rest) [.semicolon] rest :=
  passes_one rfl rfl

theorem passes_comma (rest : List Char) : Passes (',' :: rest) [.comma] rest :=
  passes_one rfl rfl

theorem passes_openParen (rest : List Char) : Passes ('(' :: rest) [.openParen] rest :=
  passes_one rfl rfl

theorem passes_closeParen (rest : List Char) : Passes (')' :: rest) [.closeParen] rest :=
  passes_one rfl rfl

/-- A canonical symbol ends where it ends: what follows is never part of it. -/
theorem passes_operator (op : Operator) (rest : List Char) :
    Passes (op.symbol.toList ++ rest) [.operator op.symbol] rest := by
  cases op <;> exact passes_one rfl rfl

theorem passes_quoteArgument (text rest : List Char) :
    Passes (Comparison.quoteArgument text ++ rest) [.quoted (String.ofList text)] rest := by
  rw [Comparison.quoteArgument, List.append_assoc, List.cons_append]
  exact passes_quoted (.inl rfl) (Token.quotes_escaped text) rest

end Lexer

/-! ## Parts of a tree -/

/-- A part of a tree is printed by `text`: its text, in front of anything that
breaks a bare word, is read as tokens from which the part derives. -/
def Printed {α : Type} (Part : List Token → α → Prop) (text : α → String) (x : α) : Prop :=
  ∃ ts, Part ts x ∧
    ∀ rest, Token.Breaks rest → Lexer.Passes ((text x).toList ++ rest) ts rest

theorem printed_argument (a : String) :
    Printed (fun ts a => ∃ t, ts = [t] ∧ Value t a) Comparison.renderArgument a := by
  unfold Printed Comparison.renderArgument
  by_cases hbare : (!a.isEmpty && a.toList.all Token.isUnreserved) = true
  · rw [if_pos hbare]
    simp only [Bool.and_eq_true, Bool.not_eq_true', List.all_eq_true] at hbare
    refine ⟨[.bare a], ⟨_, rfl, .bare a⟩, fun rest hrest => ?_⟩
    have hne : a.toList ≠ [] := by
      intro hnil
      rw [String.toList_eq_nil_iff.mp hnil] at hbare
      exact absurd hbare.1 (by decide)
    have hpasses := Lexer.passes_bare hne hbare.2 hrest
    rwa [String.ofList_toList] at hpasses
  · rw [if_neg hbare]
    refine ⟨[.quoted a], ⟨_, rfl, .quoted a⟩, fun rest _ => ?_⟩
    have hpasses := Lexer.passes_quoteArgument a.toList rest
    rw [String.ofList_toList] at hpasses
    rw [String.toList_ofList]
    exact hpasses

/-- Parts that a separator joins.  `hone` and `hmore` are the two rules of the
repetition, `hsep` and `hbreak` what is asked of the separator. -/
theorem printed_intercalate {α : Type} {Part : List Token → α → Prop}
    {Parts : List Token → List α → Prop} {text : α → String} {s : String} {c : Char} {sep : Token}
    (hs : s.toList = [c])
    (hone : ∀ {ts x}, Part ts x → Parts ts [x])
    (hmore : ∀ {ts us xs x}, Parts ts xs → Part us x → Parts (ts ++ [sep] ++ us) (xs ++ [x]))
    (hsep : ∀ rest, Lexer.Passes (c :: rest) [sep] rest) (hbreak : Token.isUnreserved c = false)
    {xs : List α} (hne : xs ≠ []) (hxs : ∀ x ∈ xs, Printed Part text x) :
    Printed Parts (fun xs => s.intercalate (xs.map text)) xs := by
  have hgrow : ∀ ys xs : List α, xs ≠ [] → (∀ y ∈ ys, Printed Part text y) →
      Printed Parts (fun xs => s.intercalate (xs.map text)) xs →
      Printed Parts (fun xs => s.intercalate (xs.map text)) (xs ++ ys) := by
    intro ys
    induction ys with
    | nil => intro xs _ _ h; rwa [List.append_nil]
    | cons y ys ih =>
        intro xs hne hys ⟨ts, hts, hpasses⟩
        obtain ⟨us, hus, hpasses'⟩ := hys y List.mem_cons_self
        rw [List.append_cons]
        refine ih (xs ++ [y]) (by simp) (fun z hz => hys z (List.mem_cons_of_mem _ hz))
          ⟨ts ++ [sep] ++ us, hmore hts hus, fun rest hrest => ?_⟩
        have htext : (s.intercalate ((xs ++ [y]).map text)).toList ++ rest =
            (s.intercalate (xs.map text)).toList ++
              (c :: ((text y).toList ++ rest)) := by
          rw [List.map_append, List.map_singleton,
            String.intercalate_append_of_ne_nil (by simpa using hne) (List.cons_ne_nil _ _),
            String.intercalate_singleton, String.toList_append, String.toList_append, hs,
            List.append_assoc, List.append_assoc]
          rfl
        rw [htext]
        exact ((hpasses _ (Token.breaks_cons hbreak _)).trans (hsep _)).trans (hpasses' rest hrest)
  match xs, hne with
  | x :: xs, _ =>
      obtain ⟨ts, hts, hpasses⟩ := hxs x List.mem_cons_self
      refine hgrow xs [x] (List.cons_ne_nil _ _) (fun y hy => hxs y (List.mem_cons_of_mem _ hy))
        ⟨ts, hone hts, fun rest hrest => ?_⟩
      dsimp only
      rw [List.map_singleton, String.intercalate_singleton]
      exact hpasses rest hrest

/-! ### From the arguments outwards -/

theorem printed_values {as : List String} (hne : as ≠ []) :
    Printed Values (fun as => ",".intercalate (as.map Comparison.renderArgument)) as := by
  refine printed_intercalate (s := ",") rfl ?_ ?_ Lexer.passes_comma rfl hne
    (fun a _ => printed_argument a)
  · rintro ts a ⟨t, rfl, ht⟩
    exact .one ht
  · rintro ts us as a hts ⟨t, rfl, ht⟩
    exact .more hts rfl ht

theorem passes_group {text : String} {ts : List Token}
    (h : ∀ rest, Token.Breaks rest → Lexer.Passes (text.toList ++ rest) ts rest)
    (rest : List Char) :
    Lexer.Passes (("(" ++ text ++ ")").toList ++ rest)
      (.openParen :: ts ++ [.closeParen]) rest := by
  have htext : ("(" ++ text ++ ")").toList ++ rest = '(' :: (text.toList ++ (')' :: rest)) := by
    rw [String.toList_append, String.toList_append, List.append_assoc, List.append_assoc]
    rfl
  rw [htext]
  exact ((Lexer.passes_openParen _).trans (h _ (Token.breaks_cons rfl rest))).trans
    (Lexer.passes_closeParen rest)

theorem printed_arguments {ops : OperatorSet} {clause : Comparison} (h : clause.WellFormed ops) :
    ∃ text : String, clause.render = clause.selector ++ clause.operator.symbol ++ text ∧
      Printed Arguments (fun _ => text) clause.arguments := by
  obtain ⟨selector, op, arguments⟩ := clause
  -- one argument stands alone unless its operator takes a list; all others are in parentheses
  by_cases hlone : ∃ a, arguments = [a] ∧ op.takesList = false
  · obtain ⟨a, rfl, hlist⟩ := hlone
    refine ⟨Comparison.renderArgument a, ?_, ?_⟩
    · unfold Comparison.render
      dsimp only
      rw [hlist]
      rfl
    · obtain ⟨_, ⟨t, rfl, ht⟩, hpasses⟩ := printed_argument a
      exact ⟨[t], .lone ht, hpasses⟩
  · refine ⟨"(" ++ ",".intercalate (arguments.map Comparison.renderArgument) ++ ")", ?_, ?_⟩
    · unfold Comparison.render
      dsimp only
      split
      · next a =>
          have hlist : op.takesList = true := by
            rw [← Bool.not_eq_false]
            exact fun hlist => hlone ⟨a, rfl, hlist⟩
          rw [hlist]
          rfl
      · rfl
    · obtain ⟨ts, hts, hpasses⟩ := printed_values h.arguments_ne_nil
      exact ⟨_, .list hts, fun rest _ => passes_group hpasses rest⟩

theorem breaks_operator (op : Operator) (rest : List Char) :
    Token.Breaks (op.symbol.toList ++ rest) := by
  cases op <;> exact Token.breaks_cons rfl _

theorem printed_comparison {ops : OperatorSet} {clause : Comparison} (h : clause.WellFormed ops) :
    Printed (Constraint ops) Node.render (.comparison clause) := by
  obtain ⟨text, hrender, ts, hts, hpasses⟩ := printed_arguments h
  have hne : clause.selector.toList ≠ [] :=
    fun hnil => h.selector_ne_empty (String.toList_eq_nil_iff.mp hnil)
  have hsymbol : clause.operator.symbol ∈ clause.operator.symbols := by
    cases clause.operator <;> exact List.mem_cons_self
  have hcount : clause.operator.takesList = true ∨ clause.arguments.length = 1 := by
    cases hlist : clause.operator.takesList with
    | true => exact .inl rfl
    | false => exact .inr (h.one_argument hlist)
  refine ⟨_, .comparison ⟨h.operator_mem, hsymbol⟩ hts hcount, fun rest hrest => ?_⟩
  rw [Node.render, hrender, String.toList_append, String.toList_append, List.append_assoc,
    List.append_assoc]
  have hselector := Lexer.passes_bare hne h.selector_unreserved
    (breaks_operator clause.operator (text.toList ++ rest))
  rw [String.ofList_toList] at hselector
  exact (hselector.trans (Lexer.passes_operator clause.operator _)).trans (hpasses rest hrest)

@[simp]
theorem renderList_eq_map (ns : List Node) : Node.renderList ns = ns.map Node.render := by
  induction ns with
  | nil => rfl
  | cons n ns ih => rw [Node.renderList, ih, List.map_cons]

/-- **What is written is read as it was written.** -/
theorem printed_node {ops : OperatorSet} {n : Node} (h : n.WellFormed ops) :
    Printed (Constraint ops) Node.render n := by
  induction h with
  | @all children hlen _ ih =>
      have hne : children ≠ [] := by
        rintro rfl
        exact absurd hlen (by decide)
      obtain ⟨ts, hts, hpasses⟩ :=
        @printed_intercalate _ _ (Conjunction ops) _ ";" ';' .semicolon rfl
          .one (.more · (.inl rfl) ·) Lexer.passes_semicolon rfl _ hne ih
      have hgroup : Constraint ops _ (Node.group .any [Node.group .all children]) :=
        .group (.one hts)
      rw [Node.group_eq_self hlen] at hgroup
      refine ⟨_, hgroup, fun rest _ => ?_⟩
      rw [Node.render, renderList_eq_map]
      exact passes_group hpasses rest
  | @any children hlen _ ih =>
      have hne : children ≠ [] := by
        rintro rfl
        exact absurd hlen (by decide)
      obtain ⟨ts, hts, hpasses⟩ :=
        @printed_intercalate _ _ (Alternatives ops) _ "," ',' .comma rfl
          (fun h => .one (.one h)) (fun h h' => .more h (.inl rfl) (.one h'))
          Lexer.passes_comma rfl _ hne ih
      have hgroup : Constraint ops _ (Node.group .any children) := .group hts
      rw [Node.group_eq_self hlen] at hgroup
      refine ⟨_, hgroup, fun rest _ => ?_⟩
      rw [Node.render, renderList_eq_map]
      exact passes_group hpasses rest
  | comparison h => exact printed_comparison h

theorem Node.WellFormed.parse_render_eq {ops : OperatorSet} {n : Node} (h : n.WellFormed ops) :
    Node.parse n.render ops = .ok n := by
  obtain ⟨ts, hts, hpasses⟩ := printed_node h
  have hall := hpasses [] (fun _ h => nomatch h)
  rw [List.append_nil] at hall
  exact Node.parse_of_expression hall.readsAll hts.expression

/-! ## What is read is well-formed -/

section
variable {ops : OperatorSet}

theorem Node.WellFormed.group_all {ns : List Node} (hne : ns ≠ [])
    (h : ∀ n ∈ ns, n.WellFormed ops) : (Node.group .all ns).WellFormed ops := by
  match ns, hne with
  | [n], _ => exact h n List.mem_cons_self
  | _ :: _ :: _, _ => exact .all (Nat.le_add_left _ _) h

theorem Node.WellFormed.group_any {ns : List Node} (hne : ns ≠ [])
    (h : ∀ n ∈ ns, n.WellFormed ops) : (Node.group .any ns).WellFormed ops := by
  match ns, hne with
  | [n], _ => exact h n List.mem_cons_self
  | _ :: _ :: _, _ => exact .any (Nat.le_add_left _ _) h

theorem wellFormed_concat {ns : List Node} {n : Node}
    (h : ns ≠ [] ∧ ∀ m ∈ ns, m.WellFormed ops) (hn : n.WellFormed ops) :
    ns ++ [n] ≠ [] ∧ ∀ m ∈ ns ++ [n], m.WellFormed ops := by
  refine ⟨List.append_ne_nil_of_left_ne_nil h.1 _, fun m hm => ?_⟩
  rcases List.mem_append.mp hm with hm | hm
  · exact h.2 m hm
  · exact List.mem_singleton.mp hm ▸ hn

mutual

theorem wellFormed_of_constraint : ∀ {ts : List Token} {n : Node}, Constraint ops ts n →
    (∀ t ∈ ts, t.WellSpelled) → n.WellFormed ops
  | _, _, .group halts, hts => by
      have hns := wellFormed_of_alternatives halts
        (fun t ht => hts t (List.mem_append_left _ (List.mem_cons_of_mem _ ht)))
      exact .group_any hns.1 hns.2
  | _, _, .comparison hspells hargs hcount, hts => by
      have hselector := hts _ List.mem_cons_self
      refine .comparison ⟨hselector.1, hselector.2, hspells.1, ?_, fun hlist => ?_⟩
      · exact List.ne_nil_of_length_pos hargs.length_pos
      · rcases hcount with hcount | hcount
        · rw [hlist] at hcount
          cases hcount
        · exact hcount

theorem wellFormed_of_conjunction : ∀ {ts : List Token} {ns : List Node}, Conjunction ops ts ns →
    (∀ t ∈ ts, t.WellSpelled) → ns ≠ [] ∧ ∀ n ∈ ns, n.WellFormed ops
  | _, _, .one h, hts => by
      have hn := wellFormed_of_constraint h hts
      exact ⟨List.cons_ne_nil _ _, fun m hm => List.mem_singleton.mp hm ▸ hn⟩
  | _, _, .more h _ hn, hts =>
      wellFormed_concat
        (wellFormed_of_conjunction h
          (fun t ht => hts t (List.mem_append_left _ (List.mem_append_left _ ht))))
        (wellFormed_of_constraint hn (fun t ht => hts t (List.mem_append_right _ ht)))

theorem wellFormed_of_alternatives : ∀ {ts : List Token} {ns : List Node}, Alternatives ops ts ns →
    (∀ t ∈ ts, t.WellSpelled) → ns ≠ [] ∧ ∀ n ∈ ns, n.WellFormed ops
  | _, _, .one h, hts => by
      have hns := wellFormed_of_conjunction h hts
      have hn := Node.WellFormed.group_all hns.1 hns.2
      exact ⟨List.cons_ne_nil _ _, fun m hm => List.mem_singleton.mp hm ▸ hn⟩
  | _, _, .more h _ hns, hts => by
      have hns := wellFormed_of_conjunction hns (fun t ht => hts t (List.mem_append_right _ ht))
      exact wellFormed_concat
        (wellFormed_of_alternatives h
          (fun t ht => hts t (List.mem_append_left _ (List.mem_append_left _ ht))))
        (.group_all hns.1 hns.2)

end

end

theorem Node.wellFormed_of_parse {text : String} {ops : OperatorSet} {n : Node}
    (h : Node.parse text ops = .ok n) : n.WellFormed ops := by
  obtain ⟨ts, ⟨placed, l', hyields, -, rfl⟩, ⟨halts⟩⟩ := Node.expression_of_parse h
  have hspelled : ∀ t ∈ placed.map Prod.fst, t.WellSpelled := by
    intro t ht
    obtain ⟨p, hp, rfl⟩ := List.mem_map.mp ht
    exact hyields.wellSpelled p hp
  have hns := wellFormed_of_alternatives halts hspelled
  exact .group_any hns.1 hns.2

/-! ## The theorem -/

/-- **Writing and reading are inverse.**  Every well-formed tree is read back
from its text, and reading returns no others, so that the text of a tree that
was read is read as that tree again. -/
theorem parse_render_round_trip (ops : OperatorSet) (n : Node) :
    (n.WellFormed ops → Node.parse n.render ops = .ok n) ∧
      ∀ text, Node.parse text ops = .ok n →
        n.WellFormed ops ∧ Node.parse n.render ops = .ok n :=
  ⟨fun h => h.parse_render_eq, fun _ h =>
    ⟨Node.wellFormed_of_parse h, (Node.wellFormed_of_parse h).parse_render_eq⟩⟩

/-- The words `and` and `or` as selectors and arguments, an empty argument, and
one with a quote, a backslash and a blank. -/
theorem parse_render_round_trip_words :
    (Node.any [.comparison ⟨"and", .isIn, ["", "a\"\\ b"]⟩,
        .comparison ⟨"or", .isNull, ["and"]⟩]).WellFormed .extended ∧
      Node.parse "and=in=('', 'a\"\\\\ b') or or=isnull=and" .extended =
        .ok (.any [.comparison ⟨"and", .isIn, ["", "a\"\\ b"]⟩,
          .comparison ⟨"or", .isNull, ["and"]⟩]) ∧
      Node.parse (Node.any [.comparison ⟨"and", .isIn, ["", "a\"\\ b"]⟩,
          .comparison ⟨"or", .isNull, ["and"]⟩]).render .extended =
        .ok (.any [.comparison ⟨"and", .isIn, ["", "a\"\\ b"]⟩,
          .comparison ⟨"or", .isNull, ["and"]⟩]) := by
  have hparse : Node.parse "and=in=('', 'a\"\\\\ b') or or=isnull=and" .extended =
      .ok (.any [.comparison ⟨"and", .isIn, ["", "a\"\\ b"]⟩,
        .comparison ⟨"or", .isNull, ["and"]⟩]) := toOption_eq_some_iff.mp (by decide +kernel)
  have hwell : (Node.any [.comparison ⟨"and", .isIn, ["", "a\"\\ b"]⟩,
      .comparison ⟨"or", .isNull, ["and"]⟩]).WellFormed .extended := by
    refine .any (Nat.le_refl 2) (List.forall_mem_cons.mpr ⟨?_, List.forall_mem_singleton.mpr ?_⟩)
    · exact .comparison ⟨by decide, List.all_eq_true.mp rfl, by decide, by decide, by decide⟩
    · exact .comparison ⟨by decide, List.all_eq_true.mp rfl, by decide, by decide, by decide⟩
  have hread := (parse_render_round_trip .extended _).2 _ hparse
  exact ⟨hread.1, hparse, (parse_render_round_trip .extended _).1 hwell⟩

end RecordFilter
