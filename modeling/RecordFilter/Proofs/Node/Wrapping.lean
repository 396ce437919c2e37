/-
# `Proofs.Node.Wrapping` — expressions between parentheses

An expression that is put between parentheses, as it was written, is read there as
it is read alone, whatever stands around the parentheses.  Two seams have to hold.

    characters   a closing parenthesis goes on with no token, so a text yields the
                 tokens in front of one that it yields alone   (`ReadsAll.passes_closed`)
    tokens       a derivation of the expression, between parentheses, is one of a
                 constraint with the same tree                 (`Expression.constraint`)

What was accepted alone has its quotes closed and its parentheses in pairs; so
nothing of it can reach over the parenthesis behind it, nor can that one close
anything inside.  Two expressions wrapped and joined give the group of their two
trees (`parse_wrapped_pair`).
-/
import RecordFilter.Proofs.Compiler.Paths

namespace RecordFilter

open Grammar

/-! ## In front of a closing parenthesis -/

namespace Text

variable {p : Char → Bool} {c : Char}

theorem takeWhile_append_cons (hc : p c = false) (text rest : List Char) :
    (text ++ c :: rest).takeWhile p = text.takeWhile p := by
  have hne : ¬ p c = true := by
    rw [hc]
    exact Bool.false_ne_true
  rw [List.takeWhile_append]
  split
  · next hlength =>
      rw [List.takeWhile_cons_of_neg hne, List.append_nil,
        (List.takeWhile_sublist p).eq_of_length hlength]
  · rfl

theorem dropWhile_append_cons (hc : p c = false) (text rest : List Char) :
    (text ++ c :: rest).dropWhile p = text.dropWhile p ++ c :: rest := by
  have hne : ¬ p c = true := by
    rw [hc]
    exact Bool.false_ne_true
  rw [List.dropWhile_append]
  split
  · next hnil => rw [List.isEmpty_iff.mp hnil, List.dropWhile_cons_of_neg hne, List.nil_append]
  · rfl

end Text

namespace Token

variable {text after : List Char} {token : Token}

theorem readQuoted_append {quote : Char} {inside : List Char}
    (h : readQuoted quote text = (some inside, after)) (more : List Char) :
    readQuoted quote (text ++ more) = (some inside, after ++ more) := by
  fun_induction readQuoted quote text generalizing inside after with
  | case1 => cases h
  | case2 rest =>
      cases h
      rw [List.cons_append, readQuoted.eq_def]
      exact if_pos rfl
  | case3 => cases h
  | case4 escaped rest inside' after' hread hquote ih =>
      obtain ⟨hinside, rfl⟩ := Prod.mk.inj h
      obtain ⟨inside', rfl, rfl⟩ := Option.map_eq_some_iff.mp hinside
      rw [List.cons_append, List.cons_append, readQuoted.eq_def]
      simp only [if_neg hquote, if_true, ih hread, Option.map_some]
  | case5 c rest hquote hslash inside' after' hread ih =>
      obtain ⟨hinside, rfl⟩ := Prod.mk.inj h
      obtain ⟨inside', rfl, rfl⟩ := Option.map_eq_some_iff.mp hinside
      rw [List.cons_append, readQuoted.eq_def]
      simp only [if_neg hquote, if_neg hslash, ih hread, Option.map_some]

theorem scanEquals_append (h : scanEquals text = (.ok token, after)) (more : List Char) :
    scanEquals (text ++ more) = (.ok token, after ++ more) := by
  rcases scanEquals_ok h with ⟨rfl, rfl⟩ | ⟨name, hne, hname, rfl, rfl⟩
  · rfl
  · rw [List.append_assoc, List.cons_append]
    exact scanEquals_name hne hname (after ++ more)

theorem append_closeParen_ne_equals (h : ∀ more, text ≠ '=' :: more) (rest more : List Char) :
    text ++ ')' :: rest ≠ '=' :: more := by
  match text, h with
  | [], _ => exact fun heq => nomatch heq
  | c :: text, h =>
      intro heq
      exact h text (congrArg (· :: text) (List.cons.inj heq).1)

/-- A token that begins with a reserved character is not changed by a closing
parenthesis behind it: a lone `<` or `>` would go on with `=` only. -/
theorem scanReserved_append {c : Char} (h : scanReserved c text = (.ok token, after))
    (rest : List Char) :
    scanReserved c (text ++ ')' :: rest) = (.ok token, after ++ ')' :: rest) := by
  unfold scanReserved at h ⊢
  split at h
  · cases h; rfl
  · cases h; rfl
  · cases h; rfl
  · cases h; rfl
  · exact scanEquals_append h _
  · split at h <;> cases h
    rfl
  · split at h <;> cases h
    · rfl
    · next hne =>
        split
        · next heq => exact absurd heq (append_closeParen_ne_equals hne _ _)
        · rfl
  · split at h <;> cases h
    · rfl
    · next hne =>
        split
        · next heq => exact absurd heq (append_closeParen_ne_equals hne _ _)
        · rfl
  · split at h <;> cases h
    next hread => rw [readQuoted_append hread]
  · split at h <;> cases h
    next hread => rw [readQuoted_append hread]
  · cases h

/-- **A closing parenthesis goes on with no token.** -/
theorem scan_append (h : scan text = (.ok (some token), after)) (rest : List Char) :
    scan (text ++ ')' :: rest) = (.ok (some token), after ++ ')' :: rest) := by
  match text, h with
  | c :: text, h =>
      rw [scan] at h
      rw [List.cons_append, scan, ← List.cons_append]
      by_cases hc : isUnreserved c = true
      · rw [if_pos hc] at h ⊢
        cases h
        rw [Text.takeWhile_append_cons rfl, Text.dropWhile_append_cons rfl]
      · rw [if_neg hc] at h ⊢
        dsimp only at h ⊢
        obtain ⟨houtcome, rfl⟩ := Prod.mk.inj h
        obtain ⟨token', htoken, heq⟩ := map_eq_ok_iff.mp houtcome
        cases heq
        rw [scanReserved_append (Prod.ext htoken rfl)]
        rfl

end Token

namespace Lexer

variable {l l₁ : Lexer} {text : String} {ts : List Token} {rest : List Char}

theorem trimLeft_closed (text rest : List Char) :
    Text.trimLeft (text ++ ')' :: rest) = Text.trimLeft text ++ ')' :: rest :=
  Text.dropWhile_append_cons rfl text rest

theorem next_closed {k : Lexer} {token : Token} (h : l.next.1.outcome = .ok (some token))
    (hk : k.rest = l.rest ++ ')' :: rest) :
    k.next.1.outcome = .ok (some token) ∧ k.next.2.rest = l.next.2.rest ++ ')' :: rest := by
  have hscan := Token.scan_append (Prod.ext (next_outcome_eq_ok.mp h) rfl) rest
  rw [next_outcome_eq_ok, next_rest, next_rest, hk, trimLeft_closed, hscan]
  exact ⟨rfl, rfl⟩

/-- Call after call, a text yields in front of a closing parenthesis what it yields
alone. -/
theorem Yields.closed {placed : List (Token × Nat)} (h : l.Yields placed l₁) :
    ∀ k : Lexer, k.rest = l.rest ++ ')' :: rest →
      ∃ placed' k₁, k.Yields placed' k₁ ∧ k₁.rest = l₁.rest ++ ')' :: rest ∧
        placed'.map Prod.fst = placed.map Prod.fst := by
  induction h with
  | refl l => exact fun k hk => ⟨[], k, .refl k, hk, rfl⟩
  | step hnext _ ih =>
      intro k hk
      obtain ⟨hknext, hkrest⟩ := next_closed hnext hk
      obtain ⟨placed', k₁, hyields, hrest, htokens⟩ := ih k.next.2 hkrest
      exact ⟨_, k₁, .step hknext hyields, hrest, congrArg (_ :: ·) htokens⟩

/-- **A text that lexes is read in front of a closing parenthesis as it is alone.** -/
theorem ReadsAll.passes_closed (h : (ofString text).ReadsAll ts) (rest : List Char) :
    Passes (text.toList ++ ')' :: rest) (ts ++ [.closeParen]) rest := by
  obtain ⟨placed, l₁, hyields, hend, rfl⟩ := h
  intro k hk
  obtain ⟨placed', k₁, hyields', hrest, htokens⟩ := hyields.closed k hk
  -- behind its last token only blanks are left of the text
  have htrim : Text.trimLeft k₁.rest = ')' :: rest := by
    rw [hrest, trimLeft_closed, next_eq_end_iff.mp hend, List.nil_append]
  refine ⟨placed' ++ [(.closeParen, k₁.next.1.start)], k₁.next.2, ?_, ?_, ?_⟩
  · refine hyields'.trans (.step ?_ (.refl _))
    rw [next_outcome_eq_ok, htrim]
    rfl
  · rw [next_rest, htrim]
    rfl
  · rw [List.map_append, htokens]
    rfl

theorem ReadsAll.passes_wrapped (h : (ofString text).ReadsAll ts) (rest : List Char) :
    Passes ('(' :: (text.toList ++ ')' :: rest)) (.openParen :: ts ++ [.closeParen]) rest :=
  (passes_openParen _).trans (h.passes_closed rest)

end Lexer

/-! ## Two expressions -/

theorem Grammar.Expression.constraint {ops : OperatorSet} {ts : List Token} {n : Node}
    (h : Expression ops ts n) : Constraint ops (.openParen :: ts ++ [.closeParen]) n := by
  cases h with
  | alternatives halts => exact .group halts

variable {ops : OperatorSet} {a b : String} {m n : Node}

/-- Two expressions between parentheses, with a separator between them, are read as the
two constraints that they are. -/
theorem parse_wrapped_of {between : String} {c : Char} {sep : Token} {node : Node}
    (ha : Node.parse a ops = .ok m) (hb : Node.parse b ops = .ok n)
    (hbetween : between.toList = [')', c, '('])
    (hsep : ∀ rest, Lexer.Passes (c :: rest) [sep] rest)
    (hnode : ∀ {ts us}, Constraint ops ts m → Constraint ops us n →
      Expression ops (ts ++ [sep] ++ us) node) :
    Node.parse ("(" ++ a ++ between ++ b ++ ")") ops = .ok node := by
  obtain ⟨ts, hts, hm⟩ := Node.expression_of_parse ha
  obtain ⟨us, hus, hn⟩ := Node.expression_of_parse hb
  have htext : ("(" ++ a ++ between ++ b ++ ")").toList =
      '(' :: (a.toList ++ ')' :: c :: '(' :: (b.toList ++ [')'])) := by
    simp [String.toList_append, hbetween]
  have hpasses := ((hts.passes_wrapped _).trans (hsep _)).trans (hus.passes_wrapped [])
  rw [← htext] at hpasses
  exact Node.parse_of_expression hpasses.readsAll (hnode hm.constraint hn.constraint)

theorem parse_wrapped_all (ha : Node.parse a ops = .ok m) (hb : Node.parse b ops = .ok n) :
    Node.parse ("(" ++ a ++ ");(" ++ b ++ ")") ops = .ok (.all [m, n]) :=
  parse_wrapped_of ha hb rfl Lexer.passes_semicolon fun hm hn =>
    .alternatives (.one (.more (.one hm) (.inl rfl) hn))

theorem parse_wrapped_any (ha : Node.parse a ops = .ok m) (hb : Node.parse b ops = .ok n) :
    Node.parse ("(" ++ a ++ "),(" ++ b ++ ")") ops = .ok (.any [m, n]) :=
  parse_wrapped_of ha hb rfl Lexer.passes_comma fun hm hn =>
    .alternatives (.more (.one (.one hm)) (.inl rfl) (.one hn))

theorem Compiler.compile_wrapped_all {c : Compiler} (e : Entity)
    (ha : Node.parse a c.operators = .ok m) (hb : Node.parse b c.operators = .ok n) :
    (c.compile e (some ("(" ++ a ++ ");(" ++ b ++ ")"))).toOption =
      (c.compileNode e m).toOption.bind fun p =>
        (c.compileNode e n).toOption.map fun q => some (.ofPredicate (.all [p, q])) := by
  have hne : "(" ++ a ++ ");(" ++ b ++ ")" ≠ "" := by
    intro hempty
    have htext := congrArg String.toList hempty
    simp [String.toList_append] at htext
  rw [compile, if_neg hne, parse, parse_wrapped_all ha hb]
  show (Except.map _ (c.compileNode e (.all [m, n]))).toOption = _
  rw [toOption_map, compileNode, toOption_map, compileNodes_cons, compileNodes_cons]
  cases (c.compileNode e m).toOption with
  | none => rfl
  | some p => cases (c.compileNode e n).toOption <;> rfl

/-- **An expression cannot reach beyond its parentheses.**  Two texts that are each read
alone are read between parentheses, character for character, as the same two trees:
joined by a semicolon they are the conjunction of just these two, joined by a comma the
disjunction.  So a restriction that is put around another filter compiles if and only if
both compile, and then to the conjunction of the two predicates. -/
theorem parse_wrapped_pair (ops : OperatorSet) (a b : String) (m n : Node)
    (ha : Node.parse a ops = .ok m) (hb : Node.parse b ops = .ok n) :
    Node.parse ("(" ++ a ++ ");(" ++ b ++ ")") ops = .ok (.all [m, n]) ∧
    Node.parse ("(" ++ a ++ "),(" ++ b ++ ")") ops = .ok (.any [m, n]) ∧
    ∀ (c : Compiler) (e : Entity), c.operators = ops →
      (c.compile e (some ("(" ++ a ++ ");(" ++ b ++ ")"))).toOption =
        (c.compileNode e m).toOption.bind fun p =>
          (c.compileNode e n).toOption.map fun q => some (.ofPredicate (.all [p, q])) := by
  refine ⟨parse_wrapped_all ha hb, parse_wrapped_any ha hb, fun c e hops => ?_⟩
  subst hops
  exact c.compile_wrapped_all e ha hb

/-- A filter that tries to break out: a disjunction whose argument holds a quoted
parenthesis, with a blank at its end. -/
theorem parse_wrapped_pair_disjunction :
    Node.parse "owner==me" .extended = .ok (.comparison ⟨"owner", .equal, ["me"]⟩) ∧
      Node.parse "name==') or (', age>1 " .extended =
        .ok (.any [.comparison ⟨"name", .equal, [") or ("]⟩,
          .comparison ⟨"age", .greaterThan, ["1"]⟩]) ∧
      Node.parse "(owner==me);(name==') or (', age>1 )" .extended =
        .ok (.all [.comparison ⟨"owner", .equal, ["me"]⟩,
          .any [.comparison ⟨"name", .equal, [") or ("]⟩,
            .comparison ⟨"age", .greaterThan, ["1"]⟩]]) := by
  have howner : Node.parse "owner==me" .extended =
      .ok (.comparison ⟨"owner", .equal, ["me"]⟩) := toOption_eq_some_iff.mp (by decide +kernel)
  have hother : Node.parse "name==') or (', age>1 " .extended =
      .ok (.any [.comparison ⟨"name", .equal, [") or ("]⟩,
        .comparison ⟨"age", .greaterThan, ["1"]⟩]) :=
    toOption_eq_some_iff.mp (by decide +kernel)
  exact ⟨howner, hother, (parse_wrapped_pair .extended _ _ _ _ howner hother).1⟩

end RecordFilter
