/-
# `Proofs.Token.Stream` — the tokens of a text

What a lexer returns, call after call, as a relation: `l.Yields placed l'`
says that from `l` on the next calls return the tokens of `placed`, each at the
position it carries, and leave the lexer at `l'`.  A text lexes to a list of
tokens when it yields them and the call behind the last one finds the end:
`Lexer.ReadsAll`.

Three facts about one call carry everything here.

    a token was read    ⟹  the text left is shorter           (`next_length_lt`)
    the end was found   ⟺  only blanks were left              (`next_eq_end_iff`)
    a bare token        ⟹  a non-empty run of unreserved characters
                                                               (`scan_wellSpelled`)

The first is what makes `Lexer.feed` list all of them, and is why the relation
and the list agree (`Proofs.Node.Acceptance`).
-/
import RecordFilter.Node.Parser

namespace RecordFilter

/-! ## One token -/

namespace Token

/-- What is known of a token that was read: a bare one is a non-empty run of
unreserved characters.  Of the others nothing is asked. -/
def WellSpelled : Token → Prop
  | .bare text => text ≠ "" ∧ ∀ c ∈ text.toList, isUnreserved c = true
  | _ => True

theorem readQuoted_suffix (quote : Char) (text : List Char) :
    (readQuoted quote text).2 <:+ text := by
  fun_induction readQuoted quote text with
  | case1 => exact List.suffix_refl _
  | case2 rest => exact List.suffix_cons _ _
  | case3 => exact List.nil_suffix
  | case4 escaped rest inside after hread _ ih =>
      rw [hread] at ih
      exact (ih.trans (List.suffix_cons _ _)).trans (List.suffix_cons _ _)
  | case5 c rest _ _ inside after hread ih =>
      rw [hread] at ih
      exact ih.trans (List.suffix_cons _ _)

theorem suffix_of_readQuoted {quote : Char} {text after : List Char}
    {inside : Option (List Char)} (h : readQuoted quote text = (inside, after)) :
    after <:+ text := by
  have hsuffix := readQuoted_suffix quote text
  rw [h] at hsuffix
  exact hsuffix

theorem scanEquals_suffix (text : List Char) : (scanEquals text).2 <:+ text := by
  unfold scanEquals
  split
  · exact List.suffix_cons _ _
  · have hdrop : text.dropWhile Char.isAlpha <:+ text := List.dropWhile_suffix _
    dsimp only
    split
    · exact hdrop
    · split
      · next rest hrest =>
          rw [hrest] at hdrop
          exact (List.suffix_cons _ _).trans hdrop
      · exact hdrop

theorem scanEquals_wellSpelled {text after : List Char} {token : Token}
    (h : scanEquals text = (.ok token, after)) : token.WellSpelled := by
  unfold scanEquals at h
  split at h
  · cases h; trivial
  · dsimp only at h
    split at h
    · cases h
    · split at h <;> cases h
      trivial

/-- A token that begins with a reserved character: what is left of the text is
an end of it, and the token is not bare. -/
theorem scanReserved_ok {c : Char} {rest after : List Char} {token : Token}
    (h : scanReserved c rest = (.ok token, after)) :
    after <:+ rest ∧ token.WellSpelled := by
  unfold scanReserved at h
  split at h
  · cases h; exact ⟨List.suffix_refl _, trivial⟩
  · cases h; exact ⟨List.suffix_refl _, trivial⟩
  · cases h; exact ⟨List.suffix_refl _, trivial⟩
  · cases h; exact ⟨List.suffix_refl _, trivial⟩
  · have hsuffix := scanEquals_suffix rest
    rw [h] at hsuffix
    exact ⟨hsuffix, scanEquals_wellSpelled h⟩
  · split at h <;> cases h
    exact ⟨List.suffix_cons _ _, trivial⟩
  · split at h <;> cases h
    · exact ⟨List.suffix_cons _ _, trivial⟩
    · exact ⟨List.suffix_refl _, trivial⟩
  · split at h <;> cases h
    · exact ⟨List.suffix_cons _ _, trivial⟩
    · exact ⟨List.suffix_refl _, trivial⟩
  · split at h <;> cases h
    next hread => exact ⟨suffix_of_readQuoted hread, trivial⟩
  · split at h <;> cases h
    next hread => exact ⟨suffix_of_readQuoted hread, trivial⟩
  · cases h

/-- A token that was read: the text is longer than what is left of it, and a
bare token is well spelled. -/
theorem scan_ok {text after : List Char} {token : Token}
    (h : scan text = (.ok (some token), after)) :
    after.length < text.length ∧ token.WellSpelled := by
  match text, h with
  | c :: rest, h =>
      rw [scan] at h
      split at h
      · next hc =>
          cases h
          have hdrop : (rest.dropWhile isUnreserved).length ≤ rest.length :=
            (List.dropWhile_sublist _).length_le
          rw [List.takeWhile_cons_of_pos hc, List.dropWhile_cons_of_pos hc]
          refine ⟨Nat.lt_succ_of_le hdrop, ?_, ?_⟩
          · intro hempty
            have := congrArg String.toList hempty
            simp only [String.toList_ofList] at this
            cases this
          · intro d hd
            rw [String.toList_ofList, List.mem_cons] at hd
            rcases hd with rfl | hd
            · exact hc
            · exact List.all_eq_true.mp List.all_takeWhile d hd
      · dsimp only at h
        obtain ⟨houtcome, rfl⟩ := Prod.mk.inj h
        cases hread : (scanReserved c rest).1 with
        | error e => rw [hread] at houtcome; cases houtcome
        | ok token' =>
            rw [hread] at houtcome
            cases houtcome
            have hok := scanReserved_ok (Prod.ext hread rfl)
            exact ⟨Nat.lt_succ_of_le hok.1.length_le, hok.2⟩

theorem scan_eq_end_iff {text : List Char} : (scan text).1 = .ok none ↔ text = [] := by
  match text with
  | [] => exact ⟨fun _ => rfl, fun _ => rfl⟩
  | c :: rest =>
      refine ⟨fun h => ?_, fun h => nomatch h⟩
      rw [scan] at h
      split at h
      · cases h
      · dsimp only at h
        cases hread : (scanReserved c rest).1 with
        | error e => rw [hread] at h; cases h
        | ok token => rw [hread] at h; cases h

end Token

/-! ## One call -/

namespace Lexer

@[simp]
theorem next_rest (l : Lexer) : l.next.2.rest = (Token.scan (Text.trimLeft l.rest)).2 := rfl

theorem next_outcome_eq_ok {l : Lexer} {t : Option Token} :
    l.next.1.outcome = .ok t ↔ (Token.scan (Text.trimLeft l.rest)).1 = .ok t := by
  show ((Token.scan (Text.trimLeft l.rest)).1.mapError _) = .ok t ↔ _
  cases (Token.scan (Text.trimLeft l.rest)).1 with
  | error e => exact ⟨(by cases ·), (by cases ·)⟩
  | ok t' => exact ⟨fun h => by cases h; rfl, fun h => by cases h; rfl⟩

theorem next_ok {l : Lexer} {token : Token} (h : l.next.1.outcome = .ok (some token)) :
    l.next.2.rest.length < l.rest.length ∧ token.WellSpelled := by
  have hscan := Token.scan_ok (Prod.ext (next_outcome_eq_ok.mp h) rfl)
  have htrim : (Text.trimLeft l.rest).length ≤ l.rest.length :=
    (List.dropWhile_sublist _).length_le
  exact ⟨Nat.lt_of_lt_of_le hscan.1 htrim, hscan.2⟩

theorem next_eq_end_iff {l : Lexer} :
    l.next.1.outcome = .ok none ↔ Text.trimLeft l.rest = [] :=
  next_outcome_eq_ok.trans Token.scan_eq_end_iff

/-! ## Call after call -/

/-- `l.Yields placed l'`: from `l` on, the next calls return the tokens of
`placed`, each at its position, and leave the lexer at `l'`. -/
inductive Yields : Lexer → List (Token × Nat) → Lexer → Prop
  | refl (l : Lexer) : Yields l [] l
  | step {l l' : Lexer} {token : Token} {placed : List (Token × Nat)} :
      l.next.1.outcome = .ok (some token) → Yields l.next.2 placed l' →
      Yields l ((token, l.next.1.start) :: placed) l'

/-- The whole text that `l` has left lexes, to these tokens. -/
def ReadsAll (l : Lexer) (tokens : List Token) : Prop :=
  ∃ placed l', l.Yields placed l' ∧ l'.next.1.outcome = .ok none ∧
    placed.map Prod.fst = tokens

theorem Yields.trans {l l' l'' : Lexer} {ps qs : List (Token × Nat)}
    (h : l.Yields ps l') (h' : l'.Yields qs l'') : l.Yields (ps ++ qs) l'' := by
  induction h with
  | refl _ => exact h'
  | step hnext _ ih => exact .step hnext (ih h')

theorem Yields.wellSpelled {l l' : Lexer} {placed : List (Token × Nat)}
    (h : l.Yields placed l') : ∀ p ∈ placed, p.1.WellSpelled := by
  induction h with
  | refl _ => exact fun _ h => absurd h List.not_mem_nil
  | step hnext _ ih =>
      intro p hp
      rcases List.mem_cons.mp hp with rfl | hp
      · exact (next_ok hnext).2
      · exact ih p hp

/-! ## The list of all readings

`feed` stops at the first call that leaves the cursor where it was; a call that
returned a token never does. -/

theorem feed_of_lt {l : Lexer} (h : l.next.2.rest.length < l.rest.length) :
    l.feed = (l.next.1 :: l.next.2.feed.1, l.next.2.feed.2) := by
  rw [feed]
  exact if_pos h

theorem feed_of_not_lt {l : Lexer} (h : ¬ l.next.2.rest.length < l.rest.length) :
    l.feed = ([], l.next.1) := by
  rw [feed]
  exact if_neg h

/-! ## Reading a known text

`Passes text tokens rest`: a lexer in front of `text` returns these tokens and
then stands in front of `rest`, wherever it was and whatever it counted. -/

def Passes (text : List Char) (tokens : List Token) (rest : List Char) : Prop :=
  ∀ l : Lexer, l.rest = text → ∃ placed l', l.Yields placed l' ∧ l'.rest = rest ∧
    placed.map Prod.fst = tokens

theorem Passes.trans {text rest rest' : List Char} {ts us : List Token}
    (h : Passes text ts rest) (h' : Passes rest us rest') : Passes text (ts ++ us) rest' := by
  intro l hl
  obtain ⟨ps, l', hps, hl', rfl⟩ := h l hl
  obtain ⟨qs, l'', hqs, hl'', rfl⟩ := h' l' hl'
  exact ⟨ps ++ qs, l'', hps.trans hqs, hl'', List.map_append⟩

theorem passes_one {text rest : List Char} {token : Token}
    (htrim : Text.trimLeft text = text) (h : Token.scan text = (.ok (some token), rest)) :
    Passes text [token] rest := by
  intro l hl
  subst hl
  refine ⟨[(token, l.next.1.start)], l.next.2, .step ?_ (.refl _), ?_, rfl⟩
  · rw [next_outcome_eq_ok, htrim, h]
  · rw [next_rest, htrim, h]

theorem Passes.readsAll {text : String} {tokens : List Token}
    (h : Passes text.toList tokens []) : (Lexer.ofString text).ReadsAll tokens := by
  obtain ⟨placed, l', hyields, hrest, htokens⟩ := h (Lexer.ofString text) rfl
  refine ⟨placed, l', hyields, ?_, htokens⟩
  rw [next_eq_end_iff, hrest]
  rfl

end Lexer

end RecordFilter
