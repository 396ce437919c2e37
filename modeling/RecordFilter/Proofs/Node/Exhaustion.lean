/-
# `Proofs.Node.Exhaustion` — a parser yields at most one tree

A parser may be asked again, whatever it answered: it goes on from the token at hand and the
readings behind it.  What an answer leaves is one of two things (`Leaves`):

    a parser at the end, which has nothing but `empty` to say     (`parse_of_current_none`)
    a parser at some token, behind an error

and a tree leaves the first.  Of the second it is enough to know what it has in front of it:
each call takes at least one reading, unless it leaves the parser as it found it, and then
it is repeated for good (`parse_progress`).  There are fewer readings than characters, so
that the answers settle in time (`exists_settled`).
-/
import RecordFilter.Proofs.Node.Refusal
import RecordFilter.Proofs.Token.Progress

namespace RecordFilter

namespace Parser

variable {p : Parser} {ops : OperatorSet} {s : State} {token : Token} {position : Nat}

/-! ## One call -/

/-- Only a parser at the end says that there is no expression. -/
theorem State.Refuses.ne_empty {found : Option Token} {e : ParseError}
    (h : s.Refuses ops found position e) : e ≠ .empty := by
  rintro rfl
  cases h

/-- What a run leaves, with a part of the readings in front of it: a parser that was stopped
by an error, or one at the end of its text. -/
inductive Leaves (p : Parser) (upcoming : List Lexer.Reading) :
    Except ParseError Node × Parser → Prop
  | stopped {current : Option Token} {place : Nat} {rest : List Lexer.Reading} {e : ParseError} :
      rest <:+ upcoming → e ≠ .empty → Leaves p upcoming (p.stop current place rest (.error e))
  | ended {place : Nat} {rest : List Lexer.Reading} {outcome : Except ParseError Node} :
      rest <:+ upcoming → outcome ≠ .error .empty →
      Leaves p upcoming (p.stop none place rest outcome)

theorem Leaves.mono {upcoming more : List Lexer.Reading} {left : Except ParseError Node × Parser}
    (h : p.Leaves upcoming left) (hmore : upcoming <:+ more) : p.Leaves more left := by
  cases h with
  | stopped hrest he => exact .stopped (hrest.trans hmore) he
  | ended hrest houtcome => exact .ended (hrest.trans hmore) houtcome

theorem Leaves.length_le {upcoming : List Lexer.Reading} {left : Except ParseError Node × Parser}
    (h : p.Leaves upcoming left) : left.2.upcoming.length ≤ upcoming.length := by
  cases h with
  | stopped hrest _ => exact hrest.length_le
  | ended hrest _ => exact hrest.length_le

theorem close_ne_empty (s : State) (place : Nat) : s.close place ≠ .error .empty := by
  intro h
  have hrefuses : s.Refuses .defaults none place .empty := State.refuses_of_close h
  exact hrefuses.ne_empty rfl

/-- **What a run leaves**, from whatever state it goes on. -/
theorem run_leaves (p : Parser) (s : State) (token : Token) (position : Nat)
    (upcoming : List Lexer.Reading) : p.Leaves upcoming (p.run s token position upcoming) := by
  induction upcoming generalizing s token position with
  | nil =>
      rw [run]
      split
      · next hstep => exact .stopped (List.suffix_refl _) (State.refuses_of_step hstep).ne_empty
      · split
        · exact .stopped (List.suffix_refl _) (by cases ·)
        · exact .ended (List.suffix_refl _) (close_ne_empty _ _)
  | cons reading upcoming ih =>
      have hrest : upcoming <:+ reading :: upcoming := List.suffix_cons _ _
      rw [run]
      split
      · next hstep => exact .stopped (List.suffix_refl _) (State.refuses_of_step hstep).ne_empty
      · split
        · exact .stopped hrest (by cases ·)
        · exact .ended hrest (close_ne_empty _ _)
        · exact (ih _ _ _).mono hrest

/-! ## One call of `parse` -/

theorem parse_of_current_none (h : p.current = none) : p.parse = (.error .empty, p) := by
  rw [parse, h]

theorem parse_of_current (h : p.current = some token) :
    p.parse = p.run .initial token p.position p.upcoming := by
  rw [parse, h]

/-- An outcome behind which a parser is at the end. -/
inductive Closing : Except ParseError Node → Prop
  | tree (n : Node) : Closing (.ok n)
  | empty : Closing (.error .empty)

/-- **A tree leaves a parser at the end**, and so does `empty`. -/
theorem current_of_closing (h : Closing p.parse.1) : p.parse.2.current = none := by
  cases hcurrent : p.current with
  | none => rw [parse_of_current_none hcurrent, hcurrent]
  | some token =>
      have hleaves := p.run_leaves .initial token p.position p.upcoming
      rw [← parse_of_current hcurrent] at hleaves
      revert h hleaves
      generalize p.parse = left
      intro h hleaves
      cases hleaves with
      | stopped _ he =>
          cases h
          exact absurd rfl he
      | ended _ _ => rfl

/-- The first token of an expression stays at hand until the next one has been read. -/
theorem left_of_step_initial {s' : State} {left : Option Token}
    (h : State.initial.step ops token position = .shift s' left) : left = some token := by
  cases token with
  | openParen => cases h; rfl
  | bare text => cases h; rfl
  | _ => cases h

/-- **Each call takes a reading**, unless it leaves the parser as it is or at the end. -/
theorem parse_progress (p : Parser) :
    p.parse.2 = p ∨ p.parse.2.current = none ∨ p.parse.2.upcoming.length < p.upcoming.length := by
  obtain ⟨operators, current, position, upcoming, ending⟩ := p
  cases current with
  | none => exact .inl rfl
  | some token =>
      rw [parse_of_current rfl]
      cases upcoming with
      | nil =>
          rw [run]
          split
          · exact .inl rfl
          · next hstep =>
              cases left_of_step_initial hstep
              split
              · exact .inl rfl
              · exact .inr (.inl rfl)
      | cons reading upcoming =>
          rw [run]
          split
          · exact .inl rfl
          · split
            · exact .inr (.inr (Nat.lt_succ_self _))
            · exact .inr (.inl rfl)
            · exact .inr (.inr (Nat.lt_succ_of_le (run_leaves _ _ _ _ _).length_le))

/-! ## Call after call -/

variable {outcomes : List (Except ParseError Node)} {n : Nat}

theorem parseTimes_succ (n : Nat) (p : Parser) :
    p.parseTimes (n + 1) = p.parse.1 :: p.parse.2.parseTimes n := rfl

theorem parseTimes_of_unmoved (h : p.parse.2 = p) (n : Nat) :
    p.parseTimes n = List.replicate n p.parse.1 := by
  induction n with
  | zero => rfl
  | succ n ih => rw [parseTimes_succ, h, ih, List.replicate_succ]

theorem parseTimes_of_current_none (h : p.current = none) (n : Nat) :
    p.parseTimes n = List.replicate n (.error .empty) := by
  have hparse := parse_of_current_none h
  have hsame : p.parse.2 = p := by rw [hparse]
  rw [parseTimes_of_unmoved hsame, hparse]

/-- **Behind a tree, and behind `empty`, every call returns `empty`.** -/
theorem eq_empty_of_closing {front back : List (Except ParseError Node)}
    {outcome : Except ParseError Node} (h : p.parseTimes n = front ++ outcome :: back)
    (hclosing : Closing outcome) : ∀ later ∈ back, later = .error .empty := by
  induction front generalizing p n with
  | nil =>
      cases n with
      | zero => cases h
      | succ n =>
          rw [parseTimes_succ] at h
          obtain ⟨houtcome, hback⟩ := List.cons.inj h
          rw [← houtcome] at hclosing
          rw [← hback, parseTimes_of_current_none (current_of_closing hclosing)]
          exact fun _ hlater => List.eq_of_mem_replicate hlater
  | cons first front ih =>
      cases n with
      | zero => cases h
      | succ n => exact ih (List.cons.inj h).2

/-- **At most one call returns a tree.** -/
theorem countP_isOk_le_one (n : Nat) (p : Parser) : (p.parseTimes n).countP (·.isOk) ≤ 1 := by
  induction n generalizing p with
  | zero => exact Nat.zero_le 1
  | succ n ih =>
      rw [parseTimes_succ]
      cases hparse : p.parse.1 with
      | error e =>
          rw [List.countP_cons_of_neg Bool.false_ne_true]
          exact ih p.parse.2
      | ok node =>
          have hend := current_of_closing (hparse ▸ Closing.tree node)
          rw [parseTimes_of_current_none hend, List.countP_cons_of_pos rfl, List.countP_replicate]
          exact Nat.le_refl 1

/-- **The answers settle**, after one call for each reading in front at most, and one more. -/
theorem exists_settled (p : Parser) :
    ∃ outcomes last, outcomes.length ≤ p.upcoming.length + 1 ∧
      ∀ n, p.parseTimes (outcomes.length + n) = outcomes ++ List.replicate n last := by
  -- on the readings that are left
  induction hlen : p.upcoming.length using Nat.strongRecOn generalizing p with
  | ind len ih =>
      rcases p.parse_progress with hsame | hend | hlt
      · refine ⟨[], p.parse.1, Nat.zero_le _, fun n => ?_⟩
        rw [List.length_nil, Nat.zero_add, parseTimes_of_unmoved hsame, List.nil_append]
      · refine ⟨[p.parse.1], .error .empty, Nat.succ_le_succ (Nat.zero_le _), fun n => ?_⟩
        rw [List.length_singleton, Nat.add_comm, parseTimes_succ, parseTimes_of_current_none hend,
          List.singleton_append]
      · obtain ⟨outcomes, last, hle, htimes⟩ := ih _ (hlen ▸ hlt) p.parse.2 rfl
        refine ⟨p.parse.1 :: outcomes, last, ?_, fun n => ?_⟩
        · rw [List.length_cons]
          omega
        · rw [List.length_cons, Nat.succ_add, parseTimes_succ, htimes, List.cons_append]

/-! ## The first token -/

/-- A parser of a text is at the end of it, or has fewer readings in front than the text
has characters. -/
theorem upcoming_of_ofString {text : String} (h : ofString text ops = .ok p) :
    p.current = none ∨ p.upcoming.length < text.length := by
  have hlength := (Lexer.ofString text).length_feed_le
  have hfinal := (Lexer.ofString text).feed_final
  unfold ofString at h
  generalize (Lexer.ofString text).feed = feed at h hlength hfinal
  obtain ⟨readings, ending⟩ := feed
  cases readings with
  | nil =>
      obtain ⟨token, htoken, rfl⟩ := map_eq_ok_iff.mp h
      refine .inl ?_
      cases hfinal <;> cases htoken
      rfl
  | cons reading upcoming =>
      obtain ⟨token, -, rfl⟩ := map_eq_ok_iff.mp h
      refine .inr ?_
      rw [← String.length_toList]
      exact hlength

end Parser

/-! ## The theorem -/

/-- **A parser yields at most one tree.**  Ask a parser of a text any number of times,
whatever it answers.  One answer at most is a tree, and behind it, as behind `empty`, every
answer is `empty`.  After as many calls as the text has characters, or fewer, all answers
are the same. -/
theorem parser_yields_at_most_one_tree (text : String) (ops : OperatorSet) (p : Parser)
    (h : Parser.ofString text ops = .ok p) :
    (∀ n, (p.parseTimes n).countP (·.isOk) ≤ 1) ∧
    (∀ n front outcome back, p.parseTimes n = front ++ outcome :: back →
      Parser.Closing outcome → ∀ later ∈ back, later = .error .empty) ∧
    ∃ outcomes last, outcomes.length ≤ text.length ∧
      ∀ n, p.parseTimes (outcomes.length + n) = outcomes ++ List.replicate n last := by
  refine ⟨fun n => p.countP_isOk_le_one n, fun n front outcome back htimes hclosing =>
    Parser.eq_empty_of_closing htimes hclosing, ?_⟩
  rcases Parser.upcoming_of_ofString h with hend | hlt
  · refine ⟨[], .error .empty, Nat.zero_le _, fun n => ?_⟩
    rw [List.length_nil, Nat.zero_add, Parser.parseTimes_of_current_none hend, List.nil_append]
  · obtain ⟨outcomes, last, hle, htimes⟩ := p.exists_settled
    exact ⟨outcomes, last, by omega, htimes⟩

/-- The second answer is a tree: the first one left the parser at the token that it refused. -/
theorem parser_yields_at_most_one_tree_behind_error :
    ∃ p, Parser.ofString "a==b c==d" .defaults = .ok p ∧
      (∃ e, p.parseTimes 4 = [.error e, .ok (.comparison ⟨"c", .equal, ["d"]⟩),
        .error .empty, .error .empty]) ∧
      (p.parseTimes 4).countP (·.isOk) ≤ 1 ∧
      ∃ outcomes last, outcomes.length ≤ "a==b c==d".length ∧
        ∀ n, p.parseTimes (outcomes.length + n) = outcomes ++ List.replicate n last := by
  have hcalls : (Parser.ofString "a==b c==d" .defaults).toOption.map
      (fun p => (p.parseTimes 4).map Except.toOption) =
        some [none, some (.comparison ⟨"c", .equal, ["d"]⟩), none, none] := by decide +kernel
  obtain ⟨p, hp, hoptions⟩ := Option.map_eq_some_iff.mp hcalls
  obtain ⟨first, rest, htimes, hfirst, hrest⟩ := List.map_eq_cons_iff.mp hoptions
  obtain ⟨second, back, rfl, hsecond, hback⟩ := List.map_eq_cons_iff.mp hrest
  have hofString := toOption_eq_some_iff.mp hp
  obtain ⟨hone, hempty, hsettled⟩ := parser_yields_at_most_one_tree _ _ p hofString
  refine ⟨p, hofString, ?_, hone 4, hsettled⟩
  obtain rfl := toOption_eq_some_iff.mp hsecond
  have hlater := hempty 4 [first] _ back htimes (.tree _)
  have hlength : back.length = 2 := by
    have hmap := congrArg List.length hback
    rwa [List.length_map] at hmap
  cases first with
  | ok n => cases hfirst
  | error e => exact ⟨e, by rw [htimes, List.eq_replicate_of_mem hlater, hlength]; rfl⟩

end RecordFilter
