/-
# `Proofs.Node.Refusal` — errors point at the first token that cannot go on

The reader refuses a text at the first token, or at the end, where no sentence goes on.  Up
to there all is well, which is two facts about the tokens `ts` in front:

    what a reader has read begins a sentence           (`Covers.viable`)
    no sentence goes on with what its place refuses    (`Place.admits_of_goesOn`)

The first is shown from `State.Covers`: the clause at hand is completed, and then the groups
around it are closed, from the inside out.  The second needs only the place of the reader.

Where reading stops is taken from `State.Ends`: an error is that of a fault, or that of a
reader which refuses what it finds behind the tokens that it took (`Ends.exists_refusal`).
-/
import RecordFilter.Proofs.Node.Place
import RecordFilter.Proofs.Token.Partition

namespace RecordFilter

open Grammar OperatorSet

namespace Parser

/-! ## Completions -/

section
variable {ops : OperatorSet} {ts us ws : List Token}

theorem Before.sentence {α : Type} {Parts : List Token → List α → Prop} {Sep : Token → Prop}
    {xs : List α} (hparts : ∀ {ts xs}, Parts ts xs → Sentence ops AnyNumber ts)
    (hsep : ∀ {sep}, Sep sep → PartsAll sep ∨ PartsAny sep) (h : Before Parts Sep ts xs)
    (hw : Sentence ops AnyNumber ws) : Sentence ops AnyNumber (ts ++ ws) := by
  cases h with
  | nothing => exact hw
  | parts hts hs => exact .joined (hparts hts) (hsep hs) hw

theorem Before.sentence_all {ns : List Node} (h : Before (Conjunction ops) PartsAll ts ns)
    (hw : Sentence ops AnyNumber ws) : Sentence ops AnyNumber (ts ++ ws) :=
  Before.sentence (fun h => h.sentence.anyNumber) .inl h hw

theorem Before.sentence_any {ns : List Node} (h : Before (Alternatives ops) PartsAny ts ns)
    (hw : Sentence ops AnyNumber ws) : Sentence ops AnyNumber (ts ++ ws) :=
  Before.sentence (fun h => h.sentence.anyNumber) .inr h hw

theorem Group.Open.sentence {g : Group} (h : g.Open ops ts) (hw : Sentence ops AnyNumber ws) :
    Sentence ops AnyNumber (ts ++ ws) := by
  cases h with
  | mk hany hall =>
      rw [List.append_assoc]
      exact hany.sentence_any (hall.sentence_all hw)

theorem Group.Full.sentence {g : Group} (h : g.Full ops ts) : Sentence ops AnyNumber ts :=
  h.alternatives.sentence.anyNumber

theorem Around.sentence {outer : List Group} (h : Around ops ts outer)
    (hw : Sentence ops AnyNumber ws) : ∃ rest, Sentence ops AnyNumber (ts ++ ws ++ rest) := by
  induction h generalizing ws with
  | nil => exact ⟨[], by rwa [List.append_nil]⟩
  | @cons ts us outer g _ hopen ih =>
      obtain ⟨rest, hrest⟩ := ih (hopen.sentence (.group hw))
      refine ⟨.closeParen :: rest, ?_⟩
      simpa only [List.append_assoc, List.cons_append, List.nil_append] using hrest

theorem Clause.Head.sentence {clause : Clause} {as : List String} (h : clause.Head ops ts)
    (harguments : Arguments us as) : Sentence ops AnyNumber (ts ++ us) := by
  obtain ⟨symbol, hspells, rfl⟩ := h
  exact .comparison hspells harguments trivial

theorem Phase.Begun.sentence {phase : Phase} (hops : ops.Built) (h : phase.Begun ops ts) :
    ∃ rest, Sentence ops AnyNumber (ts ++ rest) := by
  have hvalue : Value (.bare "a") "a" := .bare "a"
  obtain ⟨op, symbol, hspells⟩ := hops.exists_spells
  cases h with
  | constraint =>
      exact ⟨[.bare "a", .operator symbol, .bare "a"], .comparison hspells (.lone hvalue) trivial⟩
  | operator selector =>
      exact ⟨[.operator symbol, .bare "a"], .comparison hspells (.lone hvalue) trivial⟩
  | arguments hhead => exact ⟨_, hhead.sentence (.lone hvalue)⟩
  | argument hhead hbefore =>
      refine ⟨[.bare "a", .closeParen], ?_⟩
      have hsentence := hhead.sentence (.list (hbefore.value hvalue))
      simpa only [List.append_assoc, List.cons_append, List.nil_append] using hsentence
  | argumentEnd hhead hvalues =>
      refine ⟨[.closeParen], ?_⟩
      rw [List.append_assoc]
      exact hhead.sentence (.list hvalues)
  | clauseEnd hhead harguments =>
      refine ⟨[], ?_⟩
      rw [List.append_nil]
      exact hhead.sentence harguments

/-- **What a reader has read begins a sentence.** -/
theorem State.Covers.viable {s : State} (hops : ops.Built) (h : s.Covers ops ts) :
    Viable ops ts := by
  cases h with
  | within hout hopen hbegun =>
      obtain ⟨rest, hclause⟩ := hbegun.sentence hops
      obtain ⟨rest', hsentence⟩ := hout.sentence (hopen.sentence hclause)
      refine @viable_of_sentence _ _ hops (rest ++ rest') ?_
      simpa only [List.append_assoc] using hsentence
  | behind hout hfull =>
      obtain ⟨rest, hsentence⟩ := hout.sentence hfull.sentence
      exact viable_of_sentence hops hsentence

theorem State.Covers.viable_operator {s : State} {selector : String} (hops : ops.Built)
    (h : s.Covers ops ts) (hphase : s.phase = .operator selector) {op : Operator}
    {symbol : String} (hspells : ops.Spells op symbol) :
    Viable ops (ts ++ [.operator symbol]) := by
  obtain ⟨phase, group, outer⟩ := s
  cases hphase
  exact (State.covers_step h (State.step_operator hspells 0 selector group outer)).viable hops

theorem State.Covers.selector {s : State} {selector : String} (h : s.Covers ops ts)
    (hphase : s.phase = .operator selector) : ∃ before, ts = before ++ [.bare selector] := by
  cases h with
  | within _ _ hbegun =>
      rw [hphase] at hbegun
      cases hbegun with
      | operator _ => exact ⟨_, rfl⟩
  | behind => cases hphase

theorem State.Covers.comparison {s : State} {clause : Clause} {arguments : List String}
    (h : s.Covers ops ts) (hphase : s.phase = .clauseEnd clause arguments) :
    ∃ before symbol us, ts = before ++ .bare clause.selector :: .operator symbol :: us ∧
      ops.Spells clause.operator symbol ∧ Arguments us arguments := by
  cases h with
  | within _ _ hbegun =>
      rw [hphase] at hbegun
      cases hbegun with
      | clauseEnd hhead harguments =>
          obtain ⟨symbol, hspells, rfl⟩ := hhead
          exact ⟨_, symbol, _, rfl, hspells, harguments⟩
  | behind => cases hphase

end

/-! ## The end of a run -/

namespace State

variable {ops : OperatorSet} {s : State} {l : Lexer}

/-- An error is that of a fault, or of what the reader refuses behind the tokens it took. -/
theorem Ends.exists_refusal {e : ParseError} (h : s.Ends ops l (.error e)) :
    (∃ fault, e = .lex fault) ∨
      ∃ placed l' s' found, l.Yields placed l' ∧ s.advance ops placed = some s' ∧
        l'.next.1.outcome = .ok found ∧ s'.Refuses ops found l'.next.1.start e := by
  generalize houtcome : Except.error e = outcome at h
  induction h with
  | fault _ => cases houtcome; exact .inl ⟨_, rfl⟩
  | @close s l hend =>
      exact .inr ⟨[], l, s, none, .refl l, rfl, hend, refuses_of_close houtcome.symm⟩
  | @refuse s l token _ htoken hstep =>
      cases houtcome
      exact .inr ⟨[], l, s, some token, .refl l, rfl, htoken, refuses_of_step hstep⟩
  | shift htoken hstep _ ih =>
      refine (ih houtcome).imp_right ?_
      rintro ⟨placed, l', s', found, hyields, hadvance, hfound, hrefuses⟩
      exact ⟨_, l', s', found, .step htoken hyields, (advance_cons hstep).trans hadvance, hfound,
        hrefuses⟩

end State

/-- What a text is refused for, if it is not empty: a fault, or what was found behind tokens
that a reader has taken. -/
theorem exists_refusal {text : String} {ops : OperatorSet} {e : ParseError}
    (h : Node.parse text ops = .error e) :
    (e = .empty ∧ (Lexer.ofString text).next.1.outcome = .ok none) ∨ (∃ fault, e = .lex fault) ∨
      ∃ placed l s found, (Lexer.ofString text).Yields placed l ∧
        State.initial.advance ops placed = some s ∧ l.next.1.outcome = .ok found ∧
        s.Refuses ops found l.next.1.start e := by
  by_cases hend : (Lexer.ofString text).next.1.outcome = .ok none
  · rw [parse_of_end hend] at h
    cases h
    exact .inl ⟨rfl, hend⟩
  · have hends := @parse_ends text ops hend
    rw [h] at hends
    exact .inr hends.exists_refusal

/-! ## Where an operator stood -/

namespace State

variable {ops : OperatorSet} {s s' : State}

theorem of_advance_append {ps qs : List (Token × Nat)} (h : s.advance ops (ps ++ qs) = some s') :
    ∃ s₁, s.advance ops ps = some s₁ ∧ s₁.advance ops qs = some s' := by
  induction ps generalizing s with
  | nil => exact ⟨s, rfl, h⟩
  | cons p ps ih =>
      obtain ⟨s₁, left, hstep, hrest⟩ := of_advance_cons h
      obtain ⟨s₂, hps, hqs⟩ := ih hrest
      exact ⟨s₂, (advance_cons hstep).trans hps, hqs⟩

theorem not_takes_operator_behind {symbol : String} {n : Nat} {p : Place} :
    ¬ Place.Takes ops ⟨.behind, n⟩ (.operator symbol) p := by
  intro htakes
  cases htakes with
  | parts hsep => rcases hsep with (h | h) | (h | h) <;> cases h

theorem of_step_operator {symbol : String} {position : Nat} {left : Option Token}
    (h : s.step ops (.operator symbol) position = .shift s' left) :
    ∃ selector op, s' = ⟨.arguments ⟨selector, op, position⟩, s.group, s.outer⟩ := by
  have htakes := takes_of_step h
  obtain ⟨phase, group, outer⟩ := s
  cases phase with
  | operator selector =>
      unfold State.step at h
      dsimp only at h
      split at h
      · next op _ => cases h; exact ⟨selector, op, rfl⟩
      · cases h
  | clauseEnd clause arguments => exact absurd htakes not_takes_operator_behind
  | groupEnd => exact absurd htakes not_takes_operator_behind
  | _ => cases h

theorem position_of_advance {ps qs : List (Token × Nat)} {symbol : String} {position : Nat}
    {clause : Clause} {arguments as : List String}
    (h : s.advance ops (ps ++ (.operator symbol, position) :: qs) = some s')
    (hphase : s'.phase = .clauseEnd clause arguments) (has : Arguments (qs.map Prod.fst) as) :
    clause.position = position := by
  obtain ⟨s₁, -, hrest⟩ := of_advance_append h
  obtain ⟨s₂, left, hstep, hqs⟩ := of_advance_cons hrest
  obtain ⟨selector, op, rfl⟩ := of_step_operator hstep
  rw [advance_arguments has rfl] at hqs
  cases hqs
  cases hphase
  rfl

end State

end Parser

/-! ## What an error says of the text -/

/-- What stands at a place of a text: a token, or the end. -/
def Token.StandsAt (text : List Char) (place : Nat) : Option Token → Prop
  | some token => ∃ after, Token.Spells (text.drop place) token after
  | none => place = text.length

/-- The lexer returns `placed`, and then what it finds at `position`. -/
def Lexer.ReadsTo (text : String) (placed : List (Token × Nat)) (found : Option Token)
    (position : Nat) : Prop :=
  ∃ l, (ofString text).Yields placed l ∧ l.next.1 = ⟨.ok found, position⟩

theorem Lexer.Yields.at {l l' : Lexer} {placed : List (Token × Nat)} {text : List Char}
    (h : l.Yields placed l') (hat : l.At text) : l'.At text := by
  induction h with
  | refl _ => exact hat
  | step hnext _ ih => exact ih (At.next hat hnext).1

theorem Lexer.ReadsTo.standsAt {text : String} {placed : List (Token × Nat)}
    {found : Option Token} {position : Nat} (h : ReadsTo text placed found position) :
    Token.StandsAt text.toList position found := by
  obtain ⟨l, hyields, hnext⟩ := h
  have hat := hyields.at (at_ofString text)
  have hstart : l.next.1.start = position := by rw [hnext]
  have houtcome : l.next.1.outcome = .ok found := by rw [hnext]
  cases found with
  | none =>
      have hstops := hat.stops (stopped_of_end houtcome)
      rw [hnext] at hstops
      cases hstops
      rfl
  | some token =>
      have hdrop := hat.drop_start
      have hscan := next_outcome_eq_ok.mp houtcome
      rw [← hdrop, hstart] at hscan
      exact ⟨_, Token.scan_eq_ok_iff.mp (Prod.ext hscan rfl)⟩

/-- What an error says of a text that was refused with it.

An unexpected token, or end, stands where no sentence goes on with it, behind tokens that a
sentence begins with.  An unknown operator stands behind a selector, where every operator of
the set would go on, and is none of them.  Too many arguments are those of a comparison that
has just been read, the operator of which stands at the position of the error and takes one
argument only; a sentence begins with all that was read. -/
def ParseError.TrueOf (text : String) (ops : OperatorSet) : ParseError → Prop
  | .lex _ => True
  | .empty => ∀ c ∈ text.toList, Text.isBlank c = true
  | .unexpected _ found position =>
      ∃ placed, Lexer.ReadsTo text placed found position ∧
        Token.StandsAt text.toList position found ∧
        Viable ops (placed.map Prod.fst) ∧ ¬ GoesOn ops (placed.map Prod.fst) found
  | .unknownOperator symbol position =>
      ∃ placed before selector, Lexer.ReadsTo text placed (some (.operator symbol)) position ∧
        Token.StandsAt text.toList position (some (.operator symbol)) ∧
        placed.map Prod.fst = before ++ [.bare selector] ∧
        Viable ops (placed.map Prod.fst) ∧
        (∀ op known, ops.Spells op known →
          Viable ops (placed.map Prod.fst ++ [.operator known])) ∧
        ∀ op, ¬ ops.Spells op symbol
  | .tooManyArguments op count position =>
      ∃ before selector symbol behind arguments found place,
        Lexer.ReadsTo text (before ++ selector :: (.operator symbol, position) :: behind) found
          place ∧
        Viable ops ((before ++ selector :: (.operator symbol, position) :: behind).map Prod.fst) ∧
        (∃ name, selector.1 = .bare name) ∧ ops.Spells op symbol ∧ op.takesList = false ∧
        Arguments (behind.map Prod.fst) arguments ∧ arguments.length = count ∧ 2 ≤ count

namespace Parser

theorem outcome_ofString_eq_end_iff {text : String} :
    (Lexer.ofString text).next.1.outcome = .ok none ↔ ∀ c ∈ text.toList, Text.isBlank c = true :=
  Lexer.next_eq_end_iff.trans Lexer.trimLeft_eq_nil_iff

variable {ops : OperatorSet} {text : String} {placed : List (Token × Nat)} {l : Lexer} {s : State}
  {found : Option Token} {place : Nat} {e : ParseError}

theorem State.Refuses.trueOf (hops : ops.Built) (hreads : Lexer.ReadsTo text placed found place)
    (hadvance : State.initial.advance ops placed = some s) (h : s.Refuses ops found place e) :
    e.TrueOf text ops := by
  have hcovers := State.covers_advance State.covers_initial hadvance
  rw [List.nil_append] at hcovers
  have hviable := hcovers.viable hops
  cases h with
  | unexpected expected hnot =>
      refine ⟨placed, hreads, hreads.standsAt, hviable, fun hgoes => hnot ?_⟩
      exact Place.admits_of_goesOn hgoes (State.runs_of_advance hadvance)
  | unknownOperator hphase hfound hlookup =>
      subst hfound
      obtain ⟨before, hbefore⟩ := hcovers.selector hphase
      refine ⟨placed, before, _, hreads, hreads.standsAt, hbefore, hviable, ?_, ?_⟩
      · exact fun op known hspells => hcovers.viable_operator hops hphase hspells
      · intro op hspells
        rw [lookup_eq_some_iff.mpr hspells] at hlookup
        cases hlookup
  | tooManyArguments hphase hlist hcount =>
      obtain ⟨before, symbol, us, htokens, hspells, harguments⟩ := hcovers.comparison hphase
      obtain ⟨front, back, rfl, -, hback⟩ := List.map_eq_append_iff.mp htokens
      obtain ⟨selector, rest, rfl, hselector, hrest⟩ := List.map_eq_cons_iff.mp hback
      obtain ⟨⟨_, position⟩, behind, rfl, hoperator, rfl⟩ := List.map_eq_cons_iff.mp hrest
      cases hoperator
      have hsplit : front ++ selector :: (Token.operator symbol, position) :: behind =
          (front ++ [selector]) ++ (Token.operator symbol, position) :: behind := by
        rw [List.append_assoc]
        rfl
      rw [State.position_of_advance (hsplit ▸ hadvance) hphase harguments]
      exact ⟨front, selector, symbol, behind, _, found, _, hreads, hviable, ⟨_, hselector⟩,
        hspells, hlist, harguments, rfl, hcount⟩

end Parser

/-! ## The theorem -/

/-- **Syntax errors point at the first token that cannot go on.**  Whatever error reading a
text gives is true of it, and a text of blanks only is refused as empty. -/
theorem syntax_errors_point_at_obstacle (text : String) (ops : OperatorSet) (hops : ops.Built) :
    (∀ e, Node.parse text ops = .error e → e.TrueOf text ops) ∧
      ((∀ c ∈ text.toList, Text.isBlank c = true) → Node.parse text ops = .error .empty) := by
  constructor
  · intro e h
    rcases Parser.exists_refusal h with
      ⟨rfl, hend⟩ | ⟨fault, rfl⟩ | ⟨placed, l, s, found, hyields, hadvance, hfound, hrefuses⟩
    · exact Parser.outcome_ofString_eq_end_iff.mp hend
    · trivial
    · exact hrefuses.trueOf hops ⟨l, hyields, by rw [← hfound]⟩ hadvance
  · intro hblank
    exact Parser.parse_of_end (Parser.outcome_ofString_eq_end_iff.mpr hblank)

theorem refused_where_they_stop :
    ParseError.TrueOf "age=in=(1,2) and )" .extended
        (.unexpected .selector (some .closeParen) 17) ∧
      ParseError.TrueOf "(a==1,b=like=2" .extended (.unknownOperator "=like=" 7) ∧
      ParseError.TrueOf "a==1;age<(1,2)" .extended (.tooManyArguments .lessThan 2 8) := by
  have hextended : OperatorSet.extended.Built := .insert _ (.insert _ .defaults)
  have hparenthesis : Node.parse "age=in=(1,2) and )" .extended =
      .error (.unexpected .selector (some .closeParen) 17) :=
    errorOf_eq_some_iff.mp (by decide +kernel)
  have hlike : Node.parse "(a==1,b=like=2" .extended = .error (.unknownOperator "=like=" 7) :=
    errorOf_eq_some_iff.mp (by decide +kernel)
  have htwo : Node.parse "a==1;age<(1,2)" .extended =
      .error (.tooManyArguments .lessThan 2 8) :=
    errorOf_eq_some_iff.mp (by decide +kernel)
  exact ⟨(syntax_errors_point_at_obstacle _ _ hextended).1 _ hparenthesis,
    (syntax_errors_point_at_obstacle _ _ hextended).1 _ hlike,
    (syntax_errors_point_at_obstacle _ _ hextended).1 _ htwo⟩

end RecordFilter
