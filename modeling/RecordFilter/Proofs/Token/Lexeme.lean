/-
# `Proofs.Token.Lexeme` — how each token is written

`token.Lexeme lexeme` lists the ways to write a token, and `token.EndsBefore after`
says what may follow without going on with it.  Together they are what reading one
token does, in both directions:

    Token.scan text = (.ok (some token), after)  ⟺
      ∃ lexeme, text = lexeme ++ after ∧ token.Lexeme lexeme ∧ token.EndsBefore after

Where no token is read there is a reason in the text, and it is one of three: a `~`,
an opening quote that is never closed, or a `=` or `!` that begins no operator
(`LexFault.Explains`, `scan_error`).
-/
import RecordFilter.Proofs.Outcome
import RecordFilter.Proofs.Token.Quoted

namespace RecordFilter

namespace Token

/-! ## Bare words -/

/-- No bare token goes on with this text. -/
def Breaks (rest : List Char) : Prop :=
  ∀ c ∈ rest.head?, isUnreserved c = false

theorem breaks_cons {c : Char} (h : isUnreserved c = false) (rest : List Char) :
    Breaks (c :: rest) := by
  intro d hd
  cases hd
  exact h

theorem trimLeft_of_unreserved {c : Char} (h : isUnreserved c = true) (rest : List Char) :
    Text.trimLeft (c :: rest) = c :: rest := by
  refine List.dropWhile_cons_of_neg ?_
  intro hblank
  rw [isUnreserved, hblank] at h
  cases h

theorem scan_bare {text rest : List Char} (hne : text ≠ [])
    (hall : ∀ c ∈ text, isUnreserved c = true) (hrest : Breaks rest) :
    scan (text ++ rest) = (.ok (some (.bare (String.ofList text))), rest) := by
  have hstop : rest.takeWhile isUnreserved = [] ∧ rest.dropWhile isUnreserved = rest := by
    match rest, hrest with
    | [], _ => exact ⟨rfl, rfl⟩
    | c :: _, hrest =>
        have hc : ¬ isUnreserved c = true := by
          rw [hrest c rfl]
          exact Bool.false_ne_true
        exact ⟨List.takeWhile_cons_of_neg hc, List.dropWhile_cons_of_neg hc⟩
  match text, hne, hall with
  | c :: text, _, hall =>
      rw [List.cons_append, scan, if_pos (hall c List.mem_cons_self), ← List.cons_append,
        List.takeWhile_append_of_pos hall, List.dropWhile_append_of_pos hall, hstop.1, hstop.2,
        List.append_nil]

theorem breaks_dropWhile (text : List Char) : Breaks (text.dropWhile isUnreserved) := by
  intro c hc
  have hnot := List.head?_dropWhile_not isUnreserved text
  rw [Option.mem_def.mp hc] at hnot
  exact hnot

/-! ## Operators -/

/-- What is read as an operator, whether or not one is spelled so. -/
inductive Symbol : List Char → Prop
  | equal : Symbol ['=', '=']
  | notEqual : Symbol ['!', '=']
  | less : Symbol ['<']
  | lessOrEqual : Symbol ['<', '=']
  | greater : Symbol ['>']
  | greaterOrEqual : Symbol ['>', '=']
  | named {name : List Char} :
      name ≠ [] → (∀ c ∈ name, c.isAlpha = true) → Symbol ('=' :: name ++ ['='])

theorem scanEquals_name {name : List Char} (hne : name ≠ []) (hname : ∀ c ∈ name, c.isAlpha = true)
    (rest : List Char) :
    scanEquals (name ++ '=' :: rest) =
      (.ok (.operator (String.ofList ('=' :: name ++ ['=']))), rest) := by
  have htake : (name ++ '=' :: rest).takeWhile Char.isAlpha = name := by
    rw [List.takeWhile_append_of_pos hname, List.takeWhile_cons_of_neg (by decide), List.append_nil]
  have hdrop : (name ++ '=' :: rest).dropWhile Char.isAlpha = '=' :: rest := by
    rw [List.dropWhile_append_of_pos hname, List.dropWhile_cons_of_neg (by decide)]
  match name, hne with
  | c :: name, _ =>
      have hc : c ≠ '=' := by
        rintro rfl
        exact absurd (hname '=' List.mem_cons_self) (by decide)
      unfold scanEquals
      split
      · next heq => exact absurd (List.cons.inj heq).1 hc
      · dsimp only
        rw [htake, hdrop]
        rfl

variable {text after : List Char} {token : Token}

theorem scanEquals_ok (h : scanEquals text = (.ok token, after)) :
    (text = '=' :: after ∧ token = .operator "==") ∨
      ∃ name, name ≠ [] ∧ (∀ c ∈ name, c.isAlpha = true) ∧ text = name ++ '=' :: after ∧
        token = .operator (String.ofList ('=' :: name ++ ['='])) := by
  unfold scanEquals at h
  split at h
  · cases h
    exact .inl ⟨rfl, rfl⟩
  · dsimp only at h
    split at h
    · cases h
    · next hne =>
        split at h
        · next rest hrest =>
            cases h
            refine .inr ⟨text.takeWhile Char.isAlpha, ?_, ?_, ?_, rfl⟩
            · exact fun hnil => hne (List.isEmpty_iff.mpr hnil)
            · exact List.all_eq_true.mp List.all_takeWhile
            · rw [← hrest, List.takeWhile_append_dropWhile]
        · cases h

/-! ## Lexemes -/

/-- The ways to write a token. -/
inductive Lexeme : Token → List Char → Prop
  | bare {text : String} :
      text ≠ "" → (∀ c ∈ text.toList, isUnreserved c = true) → Lexeme (.bare text) text.toList
  | quoted {quote : Char} {body : List Char} {text : String} :
      IsQuote quote → Quotes quote body text.toList →
      Lexeme (.quoted text) (quote :: (body ++ [quote]))
  | operator {symbol : String} : Symbol symbol.toList → Lexeme (.operator symbol) symbol.toList
  | semicolon : Lexeme .semicolon [';']
  | comma : Lexeme .comma [',']
  | openParen : Lexeme .openParen ['(']
  | closeParen : Lexeme .closeParen [')']

/-- The token does not go on with the text behind it: a bare word not with another
unreserved character, and a lone `<` or `>` not with `=`. -/
def EndsBefore : Token → List Char → Prop
  | .bare _, after => Breaks after
  | .operator symbol, after => symbol = "<" ∨ symbol = ">" → after.head? ≠ some '='
  | _, _ => True

theorem Lexeme.ne_nil {lexeme : List Char} (h : token.Lexeme lexeme) : lexeme ≠ [] := by
  cases h with
  | bare hne _ => exact fun hnil => hne (String.toList_eq_nil_iff.mp hnil)
  | operator hsymbol =>
      intro hnil
      rw [hnil] at hsymbol
      cases hsymbol
  | _ => exact List.cons_ne_nil _ _

theorem Lexeme.trimLeft {lexeme : List Char} (h : token.Lexeme lexeme) (after : List Char) :
    Text.trimLeft (lexeme ++ after) = lexeme ++ after := by
  cases h with
  | @bare text hne hall =>
      match htext : text.toList, hall with
      | [], _ => exact absurd (String.toList_eq_nil_iff.mp htext) hne
      | c :: rest, hall => exact trimLeft_of_unreserved (hall c List.mem_cons_self) _
  | quoted hquote _ => rcases hquote with rfl | rfl <;> rfl
  | @operator symbol hsymbol =>
      generalize symbol.toList = letters at hsymbol
      cases hsymbol <;> rfl
  | _ => rfl

/-! ### From the lexeme to the token -/

/-- A lone `<` or `>` is a token if no `=` is behind it. -/
theorem scanReserved_lone (h : after.head? ≠ some '=') :
    scanReserved '<' after = (.ok (.operator "<"), after) ∧
      scanReserved '>' after = (.ok (.operator ">"), after) := by
  have hne : ∀ rest, after = '=' :: rest → False := by
    rintro rest rfl
    exact h rfl
  constructor
  · rw [scanReserved]
    exact hne
  · rw [scanReserved]
    exact hne

theorem scan_symbol {letters : List Char} (h : Symbol letters)
    (hends : (Token.operator (String.ofList letters)).EndsBefore after) :
    scan (letters ++ after) = (.ok (some (.operator (String.ofList letters))), after) := by
  cases h with
  | less =>
      show ((scanReserved '<' after).1.map some, (scanReserved '<' after).2) = _
      rw [(scanReserved_lone (hends (.inl rfl))).1]
      rfl
  | greater =>
      show ((scanReserved '>' after).1.map some, (scanReserved '>' after).2) = _
      rw [(scanReserved_lone (hends (.inr rfl))).2]
      rfl
  | @named name hne hname =>
      show ((scanEquals (name ++ ['='] ++ after)).1.map some,
        (scanEquals (name ++ ['='] ++ after)).2) = _
      rw [List.append_assoc, List.singleton_append, scanEquals_name hne hname]
      rfl
  | _ => rfl

theorem scan_lexeme {lexeme : List Char} (h : token.Lexeme lexeme)
    (hends : token.EndsBefore after) : scan (lexeme ++ after) = (.ok (some token), after) := by
  cases h with
  | @bare text hne hall =>
      have hscan := scan_bare (fun hnil => hne (String.toList_eq_nil_iff.mp hnil)) hall hends
      rwa [String.ofList_toList] at hscan
  | @quoted quote body text hquote hbody =>
      have hscan := scan_quoted hquote hbody after
      rw [String.ofList_toList] at hscan
      rwa [List.cons_append, List.append_assoc]
  | @operator symbol hsymbol =>
      rw [← @String.ofList_toList symbol] at hends
      have hscan := scan_symbol hsymbol hends
      rwa [String.ofList_toList] at hscan
  | _ => rfl

/-! ### From the token to the lexeme -/

/-- The text is a lexeme of the token, and the token ends where `after` begins. -/
def Spells (text : List Char) (token : Token) (after : List Char) : Prop :=
  ∃ lexeme, text = lexeme ++ after ∧ token.Lexeme lexeme ∧ token.EndsBefore after

/-- An operator is spelled by its symbol, which ends where it ends unless it is a lone `<`
or `>`. -/
theorem spells_symbol {letters : List Char} (h : Symbol letters)
    (hends : letters = ['<'] ∨ letters = ['>'] → after.head? ≠ some '=') :
    Spells (letters ++ after) (.operator (String.ofList letters)) after := by
  refine ⟨letters, rfl, ?_, ?_⟩
  · have hlexeme : (Token.operator (String.ofList letters)).Lexeme _ :=
      .operator (String.toList_ofList.symm ▸ h)
    rwa [String.toList_ofList] at hlexeme
  · intro hsymbol
    refine hends (hsymbol.imp (fun heq => ?_) fun heq => ?_)
    · rw [← @String.toList_ofList letters, heq]
      rfl
    · rw [← @String.toList_ofList letters, heq]
      rfl

theorem spells_equals (h : scanEquals text = (.ok token, after)) :
    Spells ('=' :: text) token after := by
  rcases scanEquals_ok h with ⟨rfl, rfl⟩ | ⟨name, hne, hname, rfl, rfl⟩
  · exact spells_symbol .equal (by rintro (heq | heq) <;> cases heq)
  · have hspells := @spells_symbol after _ (.named hne hname) (by
      rintro (heq | heq)
      · exact absurd (List.cons.inj heq).1 (by decide)
      · exact absurd (List.cons.inj heq).1 (by decide))
    rwa [List.append_assoc] at hspells

theorem spells_lone {c : Char} (hc : c = '<' ∨ c = '>') (h : ∀ rest, after ≠ '=' :: rest) :
    Spells (c :: after) (.operator (String.ofList [c])) after := by
  have hsymbol : Symbol [c] := by
    rcases hc with rfl | rfl
    · exact .less
    · exact .greater
  refine spells_symbol hsymbol fun _ hhead => ?_
  obtain ⟨rest, rfl⟩ := List.head?_eq_some_iff.mp hhead
  exact h rest rfl

theorem spells_quoted {quote : Char} {inside : List Char} (hquote : IsQuote quote)
    (h : readQuoted quote text = (some inside, after)) :
    Spells (quote :: text) (.quoted (String.ofList inside)) after := by
  obtain ⟨body, rfl, hbody⟩ := quotes_of_readQuoted h
  refine ⟨quote :: (body ++ [quote]), ?_, .quoted hquote (String.toList_ofList.symm ▸ hbody), trivial⟩
  rw [List.cons_append, List.append_assoc]
  rfl

theorem spells_of_scanReserved {c : Char} (h : scanReserved c text = (.ok token, after)) :
    Spells (c :: text) token after := by
  unfold scanReserved at h
  split at h
  · cases h
    exact ⟨['('], rfl, .openParen, trivial⟩
  · cases h
    exact ⟨[')'], rfl, .closeParen, trivial⟩
  · cases h
    exact ⟨[';'], rfl, .semicolon, trivial⟩
  · cases h
    exact ⟨[','], rfl, .comma, trivial⟩
  · exact spells_equals h
  · split at h <;> cases h
    exact spells_symbol .notEqual (by rintro (heq | heq) <;> cases heq)
  · split at h <;> cases h
    · exact spells_symbol .lessOrEqual (by rintro (heq | heq) <;> cases heq)
    · next hne => exact spells_lone (.inl rfl) hne
  · split at h <;> cases h
    · exact spells_symbol .greaterOrEqual (by rintro (heq | heq) <;> cases heq)
    · next hne => exact spells_lone (.inr rfl) hne
  · split at h <;> cases h
    next hread => exact spells_quoted (.inl rfl) hread
  · split at h <;> cases h
    next hread => exact spells_quoted (.inr rfl) hread
  · cases h

/-- **Reading one token is finding its lexeme.** -/
theorem scan_eq_ok_iff : scan text = (.ok (some token), after) ↔ Spells text token after := by
  constructor
  · intro h
    have hspelled := (scan_ok h).2
    match text, h with
    | c :: rest, h =>
        rw [scan] at h
        split at h
        · cases h
          have hlexeme := Lexeme.bare hspelled.1 hspelled.2
          rw [String.toList_ofList] at hlexeme
          exact ⟨_, List.takeWhile_append_dropWhile.symm, hlexeme, breaks_dropWhile _⟩
        · dsimp only at h
          obtain ⟨houtcome, rfl⟩ := Prod.mk.inj h
          obtain ⟨token', htoken, heq⟩ := map_eq_ok_iff.mp houtcome
          cases heq
          exact spells_of_scanReserved (Prod.ext htoken rfl)
  · rintro ⟨lexeme, rfl, hlexeme, hends⟩
    exact scan_lexeme hlexeme hends

end Token

/-! ## Faults -/

/-- Why no token is written where a text begins. -/
inductive LexFault.Explains : LexFault → List Char → Prop
  | tilde (rest : List Char) : Explains (.unexpectedChar '~') ('~' :: rest)
  | openQuote {quote : Char} {rest : List Char} :
      Token.IsQuote quote →
      (∀ body text after, Token.Quotes quote body text → rest ≠ body ++ quote :: after) →
      Explains .unterminatedString (quote :: rest)
  | noOperator {c : Char} {rest : List Char} (fault : OperatorFault) :
      c = '=' ∨ c = '!' → (∀ symbol, Token.Symbol symbol → ¬ symbol <+: c :: rest) →
      Explains (.malformedOperator fault) (c :: rest)

namespace Token

/-- Where an operator begins with a sign or a bang, it is read. -/
theorem no_symbol_of_scan {c : Char} {rest : List Char} {fault : LexFault}
    (hc : c = '=' ∨ c = '!') (h : (scan (c :: rest)).1 = .error fault) :
    ∀ symbol, Symbol symbol → ¬ symbol <+: c :: rest := by
  rintro letters hsymbol ⟨after, htext⟩
  have hspells : Spells (letters ++ after) _ after := spells_symbol hsymbol fun hlone => by
    rcases hlone with rfl | rfl <;> rcases hc with rfl | rfl <;> cases htext
  rw [← htext, scan_eq_ok_iff.mpr hspells] at h
  cases h

theorem scanEquals_error {text : List Char} {fault : LexFault}
    (h : (scanEquals text).1 = .error fault) : ∃ reason, fault = .malformedOperator reason := by
  unfold scanEquals at h
  split at h
  · cases h
  · dsimp only at h
    split at h
    · cases h
      exact ⟨_, rfl⟩
    · split at h <;> cases h
      exact ⟨_, rfl⟩

theorem scanReserved_error {c : Char} {rest : List Char} {fault : LexFault}
    (h : (scanReserved c rest).1 = .error fault) :
    ((c = '=' ∨ c = '!') ∧ ∃ reason, fault = .malformedOperator reason) ∨
      (IsQuote c ∧ fault = .unterminatedString ∧ ∃ after, readQuoted c rest = (none, after)) ∨
      (fault = .unexpectedChar c ∧ (c ∈ reservedChars → c = '~')) := by
  unfold scanReserved at h
  split at h
  · cases h
  · cases h
  · cases h
  · cases h
  · exact .inl ⟨.inl rfl, scanEquals_error h⟩
  · split at h <;> cases h
    exact .inl ⟨.inr rfl, _, rfl⟩
  · split at h <;> cases h
  · split at h <;> cases h
  · split at h <;> cases h
    next hread => exact .inr (.inl ⟨.inl rfl, rfl, _, hread⟩)
  · split at h <;> cases h
    next hread => exact .inr (.inl ⟨.inr rfl, rfl, _, hread⟩)
  · cases h
    -- every other reserved character has a case of its own
    refine .inr (.inr ⟨rfl, fun hreserved => ?_⟩)
    simp_all [reservedChars]

/-- **A fault has its reason in the text.** -/
theorem scan_error {c : Char} {rest : List Char} {fault : LexFault}
    (hblank : Text.isBlank c = false) (h : (scan (c :: rest)).1 = .error fault) :
    fault.Explains (c :: rest) := by
  have hscan := h
  rw [scan] at h
  split at h
  · cases h
  · next hc =>
      have hreserved : c ∈ reservedChars := by
        rw [isUnreserved, hblank] at hc
        simpa using hc
      rcases scanReserved_error (map_eq_error_iff.mp h) with
        ⟨hsign, reason, rfl⟩ | ⟨hquote, rfl, after, hopen⟩ | ⟨rfl, htilde⟩
      · exact .noOperator reason hsign (no_symbol_of_scan hsign hscan)
      · exact .openQuote hquote fun body text after hbody =>
          not_quoted_of_readQuoted hquote.ne_backslash hopen body text after hbody
      · obtain rfl := htilde hreserved
        exact .tilde rest

end Token

end RecordFilter
