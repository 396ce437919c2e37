/-
# `Proofs.Token.Quoted` — the ways to write a quoted text

A text between quotes can be written in many ways: with either quote, and with a
backslash before any character that has to be kept from closing the text, or before
any other.  `Token.Quotes quote body text` says that `body` is one of them, and
reading undoes them all (`readQuoted_of_quotes`), whatever follows the closing quote, and
reads nothing that was not written so (`quotes_of_readQuoted`).
-/
import RecordFilter.Proofs.Token.Stream

namespace RecordFilter

namespace Token

/-- `body` writes `text` between quotes: the quote and the backslash stand behind a
backslash, and anything else may. -/
inductive Quotes (quote : Char) : List Char → List Char → Prop
  | nil : Quotes quote [] []
  | plain {c : Char} {body text : List Char} :
      c ≠ quote → c ≠ '\\' → Quotes quote body text → Quotes quote (c :: body) (c :: text)
  | escaped {c : Char} {body text : List Char} :
      Quotes quote body text → Quotes quote ('\\' :: c :: body) (c :: text)

/-- The two quotes. -/
def IsQuote (c : Char) : Prop :=
  c = '"' ∨ c = '\''

theorem IsQuote.ne_backslash {quote : Char} (h : IsQuote quote) : quote ≠ '\\' := by
  rcases h with rfl | rfl
  · decide
  · decide

/-- **Reading undoes every way of writing.** -/
theorem readQuoted_of_quotes {quote : Char} {body text : List Char} (hquote : quote ≠ '\\')
    (h : Quotes quote body text) (rest : List Char) :
    readQuoted quote (body ++ quote :: rest) = (some text, rest) := by
  induction h with
  | nil =>
      rw [List.nil_append]
      unfold readQuoted
      exact if_pos rfl
  | plain hne hslash _ ih =>
      rw [List.cons_append, readQuoted.eq_def]
      simp only [if_neg hne, if_neg hslash, ih, Option.map_some]
  | escaped _ ih =>
      rw [List.cons_append, List.cons_append, readQuoted.eq_def]
      simp only [if_neg hquote.symm, if_true, ih, Option.map_some]

theorem quotes_of_readQuoted {quote : Char} {text after inside : List Char}
    (h : readQuoted quote text = (some inside, after)) :
    ∃ body, text = body ++ quote :: after ∧ Quotes quote body inside := by
  fun_induction readQuoted quote text generalizing inside after with
  | case1 => cases h
  | case2 rest =>
      cases h
      exact ⟨[], rfl, .nil⟩
  | case3 => cases h
  | case4 escaped rest inside' after' hread hquote ih =>
      obtain ⟨hinside, rfl⟩ := Prod.mk.inj h
      obtain ⟨inside', rfl, rfl⟩ := Option.map_eq_some_iff.mp hinside
      obtain ⟨body, rfl, hbody⟩ := ih hread
      exact ⟨'\\' :: escaped :: body, rfl, .escaped hbody⟩
  | case5 c rest hquote hslash inside' after' hread ih =>
      obtain ⟨hinside, rfl⟩ := Prod.mk.inj h
      obtain ⟨inside', rfl, rfl⟩ := Option.map_eq_some_iff.mp hinside
      obtain ⟨body, rfl, hbody⟩ := ih hread
      exact ⟨c :: body, rfl, .plain hquote hslash hbody⟩

theorem not_quoted_of_readQuoted {quote : Char} {text after : List Char} (hquote : quote ≠ '\\')
    (h : readQuoted quote text = (none, after)) (body inside rest : List Char)
    (hbody : Quotes quote body inside) : text ≠ body ++ quote :: rest := by
  rintro rfl
  rw [readQuoted_of_quotes hquote hbody rest] at h
  cases h

theorem scan_quoted {quote : Char} {body text : List Char} (hquote : IsQuote quote)
    (h : Quotes quote body text) (rest : List Char) :
    scan (quote :: (body ++ quote :: rest)) =
      (.ok (some (.quoted (String.ofList text))), rest) := by
  have hread := readQuoted_of_quotes hquote.ne_backslash h rest
  rcases hquote with rfl | rfl
  · show ((scanReserved '"' _).1.map some, (scanReserved '"' _).2) = _
    unfold scanReserved
    rw [hread]
    rfl
  · show ((scanReserved '\'' _).1.map some, (scanReserved '\'' _).2) = _
    unfold scanReserved
    rw [hread]
    rfl

end Token

theorem Lexer.passes_quoted {quote : Char} {body text : List Char} (hquote : Token.IsQuote quote)
    (h : Token.Quotes quote body text) (rest : List Char) :
    Passes (quote :: (body ++ quote :: rest)) [.quoted (String.ofList text)] rest := by
  refine passes_one ?_ (Token.scan_quoted hquote h rest)
  rcases hquote with rfl | rfl <;> rfl

end RecordFilter
