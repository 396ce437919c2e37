/-
# `Proofs.Token.Layout` — reading undoes writing

A list of tokens can be laid out as a text in many ways: each token as one of its lexemes,
blanks of any kind and number in front, between and behind.  Between two tokens stands at
least one blank, since nothing else is known of neighbours: `<` in front of `==` would be
another token.  `Token.Layout` is one such way, `Layout.text` the text and `Layout.spans`
the tokens with their places in it.

The lexer returns those spans and then the end (`Layout.untilStopped_text`).  A text has
one list of tokens (`ReadsAll.unique`), and the reader looks at nothing else, so that two
layouts of the same tokens are read as the same tree or are both refused.
-/
import RecordFilter.Proofs.Node.Acceptance
import RecordFilter.Proofs.Token.Partition

namespace RecordFilter

open Grammar

/-! ## Layouts -/

namespace Token

/-- A token as it is written, and the blanks behind it. -/
structure Written where
  token : Token
  lexeme : List Char
  gap : List Char
  writes : token.Lexeme lexeme
  blank : ∀ c ∈ gap, Text.isBlank c = true

namespace Written

/-- The text of written tokens. -/
def textOf (words : List Written) : List Char :=
  words.flatMap fun w => w.lexeme ++ w.gap

/-- Written tokens with their places, the first one at `place`. -/
def spansFrom : Nat → List Written → List Span
  | _, [] => []
  | place, w :: words =>
      ⟨w.token, place, place + w.lexeme.length⟩ ::
        spansFrom (place + w.lexeme.length + w.gap.length) words

/-- Behind each token but the last there is a blank. -/
def Apart (words : List Written) : Prop :=
  ∀ w ∈ words.dropLast, w.gap ≠ []

end Written

/-- A way to write a list of tokens. -/
structure Layout where
  lead : List Char
  words : List Written
  lead_blank : ∀ c ∈ lead, Text.isBlank c = true
  apart : Written.Apart words

namespace Layout

/-- The tokens that are written. -/
def tokens (layout : Layout) : List Token :=
  layout.words.map (·.token)

/-- The text that is written. -/
def text (layout : Layout) : String :=
  String.ofList (layout.lead ++ Written.textOf layout.words)

/-- The tokens, and where in the text each of them was written. -/
def spans (layout : Layout) : List Span :=
  Written.spansFrom layout.lead.length layout.words

end Layout

/-! ## Seams -/

theorem endsBefore_of_blank {after : List Char} (h : ∀ c ∈ after.head?, Text.isBlank c = true)
    (token : Token) : token.EndsBefore after := by
  cases token with
  | bare text =>
      intro c hc
      rw [isUnreserved, h c hc]
      rfl
  | operator symbol =>
      intro _ hhead
      exact absurd (h '=' hhead) (by decide)
  | _ => trivial

namespace Written

@[simp]
theorem textOf_cons (w : Written) (words : List Written) :
    textOf (w :: words) = w.lexeme ++ (w.gap ++ textOf words) := by
  show (w.lexeme ++ w.gap) ++ textOf words = _
  rw [List.append_assoc]

theorem Apart.tail {w : Written} {words : List Written} (h : Apart (w :: words)) :
    Apart words := by
  intro v hv
  cases words with
  | nil => cases hv
  | cons u words => exact h v (List.mem_cons_of_mem _ hv)

theorem Apart.blank_behind {w : Written} {words : List Written} (h : Apart (w :: words)) :
    ∀ c ∈ (w.gap ++ textOf words).head?, Text.isBlank c = true := by
  intro c hc
  cases words with
  | nil =>
      rw [show textOf [] = [] from rfl, List.append_nil] at hc
      exact w.blank c (List.mem_of_head? hc)
  | cons u words =>
      obtain ⟨d, gap, hgap⟩ := List.exists_cons_of_ne_nil (h w List.mem_cons_self)
      rw [hgap, List.cons_append, List.head?_cons, Option.mem_some_iff] at hc
      exact w.blank c (hgap ▸ hc ▸ List.mem_cons_self)

end Written
end Token

/-! ## Reading a layout -/

namespace Lexer

open Token

variable {l l' : Lexer}

/-- A lexer in front of written tokens returns them at their places, and then stands in
front of the blanks behind the last one. -/
theorem exists_scans_written {words : List Written} (hapart : Written.Apart words)
    {gap : List Char} (hgap : ∀ c ∈ gap, Text.isBlank c = true)
    (hrest : l.rest = gap ++ Written.textOf words) :
    ∃ l', l.Scans (Written.spansFrom (l.position + gap.length) words) l' ∧
      (∀ c ∈ l'.rest, Text.isBlank c = true) ∧
      l'.position + l'.rest.length = l.position + l.rest.length := by
  -- the blanks behind a word are those in front of the next one
  induction words generalizing l gap with
  | nil =>
      rw [show Written.textOf [] = [] from rfl, List.append_nil] at hrest
      exact ⟨l, .refl l, hrest ▸ hgap, rfl⟩
  | cons w words ih =>
      rw [Written.textOf_cons] at hrest
      have hnext := next_of_lexeme hrest hgap w.writes (endsBefore_of_blank hapart.blank_behind _)
      obtain ⟨l', hscans, hblank, hlength⟩ :=
        @ih ⟨w.gap ++ Written.textOf words, l.position + gap.length + w.lexeme.length,
          l.position + gap.length⟩ hapart.tail w.gap w.blank rfl
      refine ⟨l', ?_, hblank, ?_⟩
      · have hstep : l.next.1.outcome = .ok (some w.token) := by rw [hnext]
        have hscans' := Scans.step hstep (by rwa [hnext])
        rwa [hnext] at hscans'
      · rw [hlength, hrest]
        simp only [List.length_append]
        omega

theorem next_of_blanks (h : ∀ c ∈ l.rest, Text.isBlank c = true) :
    l.next.1 = ⟨.ok none, l.position + l.rest.length⟩ := by
  have htrim := trimLeft_eq_nil_iff.mpr h
  have houtcome := next_eq_end_iff.mpr htrim
  have hstart := next_start l
  have htake := blanks_append_trimLeft l.rest
  rw [htrim, List.append_nil] at htake
  rw [htake] at hstart
  calc l.next.1 = ⟨l.next.1.outcome, l.next.1.start⟩ := rfl
    _ = ⟨.ok none, l.position + l.rest.length⟩ := by rw [houtcome, hstart]

theorem scans_layout (layout : Layout) :
    ∃ l, (ofString layout.text).Scans layout.spans l ∧
      l.next.1 = ⟨.ok none, layout.text.length⟩ := by
  have hrest : (ofString layout.text).rest = layout.lead ++ Written.textOf layout.words :=
    String.toList_ofList
  obtain ⟨l, hscans, hblank, hlength⟩ :=
    exists_scans_written layout.apart layout.lead_blank hrest
  have hposition : (ofString layout.text).position = 0 := rfl
  rw [hposition, Nat.zero_add] at hscans hlength
  refine ⟨l, hscans, ?_⟩
  rw [next_of_blanks hblank, hlength]
  rfl

/-! ## The tokens of a text -/

theorem Scans.yields {spans : List Span} (h : l.Scans spans l') :
    l.Yields (spans.map fun span => (span.token, span.start)) l' := by
  induction h with
  | refl l => exact .refl l
  | step hnext _ ih => exact .step hnext ih

theorem Yields.unique {placed placed' : List (Token × Nat)} {l₁ l₂ : Lexer}
    (h : l.Yields placed l₁) (h' : l.Yields placed' l₂) (hstop : l₁.Stopped)
    (hstop' : l₂.Stopped) : placed = placed' ∧ l₁ = l₂ := by
  induction h generalizing placed' with
  | refl l =>
      cases h' with
      | refl _ => exact ⟨rfl, rfl⟩
      | step hnext _ => exact absurd hnext (hstop _)
  | step hnext _ ih =>
      cases h' with
      | refl _ => exact absurd hnext (hstop' _)
      | step hnext' hrest' =>
          rw [hnext] at hnext'
          cases hnext'
          obtain ⟨rfl, rfl⟩ := ih hrest' hstop
          exact ⟨rfl, rfl⟩

theorem ReadsAll.unique {ts us : List Token} (h : l.ReadsAll ts) (h' : l.ReadsAll us) :
    ts = us := by
  obtain ⟨placed, l₁, hyields, hend, rfl⟩ := h
  obtain ⟨placed', l₂, hyields', hend', rfl⟩ := h'
  rw [(hyields.unique hyields' (stopped_of_end hend) (stopped_of_end hend')).1]

@[simp]
theorem map_token_spansFrom (words : List Written) (place : Nat) :
    (Written.spansFrom place words).map (·.token) = words.map (·.token) := by
  induction words generalizing place with
  | nil => rfl
  | cons w words ih => exact congrArg (w.token :: ·) (ih _)

theorem readsAll_layout (layout : Layout) : (ofString layout.text).ReadsAll layout.tokens := by
  obtain ⟨l, hscans, hend⟩ := scans_layout layout
  refine ⟨_, l, hscans.yields, by rw [hend], ?_⟩
  rw [List.map_map]
  exact map_token_spansFrom _ _

end Lexer

/-! ## Reading the tokens -/

theorem Node.parse_toOption_iff {text : String} {ops : OperatorSet} {ts : List Token} {n : Node}
    (hreads : (Lexer.ofString text).ReadsAll ts) :
    (Node.parse text ops).toOption = some n ↔ Expression ops ts n := by
  rw [toOption_eq_some_iff]
  constructor
  · intro h
    obtain ⟨us, hreads', hexpression⟩ := Node.expression_of_parse h
    rwa [hreads.unique hreads']
  · exact Node.parse_of_expression hreads

/-! ## The theorem -/

/-- **Reading undoes writing.**  From the text of a layout the lexer returns the tokens that
were written, each at its place, and then the end; and another layout of the same tokens is
read as the same tree, or is refused as well, whatever the operators. -/
theorem lexing_undoes_writing (layout other : Token.Layout) (ops : OperatorSet) :
    (Lexer.ofString layout.text).untilStopped =
        layout.spans.map Token.Span.reading ++ [⟨.ok none, layout.text.length⟩] ∧
      (other.tokens = layout.tokens →
        (Node.parse other.text ops).toOption = (Node.parse layout.text ops).toOption) := by
  constructor
  · obtain ⟨l, hscans, hend⟩ := Lexer.scans_layout layout
    have hstop : l.Stopped := Lexer.stopped_of_end (by rw [hend])
    rw [hscans.untilStopped_eq hstop, hend]
  · intro htokens
    have hother := Lexer.readsAll_layout other
    rw [htokens] at hother
    refine Option.ext fun n => ?_
    rw [Node.parse_toOption_iff hother, Node.parse_toOption_iff (Lexer.readsAll_layout layout)]

theorem parse_respaced :
    ∃ plain spaced : Token.Layout,
      plain.text = "name == \"it's\"" ∧ spaced.text = "  name\n==\t'\\it\\'s' " ∧
      (Lexer.ofString spaced.text).untilStopped = [⟨.ok (some (.bare "name")), 2⟩,
        ⟨.ok (some (.operator "==")), 7⟩, ⟨.ok (some (.quoted "it's")), 10⟩, ⟨.ok none, 19⟩] ∧
      (Node.parse plain.text .defaults).toOption = (Node.parse spaced.text .defaults).toOption := by
  have hname : Token.Lexeme (.bare "name") "name".toList :=
    .bare (by decide) (List.all_eq_true.mp rfl)
  have hequal : Token.Lexeme (.operator "==") "==".toList := .operator .equal
  have hdouble : Token.Lexeme (.quoted "it's") ('"' :: ("it's".toList ++ ['"'])) :=
    .quoted (.inl rfl) (.plain (by decide) (by decide) (.plain (by decide) (by decide)
      (.plain (by decide) (by decide) (.plain (by decide) (by decide) .nil))))
  have hsingle : Token.Lexeme (.quoted "it's") ('\'' :: ("\\it\\'s".toList ++ ['\''])) :=
    .quoted (.inr rfl) (.escaped (.plain (by decide) (by decide)
      (.escaped (.plain (by decide) (by decide) .nil))))
  have hplain : Token.Written.Apart
      [⟨_, _, [' '], hname, List.all_eq_true.mp rfl⟩,
        ⟨_, _, [' '], hequal, List.all_eq_true.mp rfl⟩,
        ⟨_, _, [], hdouble, List.all_eq_true.mp rfl⟩] := by
    simp [Token.Written.Apart]
  have hspaced : Token.Written.Apart
      [⟨_, _, ['\n'], hname, List.all_eq_true.mp rfl⟩,
        ⟨_, _, ['\t'], hequal, List.all_eq_true.mp rfl⟩,
        ⟨_, _, [' '], hsingle, List.all_eq_true.mp rfl⟩] := by
    simp [Token.Written.Apart]
  obtain ⟨hreadings, htree⟩ := lexing_undoes_writing
    ⟨[' ', ' '], _, List.all_eq_true.mp rfl, hspaced⟩ ⟨[], _, List.all_eq_true.mp rfl, hplain⟩
    .defaults
  have hlength :
      (Token.Layout.text ⟨[' ', ' '], _, List.all_eq_true.mp rfl, hspaced⟩).length = 19 :=
    congrArg String.length (show _ = "  name\n==\t'\\it\\'s' " from rfl)
  rw [hlength] at hreadings
  exact ⟨_, _, rfl, rfl, hreadings, htree rfl⟩

end RecordFilter
