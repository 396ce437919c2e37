/-
# `Proofs.Token.Partition` — the lexer partitions the text

Call after call a lexer takes a text apart into tokens with nothing but blanks between
them, up to the end of the text or the first fault.  `l.Scans spans l'` are the calls
that return tokens, each with the place where it begins and the one where the lexer
stands behind it; `Partitions` says by positions alone what such places are:

    ordered   no span begins before the one in front of it has ended
    spelled   each is its token, written out, and ends where that token ends
    between   a character in no span is a blank

One call is all that is looked at (`next_token`, `next_of_lexeme`): the rest is
induction over the calls.
-/
import RecordFilter.Proofs.Token.Lexeme

namespace RecordFilter

namespace Lexer

/-! ## One call -/

@[simp]
theorem blanks_append_trimLeft (text : List Char) :
    text.takeWhile Text.isBlank ++ Text.trimLeft text = text :=
  List.takeWhile_append_dropWhile

theorem trimLeft_append {gap : List Char} (hgap : ∀ c ∈ gap, Text.isBlank c = true)
    (text : List Char) : Text.trimLeft (gap ++ text) = Text.trimLeft text :=
  List.dropWhile_append_of_pos hgap

theorem trimLeft_eq_nil_iff {text : List Char} :
    Text.trimLeft text = [] ↔ ∀ c ∈ text, Text.isBlank c = true := by
  constructor
  · intro h
    have htake := blanks_append_trimLeft text
    rw [h, List.append_nil] at htake
    rw [← htake]
    exact List.all_eq_true.mp List.all_takeWhile
  · intro h
    have hskip := trimLeft_append h []
    rwa [List.append_nil] at hskip

theorem head_trimLeft {text rest : List Char} {c : Char} (h : Text.trimLeft text = c :: rest) :
    Text.isBlank c = false := by
  have hnot := List.head?_dropWhile_not Text.isBlank text
  have hhead : (text.dropWhile Text.isBlank).head? = some c := congrArg List.head? h
  rw [hhead] at hnot
  exact hnot

variable {l l' : Lexer} {token : Token}

theorem next_start (l : Lexer) :
    l.next.1.start = l.position + (l.rest.takeWhile Text.isBlank).length := by
  show l.position + (l.rest.length - (Text.trimLeft l.rest).length) = _
  have hlength := congrArg List.length (blanks_append_trimLeft l.rest)
  rw [List.length_append] at hlength
  omega

/-- **A lexeme behind blanks is returned as its token**, at its place. -/
theorem next_of_lexeme {gap lexeme after : List Char} (hrest : l.rest = gap ++ (lexeme ++ after))
    (hgap : ∀ c ∈ gap, Text.isBlank c = true) (hlexeme : token.Lexeme lexeme)
    (hends : token.EndsBefore after) :
    l.next = (⟨.ok (some token), l.position + gap.length⟩,
      ⟨after, l.position + gap.length + lexeme.length, l.position + gap.length⟩) := by
  have htrim : Text.trimLeft l.rest = lexeme ++ after := by
    rw [hrest, trimLeft_append hgap, hlexeme.trimLeft]
  have hscan := Token.scan_lexeme hlexeme hends
  have hskipped : l.rest.length - (lexeme ++ after).length = gap.length := by
    rw [hrest, List.length_append]
    omega
  have htaken : (lexeme ++ after).length - after.length = lexeme.length := by
    rw [List.length_append]
    omega
  rw [next, htrim, hscan, hskipped]
  dsimp only
  rw [htaken]
  rfl

/-- **What is returned as a token is its lexeme behind blanks.** -/
theorem next_token (h : l.next.1.outcome = .ok (some token)) :
    ∃ gap lexeme, l.rest = gap ++ (lexeme ++ l.next.2.rest) ∧
      (∀ c ∈ gap, Text.isBlank c = true) ∧ token.Lexeme lexeme ∧
      token.EndsBefore l.next.2.rest ∧ l.next.1.start = l.position + gap.length ∧
      l.next.2.position = l.position + gap.length + lexeme.length := by
  have hscan : Token.scan (Text.trimLeft l.rest) = (.ok (some token), l.next.2.rest) :=
    Prod.ext (next_outcome_eq_ok.mp h) rfl
  obtain ⟨lexeme, htrim, hlexeme, hends⟩ := Token.scan_eq_ok_iff.mp hscan
  have hrest : l.rest = l.rest.takeWhile Text.isBlank ++ (lexeme ++ l.next.2.rest) := by
    rw [← htrim, blanks_append_trimLeft]
  have hgap : ∀ c ∈ l.rest.takeWhile Text.isBlank, Text.isBlank c = true :=
    List.all_eq_true.mp List.all_takeWhile
  have hnext := next_of_lexeme hrest hgap hlexeme hends
  refine ⟨_, lexeme, hrest, hgap, hlexeme, hends, next_start l, ?_⟩
  exact congrArg (fun r => r.2.position) hnext

end Lexer

/-! ## Calls that return tokens -/

/-- A token, where it begins and where it ends. -/
structure Token.Span where
  token : Token
  start : Nat
  stop : Nat

/-- What a lexer returns with a token at its place. -/
def Token.Span.reading (span : Token.Span) : Lexer.Reading :=
  ⟨.ok (some span.token), span.start⟩

namespace Lexer

variable {l l' : Lexer} {token : Token} {spans : List Token.Span} {text : List Char}

/-- `l.Scans spans l'`: from `l` on, the next calls return the tokens of `spans`, each
where it begins, stand behind each where it ends, and leave the lexer at `l'`. -/
inductive Scans : Lexer → List Token.Span → Lexer → Prop
  | refl (l : Lexer) : Scans l [] l
  | step {l l' : Lexer} {token : Token} {spans : List Token.Span} :
      l.next.1.outcome = .ok (some token) → Scans l.next.2 spans l' →
      Scans l (⟨token, l.next.1.start, l.next.2.position⟩ :: spans) l'

/-- The next call returns no token: the end of the text, or a fault. -/
def Stopped (l : Lexer) : Prop :=
  ∀ token, l.next.1.outcome ≠ .ok (some token)

theorem stopped_or_token (l : Lexer) :
    l.Stopped ∨ ∃ token, l.next.1.outcome = .ok (some token) := by
  unfold Stopped
  cases l.next.1.outcome with
  | error e => exact .inl fun _ h => by cases h
  | ok t =>
      cases t with
      | none => exact .inl fun _ h => by cases h
      | some token => exact .inr ⟨token, rfl⟩

theorem stopped_of_end (h : l.next.1.outcome = .ok none) : l.Stopped := by
  intro token htoken
  rw [h] at htoken
  cases htoken

theorem exists_scans (l : Lexer) : ∃ spans l', l.Scans spans l' ∧ l'.Stopped := by
  induction hlen : l.rest.length using Nat.strongRecOn generalizing l with
  | ind len ih =>
      rcases l.stopped_or_token with hstop | ⟨token, htoken⟩
      · exact ⟨[], l, .refl l, hstop⟩
      · obtain ⟨spans, l', hscans, hstop⟩ := ih _ (hlen ▸ (next_ok htoken).1) l.next.2 rfl
        exact ⟨_, l', .step htoken hscans, hstop⟩

/-! ### The readings up to the stop -/

theorem untilStopped_of_token (h : l.next.1.outcome = .ok (some token)) :
    l.untilStopped = l.next.1 :: l.next.2.untilStopped := by
  rw [untilStopped, feed_of_lt (next_ok h).1]
  simp only [List.cons_append, List.takeWhile_cons, List.dropWhile_cons, h]
  rfl

theorem untilStopped_of_stopped (h : l.Stopped) : l.untilStopped = [l.next.1] := by
  obtain ⟨readings, hfeed⟩ : ∃ readings, l.feed.1 ++ [l.feed.2] = l.next.1 :: readings := by
    by_cases hlt : l.next.2.rest.length < l.rest.length
    · rw [feed_of_lt hlt]
      exact ⟨_, rfl⟩
    · rw [feed_of_not_lt hlt]
      exact ⟨[], rfl⟩
  rw [untilStopped]
  simp only [hfeed, List.takeWhile_cons, List.dropWhile_cons]
  cases hout : l.next.1.outcome with
  | error e => rfl
  | ok t =>
      cases t with
      | none => rfl
      | some token => exact absurd hout (h token)

theorem Scans.untilStopped_eq (h : l.Scans spans l') (hstop : l'.Stopped) :
    l.untilStopped = spans.map Token.Span.reading ++ [l'.next.1] := by
  induction h with
  | refl l => exact untilStopped_of_stopped hstop
  | @step l l' token spans hnext _ ih =>
      rw [untilStopped_of_token hnext, ih hstop]
      refine congrArg (· :: _) ?_
      show _ = Reading.mk (.ok (some token)) l.next.1.start
      rw [← hnext]

/-! ## Places in a text -/

/-- A lexer that has read a part of a text and counted its characters. -/
def At (text : List Char) (l : Lexer) : Prop :=
  l.position ≤ text.length ∧ l.rest = text.drop l.position

theorem at_ofString (text : String) : (ofString text).At text.toList :=
  ⟨Nat.zero_le _, rfl⟩

theorem position_le_start (l : Lexer) : l.position ≤ l.next.1.start := by
  rw [next_start]
  exact Nat.le_add_right _ _

theorem At.drop_start (h : l.At text) : text.drop l.next.1.start = Text.trimLeft l.rest := by
  have hskip : (l.rest.takeWhile Text.isBlank ++ Text.trimLeft l.rest).drop
      (l.rest.takeWhile Text.isBlank).length = Text.trimLeft l.rest := List.drop_left
  rw [blanks_append_trimLeft] at hskip
  rw [next_start, ← List.drop_drop, ← h.2, hskip]

theorem At.start_le (h : l.At text) : l.next.1.start ≤ text.length := by
  have hrest : (l.rest.takeWhile Text.isBlank).length ≤ l.rest.length :=
    (List.takeWhile_sublist _).length_le
  have hlength : l.rest.length = text.length - l.position := by
    rw [h.2, List.length_drop]
  have hle := h.1
  rw [next_start]
  omega

theorem At.isBlank_of_lt (h : l.At text) {i : Nat} {c : Char} (hle : l.position ≤ i)
    (hlt : i < l.next.1.start) (hc : text[i]? = some c) : Text.isBlank c = true := by
  rw [next_start] at hlt
  have hrest : l.rest[i - l.position]? = some c := by
    rw [h.2, List.getElem?_drop, Nat.add_sub_cancel' hle, hc]
  rw [← blanks_append_trimLeft l.rest, List.getElem?_append_left (by omega)] at hrest
  exact List.all_eq_true.mp List.all_takeWhile c (List.mem_of_getElem? hrest)

theorem At.next (h : l.At text) (htoken : l.next.1.outcome = .ok (some token)) :
    l.next.2.At text ∧ l.next.1.start < l.next.2.position ∧
      token.Lexeme (text.extract l.next.1.start l.next.2.position) ∧
      token.EndsBefore (text.drop l.next.2.position) := by
  obtain ⟨gap, lexeme, hrest, -, hlexeme, hends, hstart, hposition⟩ := next_token htoken
  have hdrop : text.drop (l.position + gap.length) = lexeme ++ l.next.2.rest := by
    rw [← List.drop_drop, ← h.2, hrest, List.drop_left]
  have hafter : text.drop (l.position + gap.length + lexeme.length) = l.next.2.rest := by
    rw [← List.drop_drop, hdrop, List.drop_left]
  have hpos : 0 < lexeme.length := List.length_pos_iff.mpr hlexeme.ne_nil
  have hlength : gap.length + (lexeme.length + l.next.2.rest.length) = text.length - l.position := by
    rw [← List.length_append, ← List.length_append, ← hrest, h.2, List.length_drop]
  have hextract : text.extract (l.position + gap.length) (l.position + gap.length + lexeme.length) =
      lexeme := by
    rw [List.extract_eq_take_drop, hdrop, Nat.add_sub_cancel_left, List.take_left]
  rw [At, hstart, hposition, hextract, hafter]
  have hle := h.1
  exact ⟨⟨by omega, rfl⟩, by omega, hlexeme, hends⟩

/-- `spans` are the tokens of `text` between two places. -/
structure Partitions (text : List Char) (first last : Nat) (spans : List Token.Span) : Prop where
  le : first ≤ last
  within : ∀ span ∈ spans, first ≤ span.start ∧ span.start < span.stop ∧ span.stop ≤ last
  ordered : spans.Pairwise fun s t => s.stop ≤ t.start
  spelled : ∀ span ∈ spans, span.token.Lexeme (text.extract span.start span.stop) ∧
    span.token.EndsBefore (text.drop span.stop)
  between : ∀ i c, first ≤ i → i < last → text[i]? = some c →
    Text.isBlank c = true ∨ ∃ span ∈ spans, span.start ≤ i ∧ i < span.stop

/-- **Call after call the text is partitioned.** -/
theorem Scans.partitions (h : l.Scans spans l') (hat : l.At text) :
    Partitions text l.position l'.next.1.start spans ∧ l'.At text := by
  induction h with
  | refl l =>
      refine ⟨⟨position_le_start l, ?_, .nil, ?_, ?_⟩, hat⟩
      · exact fun _ hspan => absurd hspan List.not_mem_nil
      · exact fun _ hspan => absurd hspan List.not_mem_nil
      · exact fun i c hle hlt hc => .inl (hat.isBlank_of_lt hle hlt hc)
  | @step l l' token spans hnext _ ih =>
      obtain ⟨hat', hlt, hlexeme, hends⟩ := At.next hat hnext
      obtain ⟨hrest, hlast⟩ := ih hat'
      have hstart := position_le_start l
      have hle := hrest.le
      refine ⟨⟨by omega, ?_, ?_, ?_, ?_⟩, hlast⟩
      · rw [List.forall_mem_cons]
        refine ⟨⟨hstart, hlt, hle⟩, fun span hspan => ?_⟩
        have hwithin := hrest.within span hspan
        exact ⟨by omega, hwithin.2⟩
      · exact List.pairwise_cons.mpr ⟨fun span hspan => (hrest.within span hspan).1, hrest.ordered⟩
      · exact List.forall_mem_cons.mpr ⟨⟨hlexeme, hends⟩, hrest.spelled⟩
      · intro i c hi hilast hc
        -- in front of the token, in it, or behind it
        by_cases hfront : i < l.next.1.start
        · exact .inl (hat.isBlank_of_lt hi hfront hc)
        · by_cases hin : i < l.next.2.position
          · exact .inr ⟨_, List.mem_cons_self, Nat.le_of_not_lt hfront, hin⟩
          · refine (hrest.between i c (by omega) hilast hc).imp_right ?_
            rintro ⟨span, hspan, hplace⟩
            exact ⟨span, List.mem_cons_of_mem _ hspan, hplace⟩

/-! ## The stop -/

/-- Where no token is returned, and why. -/
inductive Stops (text : List Char) : Reading → Prop
  | ended : Stops text ⟨.ok none, text.length⟩
  | fault {fault : LexFault} {place : Nat} :
      fault.Explains (text.drop place) → Stops text ⟨.error ⟨fault, place⟩, place⟩

theorem At.stops (h : l.At text) (hstop : l.Stopped) : Stops text l.next.1 := by
  have hdrop := h.drop_start
  have houtcome : l.next.1.outcome =
      (Token.scan (Text.trimLeft l.rest)).1.mapError (⟨·, l.next.1.start⟩) := rfl
  have hreading : l.next.1 = ⟨l.next.1.outcome, l.next.1.start⟩ := rfl
  rw [hreading, houtcome]
  cases hscan : (Token.scan (Text.trimLeft l.rest)).1 with
  | ok t =>
      cases t with
      | none =>
          have hend : l.next.1.start = text.length := by
            refine Nat.le_antisymm h.start_le (List.drop_eq_nil_iff.mp ?_)
            rw [hdrop, Token.scan_eq_end_iff.mp hscan]
          rw [hend]
          exact .ended
      | some token => exact absurd (next_outcome_eq_ok.mpr hscan) (hstop token)
  | error fault =>
      refine .fault ?_
      rw [hdrop]
      match htrim : Text.trimLeft l.rest with
      | [] =>
          rw [Token.scan_eq_end_iff.mpr htrim] at hscan
          cases hscan
      | c :: rest =>
          rw [htrim] at hscan
          exact Token.scan_error (head_trimLeft htrim) hscan

/-! ## The theorem -/

/-- **The lexer partitions every text.**  Its calls return the tokens of some spans and
then stop, and the readings that are listed are just these.  The spans are disjoint and in
order, nothing but blanks stands between them and in front of the stop, and each is its
token as it may be written, ending where that token ends.  The stop is the end of the text,
or a fault with its reason at the place that the error reports. -/
theorem lexer_partitions (text : String) :
    ∃ spans l, (ofString text).Scans spans l ∧
      (ofString text).untilStopped = spans.map Token.Span.reading ++ [l.next.1] ∧
      Partitions text.toList 0 l.next.1.start spans ∧ Stops text.toList l.next.1 := by
  obtain ⟨spans, l, hscans, hstop⟩ := (ofString text).exists_scans
  obtain ⟨hpartitions, hat⟩ := hscans.partitions (at_ofString text)
  exact ⟨spans, l, hscans, hscans.untilStopped_eq hstop, hpartitions, hat.stops hstop⟩

end Lexer

end RecordFilter
