/-
# `Proofs.Token.Progress` — the lexer advances or is stuck for good

A lexer may be called any number of times, also behind a fault and behind the end of its
text.  Where a call leaves it differs from exit to exit: behind a token, behind what was
read of a faulty one, or in front of a character that it cannot begin with.  All exits of
`Token.scan` are of two sorts:

    it leaves less text than it found                      (no `Stays`)
    it leaves the text as it found it                      (`Stays`)

and the second are three: the end, a character that begins no token, and a `!` without `=`.
Behind one of these the next call finds what this one found (`next_of_final`), so that a
call moves the lexer or is repeated for good.

That is also why `Lexer.feed`, which stops at the first call that takes nothing, lists all
that is ever returned (`take_eq_feed`).
-/
import RecordFilter.Proofs.Token.Partition

namespace RecordFilter

/-! ## One token -/

/-- A fault for which no character is taken. -/
inductive LexFault.Stays : LexFault → Prop
  | unexpected (c : Char) : Stays (.unexpectedChar c)
  | loneBang : Stays (.malformedOperator .loneBang)

namespace Token

/-- What is found without taking a character. -/
inductive Stays : Except LexFault (Option Token) → Prop
  | ended : Stays (.ok none)
  | fault {fault : LexFault} : fault.Stays → Stays (.error fault)

variable {c : Char} {rest text : List Char} {fault : LexFault}

theorem not_stays_of_scanEquals (h : (scanEquals text).1 = .error fault) : ¬ fault.Stays := by
  unfold scanEquals at h
  split at h
  · cases h
  · dsimp only at h
    split at h
    · cases h
      exact fun hstays => by cases hstays
    · split at h <;> cases h
      exact fun hstays => by cases hstays

/-- A reserved character is taken unless it is the one that a fault stays in front of. -/
theorem scanReserved_moves (c : Char) (rest : List Char) :
    ((scanReserved c rest).2 <:+ rest ∧
        ∀ fault, (scanReserved c rest).1 = .error fault → ¬ fault.Stays) ∨
      (scanReserved c rest).2 = c :: rest ∧
        ∃ fault, (scanReserved c rest).1 = .error fault ∧ fault.Stays := by
  unfold scanReserved
  split
  · exact .inl ⟨List.suffix_refl _, fun _ h => by cases h⟩
  · exact .inl ⟨List.suffix_refl _, fun _ h => by cases h⟩
  · exact .inl ⟨List.suffix_refl _, fun _ h => by cases h⟩
  · exact .inl ⟨List.suffix_refl _, fun _ h => by cases h⟩
  · exact .inl ⟨scanEquals_suffix rest, fun _ h => not_stays_of_scanEquals h⟩
  · split
    · exact .inl ⟨List.suffix_cons _ _, fun _ h => by cases h⟩
    · exact .inr ⟨rfl, _, rfl, .loneBang⟩
  · split
    · exact .inl ⟨List.suffix_cons _ _, fun _ h => by cases h⟩
    · exact .inl ⟨List.suffix_refl _, fun _ h => by cases h⟩
  · split
    · exact .inl ⟨List.suffix_cons _ _, fun _ h => by cases h⟩
    · exact .inl ⟨List.suffix_refl _, fun _ h => by cases h⟩
  · split
    · next hread => exact .inl ⟨suffix_of_readQuoted hread, fun _ h => by cases h⟩
    · next hread =>
        refine .inl ⟨suffix_of_readQuoted hread, fun _ h => ?_⟩
        cases h
        exact fun hstays => by cases hstays
  · split
    · next hread => exact .inl ⟨suffix_of_readQuoted hread, fun _ h => by cases h⟩
    · next hread =>
        refine .inl ⟨suffix_of_readQuoted hread, fun _ h => ?_⟩
        cases h
        exact fun hstays => by cases hstays
  · exact .inr ⟨rfl, _, rfl, .unexpected c⟩

/-- **A text is left shorter, or it is left as it is**, and what was found says which. -/
theorem scan_moves (text : List Char) :
    (¬ Stays (scan text).1 ∧ (scan text).2 <:+ text ∧ (scan text).2.length < text.length) ∨
      (Stays (scan text).1 ∧ (scan text).2 = text) := by
  cases text with
  | nil => exact .inr ⟨.ended, rfl⟩
  | cons c rest =>
      rw [scan]
      split
      · next hc =>
          have hdrop : rest.dropWhile isUnreserved <:+ rest := List.dropWhile_suffix _
          rw [List.dropWhile_cons_of_pos hc]
          exact .inl ⟨(by cases ·), hdrop.trans (List.suffix_cons _ _),
            Nat.lt_succ_of_le hdrop.length_le⟩
      · dsimp only
        rcases scanReserved_moves c rest with ⟨hsuffix, hfault⟩ | ⟨hrest, fault, hfault, hstays⟩
        · refine .inl ⟨fun hstays => ?_, hsuffix.trans (List.suffix_cons _ _),
            Nat.lt_succ_of_le hsuffix.length_le⟩
          cases hread : (scanReserved c rest).1 with
          | error fault =>
              rw [hread] at hstays
              cases hstays with
              | fault hstays => exact hfault fault hread hstays
          | ok token =>
              rw [hread] at hstays
              cases hstays
        · rw [hfault]
          exact .inr ⟨.fault hstays, hrest⟩

theorem scan_suffix (text : List Char) : (scan text).2 <:+ text := by
  rcases scan_moves text with ⟨-, hsuffix, -⟩ | ⟨-, hrest⟩
  · exact hsuffix
  · exact ⟨[], hrest⟩

end Token

/-! ## One call -/

/-- What a lexer returns where it is stuck: the end, an unexpected character, or a `!` that
begins no operator. -/
inductive Lexer.Reading.Final : Lexer.Reading → Prop
  | ended {place : Nat} : Final ⟨.ok none, place⟩
  | unexpected {c : Char} {place : Nat} : Final ⟨.error ⟨.unexpectedChar c, place⟩, place⟩
  | loneBang {place : Nat} : Final ⟨.error ⟨.malformedOperator .loneBang, place⟩, place⟩

namespace Lexer

variable {l : Lexer} {text : List Char}

theorem final_next_iff : l.next.1.Final ↔ Token.Stays (Token.scan (Text.trimLeft l.rest)).1 := by
  show Reading.Final ⟨(Token.scan (Text.trimLeft l.rest)).1.mapError _, _⟩ ↔ _
  generalize l.position + (l.rest.length - (Text.trimLeft l.rest).length) = start
  cases (Token.scan (Text.trimLeft l.rest)).1 with
  | ok t =>
      constructor
      · intro h
        cases h
        exact .ended
      · intro h
        cases h
        exact .ended
  | error fault =>
      constructor
      · intro h
        cases h with
        | unexpected => exact .fault (.unexpected _)
        | loneBang => exact .fault .loneBang
      · intro h
        cases h with
        | fault hstays =>
            cases hstays with
            | unexpected c => exact .unexpected
            | loneBang => exact .loneBang

@[simp]
theorem next_position (l : Lexer) :
    l.next.2.position =
      l.next.1.start + ((Text.trimLeft l.rest).length - l.next.2.rest.length) := rfl

theorem start_le_position (l : Lexer) : l.next.1.start ≤ l.next.2.position := by
  simp

theorem length_trimLeft_le (text : List Char) : (Text.trimLeft text).length ≤ text.length :=
  (List.dropWhile_sublist _).length_le

/-- **Any other call takes characters**, and leaves the lexer behind them. -/
theorem next_of_not_final (h : ¬ l.next.1.Final) :
    l.next.1.start < l.next.2.position ∧ l.next.2.rest.length < l.rest.length := by
  rcases Token.scan_moves (Text.trimLeft l.rest) with ⟨-, -, hlt⟩ | ⟨hstays, -⟩
  · have htrim := length_trimLeft_le l.rest
    rw [next_position, next_rest]
    exact ⟨by omega, by omega⟩
  · exact absurd (final_next_iff.mpr hstays) h

/-- Where no blank is in front and nothing is taken, a lexer stays as it is. -/
theorem next_of_stays (htrim : Text.trimLeft l.rest = l.rest)
    (hrest : (Token.scan l.rest).2 = l.rest) :
    l.next = (⟨(Token.scan l.rest).1.mapError (⟨·, l.position⟩), l.position⟩,
      ⟨l.rest, l.position, l.position⟩) := by
  unfold next
  rw [htrim]
  dsimp only
  rw [hrest, Nat.sub_self]
  rfl

@[simp]
theorem trimLeft_trimLeft (text : List Char) :
    Text.trimLeft (Text.trimLeft text) = Text.trimLeft text := by
  cases htrim : Text.trimLeft text with
  | nil => rfl
  | cons c rest => exact List.dropWhile_cons_of_neg (Bool.eq_false_iff.mp (head_trimLeft htrim))

theorem rest_of_final (h : l.next.1.Final) :
    (Token.scan (Text.trimLeft l.rest)).2 = Text.trimLeft l.rest := by
  rcases Token.scan_moves (Text.trimLeft l.rest) with ⟨hmoves, -, -⟩ | ⟨-, hrest⟩
  · exact absurd (final_next_iff.mp h) hmoves
  · exact hrest

theorem position_of_final (h : l.next.1.Final) : l.next.2.position = l.next.1.start := by
  simp [rest_of_final h]

/-- **A final reading is repeated**: the lexer that is left returns it again, and stays. -/
theorem next_of_final (h : l.next.1.Final) : l.next.2.next = l.next := by
  have hleft : l.next.2 = ⟨Text.trimLeft l.rest, l.next.1.start, l.next.1.start⟩ := by
    show Lexer.mk l.next.2.rest l.next.2.position l.next.1.start = _
    rw [position_of_final h, next_rest, rest_of_final h]
  have hagain : next ⟨Text.trimLeft l.rest, l.next.1.start, l.next.1.start⟩ =
      (l.next.1, ⟨Text.trimLeft l.rest, l.next.1.start, l.next.1.start⟩) :=
    next_of_stays (trimLeft_trimLeft l.rest) (rest_of_final h)
  rw [← hleft] at hagain
  exact hagain

/-! ## Call after call -/

/-- The lexer that `n` calls leave. -/
def after : Nat → Lexer → Lexer
  | 0, l => l
  | n + 1, l => after n l.next.2

theorem after_add (n k : Nat) (l : Lexer) : l.after (n + k) = (l.after n).after k := by
  induction n generalizing l with
  | zero => rw [Nat.zero_add]; rfl
  | succ n ih => rw [Nat.succ_add]; exact ih l.next.2

theorem after_succ (n : Nat) (l : Lexer) : l.after (n + 1) = (l.after n).next.2 :=
  after_add n 1 l

theorem take_succ (n : Nat) (l : Lexer) : l.take (n + 1) = l.next.1 :: l.next.2.take n := rfl

theorem take_eq_map_after (n : Nat) (l : Lexer) :
    l.take n = (List.range n).map fun k => (l.after k).next.1 := by
  induction n generalizing l with
  | zero => rfl
  | succ n ih =>
      rw [List.range_succ_eq_map, List.map_cons, List.map_map, take_succ, ih]
      rfl

theorem next_after_of_final (h : l.next.1.Final) (n : Nat) : (l.after n).next = l.next := by
  induction n with
  | zero => rfl
  | succ n ih =>
      rw [after_succ, ih]
      exact next_of_final h

/-! ### Positions -/

theorem At.step (h : l.At text) : l.next.2.At text := by
  have hsuffix : l.next.2.rest <:+ Text.trimLeft l.rest := Token.scan_suffix _
  have hdrop := h.drop_start
  have hstart := h.start_le
  have hlength := congrArg List.length hdrop
  rw [List.length_drop] at hlength
  refine ⟨?_, ?_⟩
  · rw [next_position]
    omega
  · rw [next_position, ← List.drop_drop, hdrop]
    exact List.suffix_iff_eq_drop.mp hsuffix

theorem At.after (h : l.At text) (n : Nat) : (l.after n).At text := by
  induction n generalizing l with
  | zero => exact h
  | succ n ih => exact ih h.step

theorem tokenStart_after_le (h : l.tokenStart ≤ l.position) (n : Nat) :
    (l.after n).tokenStart ≤ (l.after n).position := by
  induction n generalizing l with
  | zero => exact h
  | succ n ih => exact ih (start_le_position l)

theorem positions_le_after (h : l.tokenStart ≤ l.position) (n : Nat) :
    l.position ≤ (l.after n).position ∧ l.tokenStart ≤ (l.after n).tokenStart := by
  induction n generalizing l with
  | zero => exact ⟨Nat.le_refl _, Nat.le_refl _⟩
  | succ n ih =>
      obtain ⟨hposition, hstart⟩ := @ih l.next.2 (start_le_position l)
      have hnext : l.position ≤ l.next.1.start := position_le_start l
      exact ⟨Nat.le_trans hnext (Nat.le_trans (start_le_position l) hposition),
        Nat.le_trans h (Nat.le_trans hnext hstart)⟩

/-! ### All readings -/

theorem length_feed_le (l : Lexer) : l.feed.1.length ≤ l.rest.length := by
  induction hlen : l.rest.length using Nat.strongRecOn generalizing l with
  | ind len ih =>
      by_cases hlt : l.next.2.rest.length < l.rest.length
      · have hrest := ih _ (hlen ▸ hlt) l.next.2 rfl
        rw [feed_of_lt hlt, List.length_cons]
        omega
      · rw [feed_of_not_lt hlt]
        exact Nat.zero_le _

theorem final_of_not_lt (h : ¬ l.next.2.rest.length < l.rest.length) : l.next.1.Final :=
  Classical.byContradiction fun hfinal => h (next_of_not_final hfinal).2

theorem feed_final (l : Lexer) : l.feed.2.Final := by
  induction hlen : l.rest.length using Nat.strongRecOn generalizing l with
  | ind len ih =>
      by_cases hlt : l.next.2.rest.length < l.rest.length
      · rw [feed_of_lt hlt]
        exact ih _ (hlen ▸ hlt) l.next.2 rfl
      · rw [feed_of_not_lt hlt]
        exact final_of_not_lt hlt

theorem take_of_final (h : l.next.1.Final) (n : Nat) : l.take n = List.replicate n l.next.1 := by
  rw [take_eq_map_after]
  simp only [next_after_of_final h, List.map_const', List.length_range]

/-- **`feed` lists all that is ever returned**: its readings in order, and then the one that
is repeated for good. -/
theorem take_eq_feed (l : Lexer) (n : Nat) :
    l.take (l.feed.1.length + n) = l.feed.1 ++ List.replicate n l.feed.2 := by
  induction hlen : l.rest.length using Nat.strongRecOn generalizing l with
  | ind len ih =>
      by_cases hlt : l.next.2.rest.length < l.rest.length
      · have hrest := ih _ (hlen ▸ hlt) l.next.2 rfl
        rw [feed_of_lt hlt, List.length_cons, Nat.succ_add, take_succ, hrest]
        rfl
      · rw [feed_of_not_lt hlt, List.length_nil, Nat.zero_add]
        exact take_of_final (final_of_not_lt hlt) n

/-! ## The theorem -/

/-- **The lexer advances or is stuck for good.**  Call it any number of times, whatever it
returns.  It never stands behind the end of the text, nor in front of the beginning of the
token read last; neither place ever moves back.  A call leaves it behind the beginning of
the token it was to read, unless it returns the end, an unexpected character or a `!`
without `=`: then it stands where that begins, and every later call returns the same.  So
no more calls than the text has characters return anything but the reading that is
repeated in the end. -/
theorem lexer_advances_or_is_stuck (text : String) :
    (∀ n, ((ofString text).after n).position ≤ text.length ∧
      ((ofString text).after n).tokenStart ≤ ((ofString text).after n).position) ∧
    (∀ n k, ((ofString text).after n).position ≤ ((ofString text).after (n + k)).position ∧
      ((ofString text).after n).tokenStart ≤ ((ofString text).after (n + k)).tokenStart) ∧
    (∀ n, (¬ ((ofString text).after n).next.1.Final ∧
        ((ofString text).after (n + 1)).tokenStart < ((ofString text).after (n + 1)).position) ∨
      (((ofString text).after n).next.1.Final ∧
        ((ofString text).after (n + 1)).position = ((ofString text).after (n + 1)).tokenStart ∧
        ∀ k, ((ofString text).after (n + k)).next.1 = ((ofString text).after n).next.1)) ∧
    ∃ readings final, readings.length ≤ text.length ∧ final.Final ∧
      ∀ n, (ofString text).take (readings.length + n) = readings ++ List.replicate n final := by
  have hstart : ∀ n, ((ofString text).after n).tokenStart ≤ ((ofString text).after n).position :=
    tokenStart_after_le (Nat.le_refl 0)
  refine ⟨fun n => ⟨?_, hstart n⟩, fun n k => ?_, fun n => ?_, ?_⟩
  · rw [← String.length_toList]
    exact ((at_ofString text).after n).1
  · rw [after_add]
    exact positions_le_after (hstart n) k
  · by_cases hfinal : ((ofString text).after n).next.1.Final
    · refine .inr ⟨hfinal, ?_, fun k => ?_⟩
      · rw [after_succ]
        exact position_of_final hfinal
      · rw [after_add, next_after_of_final hfinal]
    · refine .inl ⟨hfinal, ?_⟩
      rw [after_succ]
      exact (next_of_not_final hfinal).1
  · refine ⟨_, _, ?_, (ofString text).feed_final, (ofString text).take_eq_feed⟩
    rw [← String.length_toList]
    exact (ofString text).length_feed_le

end Lexer

end RecordFilter
