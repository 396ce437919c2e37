/-
# `Proofs.Value.Integer` — the integers that arguments denote

`Text.Signed` is what a text says of an integer: digits behind at most one sign, with any
number of zeros in front.  An argument of a property of integers is read by that rule and
no other, as long as the integer is of the size of the property:

    digits grow away from zero, so no step is out of its size before the last
                                                              (`Width.holds_of_signed_le`)
    what is read is what the text denotes                     (`integerOfText_eq_ok_iff`)

A plus sign is allowed, and so is a negative zero.
-/
import RecordFilter.Proofs.Compiler.Typing
import RecordFilter.Proofs.Text.Digits

namespace RecordFilter

/-! ## Signs -/

/-- An absolute value with its sign. -/
def Text.signedInt (negative : Bool) (n : Nat) : Int :=
  if negative then -n else n

/-- `Signed text n`: the text is digits behind at most one sign, and denotes the integer. -/
inductive Text.Signed : List Char → Int → Prop
  | plain {digits : List Char} {n : Nat} : Writes digits n → Signed digits n
  | plus {digits : List Char} {n : Nat} : Writes digits n → Signed ('+' :: digits) n
  | minus {digits : List Char} {n : Nat} : Writes digits n → Signed ('-' :: digits) (-n)

namespace Text

variable {digits : List Char} {n : Nat} {k : Int}

theorem not_writes_of_head {c : Char} (hc : c.isDigit = false) : ¬ Writes (c :: digits) n := by
  intro h
  rw [h.isDigit c List.mem_cons_self] at hc
  cases hc

theorem signed_plus_iff :
    Signed ('+' :: digits) k ↔ ∃ n, Writes digits n ∧ k = signedInt false n := by
  constructor
  · intro h
    cases h with
    | plain h => exact absurd h (not_writes_of_head rfl)
    | plus h => exact ⟨_, h, rfl⟩
  · rintro ⟨n, h, rfl⟩
    exact .plus h

theorem signed_minus_iff :
    Signed ('-' :: digits) k ↔ ∃ n, Writes digits n ∧ k = signedInt true n := by
  constructor
  · intro h
    cases h with
    | plain h => exact absurd h (not_writes_of_head rfl)
    | minus h => exact ⟨_, h, rfl⟩
  · rintro ⟨n, h, rfl⟩
    exact .minus h

theorem signed_plain_iff (hplus : ∀ rest, digits ≠ '+' :: rest)
    (hminus : ∀ rest, digits ≠ '-' :: rest) :
    Signed digits k ↔ ∃ n, Writes digits n ∧ k = signedInt false n := by
  constructor
  · intro h
    cases h with
    | plain h => exact ⟨_, h, rfl⟩
    | plus _ => exact absurd rfl (hplus _)
    | minus _ => exact absurd rfl (hminus _)
  · rintro ⟨n, h, rfl⟩
    exact .plain h

end Text

/-! ## Reading -/

namespace Width

open Text

variable {w : Width} {negative : Bool} {digits : List Char} {m n : Nat} {k : Int}

theorem holds_iff : w.holds k = true ↔ w.least ≤ k ∧ k ≤ w.greatest := by
  rw [holds, Bool.and_eq_true, decide_eq_true_eq, decide_eq_true_eq]

/-- What is nearer to zero than an integer of a size is of that size. -/
theorem holds_of_signed_le (hmn : m ≤ n) (hn : w.holds (signedInt negative n) = true) :
    w.holds (signedInt negative m) = true := by
  have hzero := holds_iff.mp w.holds_zero
  have hbounds := holds_iff.mp hn
  rw [holds_iff]
  cases negative with
  | false =>
      simp only [signedInt, Bool.false_eq_true, if_false] at hbounds ⊢
      omega
  | true =>
      simp only [signedInt, if_true] at hbounds ⊢
      omega

/-- One digit more, away from zero. -/
theorem signedInt_step (digit : Nat) :
    (if negative = true then signedInt negative n * 10 - (digit : Int)
      else signedInt negative n * 10 + (digit : Int)) = signedInt negative (10 * n + digit) := by
  cases negative with
  | false =>
      simp only [signedInt, Bool.false_eq_true, if_false]
      omega
  | true =>
      simp only [signedInt, if_true]
      omega

/-- **Digits are read to their number**, if it is of the size, and nothing else is read. -/
theorem readInteger_eq_ok_iff (hn : w.holds (signedInt negative n) = true) :
    w.readInteger negative (signedInt negative n) digits = .ok k ↔
      (∀ c ∈ digits, c.isDigit = true) ∧ k = signedInt negative (Nat.ofDigitChars 10 digits n) ∧
        w.holds k = true := by
  induction digits generalizing n with
  | nil =>
      rw [readInteger]
      constructor
      · intro h
        cases h
        exact ⟨List.forall_mem_nil _, rfl, hn⟩
      · rintro ⟨_, rfl, _⟩
        rfl
  | cons c digits ih =>
      rw [readInteger, List.forall_mem_cons, Nat.ofDigitChars_cons]
      cases hc : c.isDigit with
      | false =>
          constructor
          · intro h
            cases h
          · rintro ⟨⟨h, _⟩, _⟩
            cases h
      | true =>
          simp only [Bool.not_true, Bool.false_eq_true, if_false, signedInt_step, true_and]
          split
          · next hsmall =>
              constructor
              · intro h
                cases h
              · rintro ⟨_, rfl, hk⟩
                have := holds_iff.mp (holds_of_signed_le (le_ofDigitChars digits _) hk)
                omega
          · next hleast =>
              split
              · next hlarge =>
                  constructor
                  · intro h
                    cases h
                  · rintro ⟨_, rfl, hk⟩
                    have := holds_iff.mp (holds_of_signed_le (le_ofDigitChars digits _) hk)
                    omega
              · next hgreatest =>
                  exact ih (holds_iff.mpr ⟨Int.not_lt.mp hleast, Int.not_lt.mp hgreatest⟩)

theorem readInteger_zero_eq_ok_iff (hne : digits ≠ []) :
    w.readInteger negative 0 digits = .ok k ↔
      (∃ n, Writes digits n ∧ k = signedInt negative n) ∧ w.holds k = true := by
  have hzero : signedInt negative 0 = 0 := by
    cases negative <;> rfl
  have hread := @readInteger_eq_ok_iff w negative digits 0 k (hzero.symm ▸ w.holds_zero)
  rw [hzero] at hread
  rw [hread]
  constructor
  · rintro ⟨hdigit, hk, hholds⟩
    exact ⟨⟨_, writes_ofDigitChars hne hdigit, hk⟩, hholds⟩
  · rintro ⟨⟨n, hwrites, rfl⟩, hholds⟩
    exact ⟨hwrites.isDigit, by rw [hwrites.value], hholds⟩

/-- **An argument is read as the integer that it denotes**, if that is of the size. -/
theorem integerOfText_eq_ok_iff {text : List Char} :
    w.integerOfText text = .ok k ↔ Signed text k ∧ w.holds k = true := by
  rw [integerOfText.eq_def]
  split
  · constructor
    · intro h
      cases h
    · rintro ⟨h, _⟩
      cases h with
      | plain h => exact absurd rfl h.ne_nil
  · constructor
    · intro h
      cases h
    · rintro ⟨h, _⟩
      obtain ⟨n, h, _⟩ := signed_plus_iff.mp h
      exact absurd rfl h.ne_nil
  · constructor
    · intro h
      cases h
    · rintro ⟨h, _⟩
      obtain ⟨n, h, _⟩ := signed_minus_iff.mp h
      exact absurd rfl h.ne_nil
  · next hne =>
      rw [signed_plus_iff]
      exact readInteger_zero_eq_ok_iff hne
  · next hne =>
      rw [signed_minus_iff]
      exact readInteger_zero_eq_ok_iff hne
  · next hempty _ _ hplus hminus =>
      rw [signed_plain_iff hplus hminus]
      exact readInteger_zero_eq_ok_iff hempty

/-- An argument denotes an integer of a size. -/
def Denotes (w : Width) (argument : String) (n : Int) : Prop :=
  Signed argument.toList n ∧ w.holds n = true

variable {argument : String} {arguments : List String} {ns : List Int}

theorem coerce_eq (w : Width) (argument : String) (format : DateFormat) :
    w.type.coerce argument format = ((w.integerOfText argument.toList).map (.int w)).mapError
      fun fault => ⟨argument, w.type, .integer fault⟩ := by
  cases w <;>
    (simp only [type, ValueType.coerce]
     split
     · next h => rw [h]; rfl
     · next h => rw [h]; rfl)

/-- **An argument of integers is turned into the integer that it denotes.** -/
theorem coerce_eq_ok_iff {format : DateFormat} :
    w.type.coerce argument format = .ok (.int w k) ↔ w.Denotes argument k := by
  rw [coerce_eq, ← toOption_eq_some_iff, toOption_mapError, toOption_map, Option.map_eq_some_iff,
    Denotes, ← integerOfText_eq_ok_iff, ← toOption_eq_some_iff]
  constructor
  · rintro ⟨n, hn, hvalue⟩
    cases hvalue
    exact hn
  · exact fun h => ⟨k, h, rfl⟩

theorem coerceList_of_denotes (h : List.Forall₂ w.Denotes arguments ns) (format : DateFormat) :
    w.type.coerceList format arguments = .ok (ns.map (.int w)) := by
  induction h with
  | nil => rfl
  | cons hfirst _ ih =>
      rw [ValueType.coerceList, coerce_eq_ok_iff.mpr hfirst, ih]
      rfl

end Width

end RecordFilter
