/-
# `Proofs.Number.Decimal` — digits are read as decimals

A stored number is compared through its text, which is read as a decimal of 96 bits.

    digits in front of the point                               (`readDigits_whole`)
    digits behind it                                           (`readDigits_places`)
    digits that do not fit                                     (`readDigits_overflow`)

Of an integer the text is its digits, with a sign if it is negative; none of them is
dropped as long as the number fits (`ofText_toString`), and so a stored integer compares
to an argument as the two integers do (`Json.compareTo_integer`).
-/
import RecordFilter.Evaluation
import RecordFilter.Proofs.Text.Digits

namespace RecordFilter

open Text

namespace Decimal

variable {digits : List Char} {start : Nat}

theorem ne_of_isDigit {c : Char} (hc : c.isDigit = true) : c ≠ '_' ∧ c ≠ '.' := by
  constructor
  · rintro rfl
    cases hc
  · rintro rfl
    cases hc

theorem readDigits_digit {p : Partial} {c : Char} (hc : c.isDigit = true)
    (hfull : p.isFull = false) (hfits : 10 * p.coefficient + (c.toNat - '0'.toNat) < bound)
    (rest : List Char) :
    readDigits p (c :: rest) = readDigits ⟨10 * p.coefficient + (c.toNat - '0'.toNat),
      if p.pointed then p.scale + 1 else 0, p.pointed, true⟩ rest := by
  obtain ⟨hunderline, hpoint⟩ := ne_of_isDigit hc
  have hfull : ¬ p.isFull = true := by
    rw [hfull]
    exact Bool.false_ne_true
  rw [Nat.mul_comm] at hfits ⊢
  rw [readDigits, if_neg hunderline, if_neg hpoint, if_pos hc, if_neg hfull,
    if_neg (Nat.not_le.mpr hfits)]

/-- **Digits in front of the point are read to their number**, if it fits. -/
theorem readDigits_whole (hdigit : ∀ c ∈ digits, c.isDigit = true) {hasDigit : Bool}
    (hsome : digits = [] → hasDigit = true) (hfits : Nat.ofDigitChars 10 digits start < bound)
    (rest : List Char) :
    readDigits ⟨start, 0, false, hasDigit⟩ (digits ++ rest) =
      readDigits ⟨Nat.ofDigitChars 10 digits start, 0, false, true⟩ rest := by
  induction digits generalizing start hasDigit with
  | nil =>
      rw [hsome rfl]
      rfl
  | cons c digits ih =>
      obtain ⟨hc, hdigits⟩ := List.forall_mem_cons.mp hdigit
      rw [Nat.ofDigitChars_cons] at hfits ⊢
      rw [List.cons_append, readDigits_digit hc rfl
        (Nat.lt_of_le_of_lt (le_ofDigitChars digits _) hfits)]
      exact ih hdigits (fun _ => rfl) hfits

/-- **Digits behind the point are places**, if there are few. -/
theorem readDigits_places (hdigit : ∀ c ∈ digits, c.isDigit = true) {scale : Nat}
    {hasDigit : Bool} (hsome : digits = [] → hasDigit = true)
    (hplaces : scale + digits.length ≤ maxScale)
    (hfits : Nat.ofDigitChars 10 digits start < bound) :
    readDigits ⟨start, scale, true, hasDigit⟩ digits =
      some (Nat.ofDigitChars 10 digits start, scale + digits.length) := by
  induction digits generalizing start scale hasDigit with
  | nil =>
      rw [readDigits, hsome rfl]
      rfl
  | cons c digits ih =>
      obtain ⟨hc, hdigits⟩ := List.forall_mem_cons.mp hdigit
      rw [List.length_cons] at hplaces ⊢
      rw [Nat.ofDigitChars_cons] at hfits ⊢
      have hless : scale ≠ maxScale := by omega
      have hroom : Partial.isFull ⟨start, scale, true, hasDigit⟩ = false := beq_false_of_ne hless
      rw [readDigits_digit hc hroom (Nat.lt_of_le_of_lt (le_ofDigitChars digits _) hfits)]
      have hcount : scale + 1 + digits.length = scale + (digits.length + 1) := by omega
      rw [← hcount] at hplaces ⊢
      exact ih hdigits (fun _ => rfl) hplaces hfits

theorem readDigits_overflow (hdigit : ∀ c ∈ digits, c.isDigit = true) {hasDigit : Bool}
    (hstart : start < bound) (hlarge : bound ≤ Nat.ofDigitChars 10 digits start) :
    readDigits ⟨start, 0, false, hasDigit⟩ digits = none := by
  induction digits generalizing start hasDigit with
  | nil => exact absurd hstart (Nat.not_lt.mpr hlarge)
  | cons c digits ih =>
      obtain ⟨hc, hdigits⟩ := List.forall_mem_cons.mp hdigit
      rw [Nat.ofDigitChars_cons] at hlarge
      by_cases hnext : 10 * start + (c.toNat - '0'.toNat) < bound
      · rw [readDigits_digit hc rfl hnext]
        exact ih hdigits hnext hlarge
      · obtain ⟨hunderline, hpoint⟩ := ne_of_isDigit hc
        rw [Nat.mul_comm] at hnext
        have hfull : ¬ Partial.isFull ⟨start, 0, false, hasDigit⟩ = true := Bool.false_ne_true
        rw [readDigits, if_neg hunderline, if_neg hpoint, if_pos hc, if_neg hfull,
          if_pos (Nat.not_lt.mp hnext)]
        rfl

theorem readDigits_writes {n : Nat} (h : Writes digits n) (hfits : n < bound) :
    readDigits ⟨0, 0, false, false⟩ digits = some (n, 0) := by
  obtain ⟨hne, hdigit, rfl⟩ := h
  rw [← List.append_nil digits, readDigits_whole hdigit (fun hnil => absurd hnil hne) hfits,
    List.append_nil]
  rfl

theorem ofPlain_sign {text : List Char} (hhead : ∃ c rest, text = c :: rest ∧ c.isDigit = true)
    (negative : Bool) :
    ofPlain (sign negative ++ text) =
      (readDigits ⟨0, 0, false, false⟩ text).map fun r => ⟨negative, r.1, r.2⟩ := by
  cases negative with
  | true => rfl
  | false =>
      obtain ⟨c, rest, rfl, hc⟩ := hhead
      show ofPlain (c :: rest) = _
      unfold ofPlain
      split
      · next h =>
          obtain ⟨rfl, _⟩ := List.cons.inj h
          cases hc
      · next h =>
          obtain ⟨rfl, _⟩ := List.cons.inj h
          cases hc
      · rfl

/-- **An integer is read back from its text**, if it fits. -/
theorem ofText_toString {n : Int} (h : n.natAbs < bound) :
    ofText (toString n).toList = some ⟨decide (n < 0), n.natAbs, 0⟩ := by
  have hwrites := writes_toDigits n.natAbs
  rw [toList_toString, ofText, ofPlain_sign hwrites.head, readDigits_writes hwrites h]
  rfl

end Decimal

namespace Json

theorem decimal?_integer {n : Int} (h : n.natAbs < Decimal.bound) :
    decimal? (.number (.integer n)) = some ⟨decide (n < 0), n.natAbs, 0⟩ :=
  Decimal.ofText_toString h

/-- **Stored integers compare as integers.** -/
theorem compareTo_integer {n : Int} (h : n.natAbs < Decimal.bound) (w : Width) (k : Int) :
    compareTo (.number (.integer n)) (.int w k) = some (Ord.compare n k) := by
  have hsigned : Decimal.signed ⟨decide (n < 0), n.natAbs, 0⟩ = n := by
    simp only [Decimal.signed, decide_eq_true_eq]
    split <;> omega
  have hscale : k * (tenTo 0 : Nat) = k := Int.mul_one k
  rw [compareTo, decimal?_integer h, Option.map_some, Decimal.compareInt, hsigned, hscale]

end Json

end RecordFilter
