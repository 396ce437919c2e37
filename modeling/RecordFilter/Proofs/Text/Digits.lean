/-
# `Proofs.Text.Digits` — naturals as digits

`Text.Writes ds n`: the digits `ds` write the natural `n`, with any number of zeros in
front.  Every reader of numbers adds up digits from the left, and every writer takes
them from `Nat.toDigits`; both meet here.

    a natural with zeros in front                              (`writes_padded`)
    how many digits that is                                    (`length_padded`)
    what so many digits stay below                             (`ofDigitChars_lt`)
-/
import RecordFilter.Number.Power
import RecordFilter.Text.Basic
import RecordFilter.Text.Blank

namespace RecordFilter

theorem tenTo_succ (n : Nat) : tenTo (n + 1) = tenTo n * 10 := rfl

theorem tenTo_add (m n : Nat) : tenTo (m + n) = tenTo m * tenTo n :=
  Nat.pow_add 10 m n

theorem tenTo_pos (n : Nat) : 0 < tenTo n :=
  Nat.pow_pos (by decide)

theorem tenTo_le {m n : Nat} (h : m ≤ n) : tenTo m ≤ tenTo n :=
  Nat.pow_le_pow_right (by decide) h

namespace Text

/-- Digits that write a natural. -/
structure Writes (digits : List Char) (n : Nat) : Prop where
  ne_nil : digits ≠ []
  isDigit : ∀ c ∈ digits, c.isDigit = true
  value : Nat.ofDigitChars 10 digits 0 = n

variable {digits : List Char} {n : Nat}

theorem writes_ofDigitChars (hne : digits ≠ []) (h : ∀ c ∈ digits, c.isDigit = true) :
    Writes digits (Nat.ofDigitChars 10 digits 0) :=
  ⟨hne, h, rfl⟩

theorem writes_toDigits (n : Nat) : Writes (Nat.toDigits 10 n) n :=
  ⟨List.ne_nil_of_length_pos Nat.length_toDigits_pos,
    fun _ hc => Nat.isDigit_of_mem_toDigits (by decide) (by decide) hc,
    Nat.ofDigitChars_ten_toDigits⟩

theorem Writes.head (h : Writes digits n) : ∃ c rest, digits = c :: rest ∧ c.isDigit = true := by
  obtain ⟨c, rest, rfl⟩ := List.exists_cons_of_ne_nil h.ne_nil
  exact ⟨c, rest, rfl, h.isDigit c List.mem_cons_self⟩

theorem Writes.zeros_append (h : Writes digits n) (count : Nat) :
    Writes (List.replicate count '0' ++ digits) n := by
  obtain ⟨hne, hdigit, hvalue⟩ := h
  refine ⟨fun hnil => hne (List.append_eq_nil_iff.mp hnil).2, fun c hc => ?_, ?_⟩
  · rcases List.mem_append.mp hc with hzero | hc
    · rw [List.eq_of_mem_replicate hzero]
      rfl
    · exact hdigit c hc
  · rw [Nat.ofDigitChars_append, Nat.ofDigitChars_replicate_zero, Nat.mul_zero, hvalue]

theorem Writes.append_zeros (h : Writes digits n) (count : Nat) :
    Writes (digits ++ List.replicate count '0') (n * tenTo count) := by
  obtain ⟨hne, hdigit, hvalue⟩ := h
  refine ⟨fun hnil => hne (List.append_eq_nil_iff.mp hnil).1, fun c hc => ?_, ?_⟩
  · rcases List.mem_append.mp hc with hc | hzero
    · exact hdigit c hc
    · rw [List.eq_of_mem_replicate hzero]
      rfl
  · rw [Nat.ofDigitChars_append, hvalue, Nat.ofDigitChars_replicate_zero, Nat.mul_comm]
    rfl

theorem writes_padded (width n : Nat) : Writes (padded width n).toList n := by
  rw [padded, String.toList_ofList]
  exact (writes_toDigits n).zeros_append _

theorem length_padded {width : Nat} (hwidth : 0 < width) (h : n < tenTo width) :
    (padded width n).toList.length = width := by
  have hlength := (Nat.length_toDigits_le_iff (by decide) hwidth).mpr h
  rw [padded, String.toList_ofList, List.length_append, List.length_replicate]
  exact Nat.sub_add_cancel hlength

theorem toNat_of_isDigit {c : Char} (h : c.isDigit = true) : 48 ≤ c.toNat ∧ c.toNat ≤ 57 :=
  Char.isDigit_iff_toNat.mp h

theorem ofDigitChars_lt (h : ∀ c ∈ digits, c.isDigit = true) (start : Nat) :
    Nat.ofDigitChars 10 digits start < (start + 1) * tenTo digits.length := by
  induction digits generalizing start with
  | nil =>
      show start < (start + 1) * 1
      omega
  | cons c digits ih =>
      have hdigit : c.toNat - '0'.toNat < 10 := by
        obtain ⟨hlow, hhigh⟩ := toNat_of_isDigit (h c List.mem_cons_self)
        show c.toNat - 48 < 10
        omega
      have hrest := ih (fun c hc => h c (List.mem_cons_of_mem _ hc))
        (10 * start + (c.toNat - '0'.toNat))
      rw [Nat.ofDigitChars_cons]
      calc Nat.ofDigitChars 10 digits (10 * start + (c.toNat - '0'.toNat))
          < (10 * start + (c.toNat - '0'.toNat) + 1) * tenTo digits.length := hrest
        _ ≤ ((start + 1) * 10) * tenTo digits.length :=
            Nat.mul_le_mul_right _ (by omega)
        _ = (start + 1) * tenTo (c :: digits).length := by
            rw [List.length_cons, tenTo_succ, Nat.mul_assoc, Nat.mul_comm 10]

theorem le_ofDigitChars (digits : List Char) (start : Nat) :
    start ≤ Nat.ofDigitChars 10 digits start := by
  induction digits generalizing start with
  | nil => exact Nat.le_refl start
  | cons c digits ih =>
      rw [Nat.ofDigitChars_cons]
      exact Nat.le_trans (by omega) (ih (10 * start + (c.toNat - '0'.toNat)))

theorem isBlank_of_isDigit {c : Char} (h : c.isDigit = true) : isBlank c = false := by
  obtain ⟨hlow, hhigh⟩ := toNat_of_isDigit h
  rw [Bool.eq_false_iff]
  intro hblank
  simp only [isBlank, Bool.or_eq_true, Bool.and_eq_true, decide_eq_true_eq, beq_iff_eq] at hblank
  omega

theorem trimLeft_of_not_blank {c : Char} (h : isBlank c = false) (rest : List Char) :
    trimLeft (c :: rest) = c :: rest :=
  List.dropWhile_cons_of_neg (Bool.eq_false_iff.mp h)

theorem Writes.trimLeft (h : Writes digits n) (rest : List Char) :
    Text.trimLeft (digits ++ rest) = digits ++ rest := by
  obtain ⟨hne, hdigit, _⟩ := h
  cases digits with
  | nil => exact absurd rfl hne
  | cons c digits =>
      exact trimLeft_of_not_blank (isBlank_of_isDigit (hdigit c List.mem_cons_self)) _

/-- Readers of numbers add up their digits like this. -/
theorem foldl_digits (digits : List Char) (start : Nat) :
    digits.foldl (fun n c => n * 10 + (c.toNat - '0'.toNat)) start =
      Nat.ofDigitChars 10 digits start := by
  simp only [Nat.ofDigitChars_eq_foldl, Nat.mul_comm]

/-! ### Signs -/

/-- The sign in front of a number. -/
def sign (negative : Bool) : List Char :=
  if negative then ['-'] else []

theorem toList_toString (n : Int) :
    (toString n).toList = sign (decide (n < 0)) ++ Nat.toDigits 10 n.natAbs := by
  cases n with
  | ofNat n =>
      have hsign : ¬ Int.ofNat n < 0 := Int.not_lt.mpr (Int.natCast_nonneg n)
      rw [decide_eq_false hsign]
      exact Nat.toList_repr
  | negSucc n =>
      have happend : toString (Int.negSucc n) = "-" ++ (n + 1).repr := rfl
      rw [happend, String.toList_append, Nat.toList_repr,
        decide_eq_true (Int.negSucc_lt_zero n)]
      rfl

end Text

end RecordFilter
