/-
# `Proofs.Number.Shortest` — shortest decimals are short

The shortest decimal of a binary number is looked for on grids of ever more places below
its leading digit, seventeen at most.  Wherever that leading digit is put, the number lies
below the next power of ten (`lt_leadingExponent`), so there are no more than eighteen
digits (`digitCount_shortest_le`).  Only zero is written with the digit zero alone, and
then it has no exponent (`exponent_shortest_of_zero`).
-/
import RecordFilter.Number.Shortest
import RecordFilter.Proofs.Text.Digits

namespace RecordFilter

/-! ## Counting digits -/

namespace ShortDecimal

theorem digitCount_pos (n : Nat) : 0 < digitCount n :=
  Nat.length_toDigits_pos

theorem exists_digitCount_eq_succ (n : Nat) : ∃ k, digitCount n = k + 1 :=
  Nat.exists_eq_add_one.mpr (digitCount_pos n)

theorem digitCount_le_iff {n k : Nat} (hk : 0 < k) : digitCount n ≤ k ↔ n < tenTo k :=
  Nat.length_toDigits_le_iff (by decide) hk

theorem lt_tenTo_digitCount (n : Nat) : n < tenTo (digitCount n) :=
  (digitCount_le_iff (digitCount_pos n)).mp (Nat.le_refl _)

theorem tenTo_le_of_digitCount {n k : Nat} (hn : n ≠ 0) (h : digitCount n = k + 1) :
    tenTo k ≤ n := by
  cases k with
  | zero => exact Nat.pos_of_ne_zero hn
  | succ k =>
      refine Nat.not_lt.mp fun hlt => ?_
      have hle := (digitCount_le_iff (Nat.succ_pos k)).mpr hlt
      omega

/-! ## Zeros at the end -/

theorem stripZeros_digits_le (count : Nat) (d : ShortDecimal) :
    (stripZeros count d).digits ≤ d.digits := by
  induction count generalizing d with
  | zero => exact Nat.le_refl _
  | succ count ih =>
      rw [stripZeros]
      split
      · exact Nat.le_trans (ih _) (Nat.div_le_self _ 10)
      · exact Nat.le_refl _

theorem stripZeros_digits_ne_zero (count : Nat) {d : ShortDecimal} (h : d.digits ≠ 0) :
    (stripZeros count d).digits ≠ 0 := by
  induction count generalizing d with
  | zero => exact h
  | succ count ih =>
      rw [stripZeros]
      split
      · next hzero =>
          refine ih fun hdiv => ?_
          have hdiv : d.digits / 10 = 0 := hdiv
          omega
      · exact h

end ShortDecimal

/-! ## The search -/

namespace Binary64

open ShortDecimal

variable {num den : Nat} {x : Binary64}

/-- How often a number goes into a greater one, not counting an exact last time. -/
theorem mul_pred_ceil_lt (hnum : 0 < num) (hless : num < den) :
    (den + num - 1) / num - 1 ≠ 0 ∧ ((den + num - 1) / num - 1) * num < den := by
  have htwice : 2 ≤ (den + num - 1) / num := by
    rw [Nat.le_div_iff_mul_le hnum]
    omega
  have hmul := Nat.div_mul_le_self (den + num - 1) num
  generalize (den + num - 1) / num = count at htwice hmul
  obtain ⟨q, rfl⟩ : ∃ q, count = q + 1 := ⟨count - 1, by omega⟩
  rw [Nat.add_mul, Nat.one_mul] at hmul
  rw [Nat.add_sub_cancel]
  omega

/-- **A quotient is below the power of ten behind its leading digit.** -/
theorem lt_leadingExponent (hnum : 0 < num) (hden : 0 < den) :
    num * tenTo (-(leadingExponent num den + 1)).toNat <
      den * tenTo (leadingExponent num den + 1).toNat := by
  rw [leadingExponent]
  by_cases hwhole : den ≤ num
  · rw [if_pos hwhole]
    have hcount : ((digitCount (num / den) : Int) - 1 + 1).toNat = digitCount (num / den) := by
      omega
    have hzero : (-((digitCount (num / den) : Int) - 1 + 1)).toNat = 0 := by
      omega
    have hlt := (Nat.div_lt_iff_lt_mul hden).mp (lt_tenTo_digitCount (num / den))
    rw [hcount, hzero]
    calc num * tenTo 0 = num := Nat.mul_one num
      _ < tenTo (digitCount (num / den)) * den := hlt
      _ = den * tenTo (digitCount (num / den)) := Nat.mul_comm _ _
  · rw [if_neg hwhole]
    obtain ⟨hne, hmul⟩ := mul_pred_ceil_lt hnum (Nat.not_le.mp hwhole)
    generalize (den + num - 1) / num - 1 = q at hne hmul
    obtain ⟨k, hk⟩ := exists_digitCount_eq_succ q
    have hcount : (-(-(digitCount q : Int) + 1)).toNat = k := by
      omega
    have hzero : (-(digitCount q : Int) + 1).toNat = 0 := by
      omega
    rw [hcount, hzero]
    calc num * tenTo k ≤ num * q := Nat.mul_le_mul_left num (tenTo_le_of_digitCount hne hk)
      _ = q * num := Nat.mul_comm _ _
      _ < den := hmul
      _ = den * tenTo 0 := (Nat.mul_one den).symm

/-- On a grid of so many places below the leading digit a quotient has one digit more. -/
theorem div_lt_of_places (hnum : 0 < num) (hden : 0 < den) (places : Nat) :
    num * tenTo (-(leadingExponent num den - places)).toNat /
      (den * tenTo (leadingExponent num den - places).toNat) < tenTo (places + 1) := by
  have hlt := lt_leadingExponent hnum hden
  generalize leadingExponent num den = leading at hlt ⊢
  rw [Nat.div_lt_iff_lt_mul (Nat.mul_pos hden (tenTo_pos _))]
  refine Nat.lt_of_mul_lt_mul_right (a := tenTo (leading + 1).toNat) ?_
  have hexponents : (-(leading - places)).toNat + (leading + 1).toNat =
      (-(leading + 1)).toNat + ((leading - places).toNat + (places + 1)) := by
    omega
  calc num * tenTo (-(leading - places)).toNat * tenTo (leading + 1).toNat
      = num * tenTo (-(leading + 1)).toNat *
          tenTo ((leading - places).toNat + (places + 1)) := by
        rw [Nat.mul_assoc, ← tenTo_add, hexponents, tenTo_add, Nat.mul_assoc]
    _ < den * tenTo (leading + 1).toNat * tenTo ((leading - places).toNat + (places + 1)) :=
        Nat.mul_lt_mul_of_pos_right hlt (tenTo_pos _)
    _ = tenTo (places + 1) * (den * tenTo (leading - places).toNat) *
          tenTo (leading + 1).toNat := by
        rw [tenTo_add]
        simp only [Nat.mul_assoc, Nat.mul_comm, Nat.mul_left_comm]

theorem digits_of_mem_neighbours {exponent : Int} {d : ShortDecimal}
    (h : d ∈ neighbours num den exponent) :
    d.digits ≤ num * tenTo (-exponent).toNat / (den * tenTo exponent.toNat) + 1 := by
  have hboth : d = ⟨num * tenTo (-exponent).toNat / (den * tenTo exponent.toNat), exponent⟩ ∨
      d = ⟨num * tenTo (-exponent).toNat / (den * tenTo exponent.toNat) + 1, exponent⟩ := by
    simp only [neighbours] at h
    split at h
    · simpa using h
    · simpa [or_comm] using h
    · split at h
      · simpa using h
      · simpa [or_comm] using h
  rcases hboth with rfl | rfl
  · exact Nat.le_succ _
  · exact Nat.le_refl _

theorem digits_ne_zero_of_readsBack {d : ShortDecimal} (hx : x.isZero = false)
    (h : x.readsBack d = true) : d.digits ≠ 0 := by
  intro hzero
  have hnum : d.digits * tenTo d.exponent.toNat = 0 := by
    rw [hzero, Nat.zero_mul]
  have hback : ofQuotient x.negative (d.digits * tenTo d.exponent.toNat)
      (tenTo (-d.exponent).toNat) = some x := eq_of_beq h
  rw [ofQuotient, if_pos hnum, Option.some.injEq] at hback
  rw [← hback] at hx
  cases hx

/-- What is found is one of few digits, or nothing is. -/
theorem exists_shortest (x : Binary64) : x.shortest = ⟨0, 0⟩ ∨
    ∃ d : ShortDecimal, x.shortest = d.stripZeros 17 ∧ d.digits ≠ 0 ∧ d.digits ≤ tenTo 17 := by
  rw [shortest]
  by_cases hx : x.isZero = true
  · rw [if_pos hx]
    exact .inl rfl
  · rw [if_neg hx]
    have hmantissa : 0 < x.mantissa := by
      refine Nat.pos_of_ne_zero fun hzero => hx ?_
      rw [isZero, hzero]
      rfl
    have hnum : 0 < x.mantissa * twoTo x.exponent.toNat :=
      Nat.mul_pos hmantissa (Nat.pow_pos (by decide))
    have hden : 0 < twoTo (-x.exponent).toNat := Nat.pow_pos (by decide)
    simp only [quotient]
    generalize hfound : (List.range 17).findSome? _ = found
    cases found with
    | none => exact .inl rfl
    | some d =>
        right
        obtain ⟨places, hplaces, hd⟩ := List.exists_of_findSome?_eq_some hfound
        have hback : x.readsBack d = true := List.find?_some hd
        have hdigits := digits_of_mem_neighbours (List.mem_of_find?_eq_some hd)
        have hlt := div_lt_of_places hnum hden places
        have hle : tenTo (places + 1) ≤ tenTo 17 := tenTo_le (List.mem_range.mp hplaces)
        exact ⟨d, rfl, digits_ne_zero_of_readsBack (Bool.eq_false_iff.mpr hx) hback, by omega⟩

/-- **Shortest decimals have eighteen digits at most.** -/
theorem digitCount_shortest_le (x : Binary64) : digitCount x.shortest.digits ≤ 18 := by
  rw [digitCount_le_iff (by decide)]
  rcases exists_shortest x with hzero | ⟨d, hd, _, hle⟩
  · rw [hzero]
    exact tenTo_pos 18
  · rw [hd]
    calc (d.stripZeros 17).digits ≤ d.digits := stripZeros_digits_le 17 d
      _ ≤ tenTo 17 := hle
      _ < tenTo 18 := by decide

/-- **Zero is written without exponent.** -/
theorem exponent_shortest_of_zero {x : Binary64} (h : x.shortest.digits = 0) :
    x.shortest.exponent = 0 := by
  rcases exists_shortest x with hzero | ⟨d, hd, hne, _⟩
  · rw [hzero]
  · rw [hd] at h
    exact absurd h (stripZeros_digits_ne_zero 17 hne)

end Binary64

end RecordFilter
