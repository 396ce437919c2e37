/-
# `Proofs.Number.Reading` — which numbers are read as decimals

The text of a stored number is read as a decimal of 96 bits with at most 28 places.  Not
every number is one.  `Decimal.Holds` are those that are read at all: zero, and what is
neither nearer to zero than the last place nor beyond the greatest coefficient.

    digits with a point are read as they are                   (`readDigits_placed`)
    an exponent down adds places, or the number is refused     (`readsAs_small`)
    an exponent up adds digits, or the number is refused       (`readsAs_large`)
    so it is with all texts of numbers                         (`Json.Number.readsAs`)

Where places run out some are rounded away, and then the decimal is not the number.  That
happens only strictly between zero and one, so the decimal is equal to no other integer
than the number, and `ReadsAs` says no more than that.
-/
import Mathlib.Algebra.Order.Field.Power
import Mathlib.Data.List.TakeWhile
import Mathlib.Tactic.Linarith
import RecordFilter.Proofs.Number.Decimal
import RecordFilter.Proofs.Number.Notation

namespace RecordFilter

open Text

namespace Decimal

variable {text base digits : List Char} {k s n : Nat} {negative : Bool} {d : Decimal}

/-! ## Digits -/

/-- **Digits with a point are read as they are**, if there are not too many. -/
theorem readDigits_placed (h : Placed text k s) (hs : s ≤ maxScale) (hk : k < bound) :
    readDigits ⟨0, 0, false, false⟩ text = some (k, s) := by
  cases h with
  | whole h => exact readDigits_writes h hk
  | @point before after _ hbefore hafter h =>
      have hdigit := List.forall_mem_append.mp h.isDigit
      have hvalue := h.value
      rw [Nat.ofDigitChars_append] at hvalue
      have hfits : Nat.ofDigitChars 10 before 0 < bound := by
        refine Nat.lt_of_le_of_lt (le_ofDigitChars after _) ?_
        rw [hvalue]
        exact hk
      have hafterwards : readDigits ⟨Nat.ofDigitChars 10 before 0, 0, true, true⟩ after =
          some (Nat.ofDigitChars 10 after (Nat.ofDigitChars 10 before 0), 0 + after.length) :=
        readDigits_places hdigit.2 (fun _ => rfl) (by omega) (hvalue.symm ▸ hk)
      have hpoint : readDigits ⟨Nat.ofDigitChars 10 before 0, 0, false, true⟩ ('.' :: after) =
          readDigits ⟨Nat.ofDigitChars 10 before 0, 0, true, true⟩ after := by
        rw [readDigits, if_neg (by decide), if_pos rfl]
        rfl
      rw [readDigits_whole hdigit.1 (fun hnil => absurd hnil hbefore) hfits, hpoint, hafterwards,
        hvalue, Nat.zero_add]

/-- What cannot be passed over behind the digits ends no number. -/
theorem roundAt_eq_none {c : Char} (hmem : c ∈ text) (hpassed : isPassed c = false) (p : Partial)
    (digit : Nat) : roundAt p digit text = none := by
  have hall : text.all isPassed = false := by
    rw [List.all_eq_false]
    exact ⟨c, hmem, by rw [hpassed]; exact Bool.false_ne_true⟩
  rw [roundAt, hall]
  rfl

theorem readDigits_eq_none {c : Char} (hmem : c ∈ text) (hpassed : isPassed c = false)
    (hpoint : c ≠ '.') (p : Partial) : readDigits p text = none := by
  induction text generalizing p with
  | nil => cases hmem
  | cons a text ih =>
      rw [readDigits]
      rcases List.mem_cons.mp hmem with rfl | hmem
      · have hunderline : c ≠ '_' := by
          rintro rfl
          cases hpassed
        have hdigit : ¬ c.isDigit = true := by
          intro hdigit
          rw [isPassed, hdigit] at hpassed
          cases hpassed
        rw [if_neg hunderline, if_neg hpoint, if_neg hdigit]
      · simp only [ih hmem, roundAt_eq_none hmem hpassed, ite_self]

/-! ## Exponents -/

theorem exponentOfText_plus (h : Writes digits n) :
    exponentOfText ('+' :: digits) = if n < twoTo 32 then some n else none := by
  obtain ⟨hne, hdigit, hvalue⟩ := h
  have hall : (digits.isEmpty || !digits.all Char.isDigit) = false := by
    rw [List.all_eq_true.mpr hdigit, List.isEmpty_eq_false_iff.mpr hne]
    rfl
  show (if (digits.isEmpty || !digits.all Char.isDigit) = true then none
    else if digits.foldl (fun n c => n * 10 + (c.toNat - '0'.toNat)) 0 < twoTo 32 then
      some (digits.foldl (fun n c => n * 10 + (c.toNat - '0'.toNat)) 0) else none) = _
  rw [hall, foldl_digits, hvalue, if_neg Bool.false_ne_true]

theorem exponentOfText_writes (h : Writes digits n) :
    exponentOfText digits = if n < twoTo 32 then some n else none := by
  rw [← exponentOfText_plus h]
  unfold exponentOfText
  split
  · exact absurd h (not_writes_of_head rfl)
  · rfl

theorem maxScale_lt_twoTo : maxScale < twoTo 32 := by
  decide

/-- No exponent down is too large to be read that could be applied. -/
theorem lower_exponent (h : Writes digits n) (d : Decimal) :
    (exponentOfText digits).bind d.lower = d.lower n := by
  rw [exponentOfText_writes h]
  by_cases hn : n < twoTo 32
  · rw [if_pos hn, Option.bind_some]
  · have hlarge : maxScale < n := Nat.lt_of_lt_of_le maxScale_lt_twoTo (Nat.not_lt.mp hn)
    rw [if_neg hn, Option.bind_none, lower, if_pos hlarge]

theorem raise_exponent (h : Writes digits n) (hscale : d.scale ≤ maxScale) :
    (exponentOfText ('+' :: digits)).bind d.raise = d.raise n := by
  rw [exponentOfText_plus h]
  by_cases hn : n < twoTo 32
  · rw [if_pos hn, Option.bind_some]
  · have hlarge : maxScale < n := Nat.lt_of_lt_of_le maxScale_lt_twoTo (Nat.not_lt.mp hn)
    have hplaces : ¬ n ≤ d.scale := Nat.not_le.mpr (Nat.lt_of_le_of_lt hscale hlarge)
    rw [if_neg hn, Option.bind_none, raise, if_neg hplaces, if_pos hlarge]

theorem ofScientific_mark (hbase : ∀ c ∈ base, isMark c = false) (exponent : List Char) :
    (base ++ 'e' :: exponent).takeWhile (!isMark ·) = base ∧
      (base ++ 'e' :: exponent).dropWhile (!isMark ·) = 'e' :: exponent := by
  have hall : ∀ c ∈ base, (!isMark c) = true := by
    intro c hc
    rw [hbase c hc]
    rfl
  constructor
  · rw [List.takeWhile_append_of_pos hall]
    exact List.append_nil base
  · rw [List.dropWhile_append_of_pos hall]
    rfl

theorem ofText_mark (hbase : Placed base k s) (exponent : List Char) (negative : Bool) :
    ofText (sign negative ++ (base ++ 'e' :: exponent)) =
      ofScientific ((sign negative ++ base) ++ 'e' :: exponent) := by
  have hhead : ∃ c rest, base ++ 'e' :: exponent = c :: rest ∧ c.isDigit = true := by
    obtain ⟨c, rest, rfl, hc⟩ := hbase.head
    exact ⟨c, _, rfl, hc⟩
  have hmem : 'e' ∈ base ++ 'e' :: exponent := List.mem_append_right base List.mem_cons_self
  rw [ofText, ofPlain_sign hhead, readDigits_eq_none hmem rfl (by decide), List.append_assoc]
  rfl

theorem ofPlain_placed (hbase : Placed base k s) (hs : s ≤ maxScale) (hk : k < bound)
    (negative : Bool) : ofPlain (sign negative ++ base) = some ⟨negative, k, s⟩ := by
  rw [ofPlain_sign hbase.head, readDigits_placed hbase hs hk]
  rfl

theorem isMark_of_mem (hbase : Placed base k s) (negative : Bool) :
    ∀ c ∈ sign negative ++ base, isMark c = false := by
  intro c hc
  rcases List.mem_append.mp hc with hsign | hc
  · cases negative with
    | false => cases hsign
    | true =>
        rw [List.mem_singleton.mp hsign]
        rfl
  · rw [Bool.eq_false_iff]
    intro hmark
    rw [isMark, Bool.or_eq_true, beq_iff_eq, beq_iff_eq] at hmark
    rcases hmark with rfl | rfl
    · exact hbase.notMem rfl (by decide) hc
    · exact hbase.notMem rfl (by decide) hc

theorem ofText_lower (hbase : Placed base k s) (hs : s ≤ maxScale) (hk : k < bound)
    (hn : Writes digits n) (negative : Bool) :
    ofText (sign negative ++ (base ++ 'e' :: '-' :: digits)) = lower ⟨negative, k, s⟩ n := by
  obtain ⟨htake, hdrop⟩ := ofScientific_mark (isMark_of_mem hbase negative) ('-' :: digits)
  rw [ofText_mark hbase, ofScientific, hdrop, htake, ofPlain_placed hbase hs hk]
  exact lower_exponent hn _

theorem ofText_raise (hbase : Placed base k s) (hs : s ≤ maxScale) (hk : k < bound)
    (hn : Writes digits n) (negative : Bool) :
    ofText (sign negative ++ (base ++ 'e' :: '+' :: digits)) = raise ⟨negative, k, s⟩ n := by
  obtain ⟨htake, hdrop⟩ := ofScientific_mark (isMark_of_mem hbase negative) ('+' :: digits)
  rw [ofText_mark hbase, ofScientific, hdrop, htake, ofPlain_placed hbase hs hk]
  exact raise_exponent hn hs

/-! ## Values -/

/-- The number that a decimal is. -/
def value (d : Decimal) : ℚ :=
  d.signed * 10 ^ (-(d.scale : ℤ))

/-- The numbers that are read as decimals: zero, and what is neither below the last place nor
beyond the greatest coefficient. -/
def Holds (v : ℚ) : Prop :=
  (v = 0 ∨ 10 ^ (-(maxScale : ℤ)) ≤ |v|) ∧ |v| < bound

instance (v : ℚ) : Decidable (Holds v) :=
  inferInstanceAs (Decidable (_ ∧ _))

/-- `ReadsAs text v`: the text is read if and only if `v` can be, and then to a decimal that
is equal to the same integers. -/
structure ReadsAs (text : List Char) (v : ℚ) : Prop where
  read : Holds v → ∃ d, ofText text = some d ∧ ∀ a : ℤ, d.value = a ↔ v = a
  refused : ¬ Holds v → ofText text = none

theorem value_mk (negative : Bool) (k s : Nat) :
    value ⟨negative, k, s⟩ =
      if negative then -((k : ℚ) * 10 ^ (-(s : ℤ))) else k * 10 ^ (-(s : ℤ)) := by
  cases negative with
  | false => rfl
  | true =>
      show ((-(k : ℤ) : ℤ) : ℚ) * 10 ^ (-(s : ℤ)) = -((k : ℚ) * 10 ^ (-(s : ℤ)))
      rw [Int.cast_neg, Int.cast_natCast, neg_mul]

/-- **A decimal compares as equal to the integer that it is.** -/
theorem compareInt_eq_iff (d : Decimal) (a : ℤ) : d.compareInt a = .eq ↔ d.value = a := by
  have hten : (10 : ℚ) ^ (d.scale : ℤ) ≠ 0 := zpow_ne_zero _ (by norm_num)
  rw [compareInt, Int.compare_eq_eq, value, zpow_neg, mul_inv_eq_iff_eq_mul₀ hten, ← cast_tenTo]
  constructor
  · intro h
    rw [h]
    push_cast
    rfl
  · intro h
    exact_mod_cast h

theorem holds_sign (negative : Bool) (v : ℚ) : Holds (if negative then -v else v) ↔ Holds v := by
  cases negative with
  | false => exact Iff.rfl
  | true => simp only [if_true, Holds, abs_neg, neg_eq_zero]

variable {v : ℚ}

theorem ReadsAs.of_value (hholds : Holds v) (hread : ofText text = some d) (hvalue : d.value = v) :
    ReadsAs text v where
  read _ := by
    refine ⟨d, hread, fun a => ?_⟩
    rw [hvalue]
  refused h := absurd hholds h

theorem ReadsAs.of_none (hholds : ¬ Holds v) (hread : ofText text = none) : ReadsAs text v where
  read h := absurd h hholds
  refused _ := hread

theorem ne_int_of_between {v : ℚ} (hpos : 0 < v) (hone : v < 1) (negative : Bool) (a : ℤ) :
    (if negative then -v else v) ≠ a := by
  intro h
  cases negative with
  | false =>
      have hpos' : ((0 : ℤ) : ℚ) < a := by
        rw [Int.cast_zero, ← h]
        exact hpos
      have hone' : (a : ℚ) < ((1 : ℤ) : ℚ) := by
        rw [Int.cast_one, ← h]
        exact hone
      have := Int.cast_lt.mp hpos'
      have := Int.cast_lt.mp hone'
      omega
  | true =>
      have hpos' : (a : ℚ) < ((0 : ℤ) : ℚ) := by
        rw [Int.cast_zero, ← h]
        exact neg_lt_zero.mpr hpos
      have hone' : ((-1 : ℤ) : ℚ) < a := by
        rw [Int.cast_neg, Int.cast_one, ← h]
        exact neg_lt_neg hone
      have := Int.cast_lt.mp hpos'
      have := Int.cast_lt.mp hone'
      omega

end Decimal

/-! ## The layout of a decimal -/

namespace ShortDecimal

variable {d : ShortDecimal}

theorem value_bounds (h : d.digits ≠ 0) :
    (10 : ℚ) ^ d.leading ≤ d.value ∧ d.value < 10 ^ (d.leading + 1) := by
  obtain ⟨k, hk⟩ := exists_digitCount_eq_succ d.digits
  have hleading : d.leading = k + d.exponent := by
    rw [leading, hk]
    omega
  have hten : (10 : ℚ) ≠ 0 := by norm_num
  have hpower : (0 : ℚ) < 10 ^ d.exponent := zpow_pos (by norm_num) _
  have hleast : ((tenTo k : Nat) : ℚ) ≤ d.digits :=
    Nat.cast_le.mpr (tenTo_le_of_digitCount h hk)
  have hgreatest : (d.digits : ℚ) < ((tenTo (k + 1) : Nat) : ℚ) :=
    Nat.cast_lt.mpr (hk ▸ lt_tenTo_digitCount d.digits)
  constructor
  · rw [hleading, zpow_add₀ hten, ← cast_tenTo]
    exact mul_le_mul_of_nonneg_right hleast hpower.le
  · have hsucc : d.leading + 1 = ((k + 1 : Nat) : ℤ) + d.exponent := by
      omega
    rw [hsucc, zpow_add₀ hten, ← cast_tenTo]
    exact mul_lt_mul_of_pos_right hgreatest hpower

theorem value_pos (h : d.digits ≠ 0) : 0 < d.value :=
  (zpow_pos (by norm_num) d.leading).trans_le (value_bounds h).1

/-- Zero has its leading digit where the point is. -/
theorem digits_ne_zero (hzero : d.digits = 0 → d.exponent = 0) (h : d.leading ≠ 0) :
    d.digits ≠ 0 := by
  intro hdigits
  refine h ?_
  rw [leading, hdigits, hzero hdigits]
  rfl

end ShortDecimal

namespace Decimal

open Json ShortDecimal

variable {d : ShortDecimal} {negative : Bool}

theorem tenTo_lt_bound {n : Nat} (h : n ≤ 18) : tenTo n < bound :=
  Nat.lt_of_le_of_lt (tenTo_le h) (by decide)

theorem one_lt_bound : (1 : ℚ) < bound := by
  have h : 1 < bound := by decide
  exact_mod_cast h

theorem zpow_lt_bound {e : ℤ} (h : e ≤ 18) : (10 : ℚ) ^ e < bound := by
  have hpower : (10 : ℚ) ^ ((18 : Nat) : ℤ) < bound := by
    rw [← cast_tenTo]
    exact Nat.cast_lt.mpr (tenTo_lt_bound (Nat.le_refl 18))
  exact (zpow_le_zpow_right₀ (by norm_num) h).trans_lt hpower

theorem bound_le_zpow {e : ℤ} (h : 29 ≤ e) : (bound : ℚ) ≤ 10 ^ e := by
  have hpower : (bound : ℚ) ≤ 10 ^ ((29 : Nat) : ℤ) := by
    rw [← cast_tenTo]
    exact Nat.cast_le.mpr (by decide)
  exact hpower.trans (zpow_le_zpow_right₀ (by norm_num) h)

theorem digits_lt_tenTo (hcount : digitCount d.digits ≤ 18) : d.digits < tenTo 18 :=
  (lt_tenTo_digitCount d.digits).trans_le (tenTo_le hcount)

theorem digits_lt_bound (hcount : digitCount d.digits ≤ 18) : d.digits < bound :=
  (digits_lt_tenTo hcount).trans (tenTo_lt_bound (Nat.le_refl 18))

/-- What has its leading digit among the places and is not too large is read. -/
theorem holds_of_bounds {v : ℚ} {e : ℤ} (hleast : -(maxScale : ℤ) ≤ e) (hv : 10 ^ e ≤ v)
    (hbound : v < bound) : Holds v := by
  have hnonneg : 0 ≤ v := (zpow_pos (by norm_num) e).le.trans hv
  rw [Holds, abs_of_nonneg hnonneg]
  exact ⟨.inr ((zpow_le_zpow_right₀ (by norm_num) hleast).trans hv), hbound⟩

/-- What is nearer to zero than the last place, but not zero, is not read. -/
theorem not_holds_of_near {v : ℚ} (hpos : 0 < v) (hnear : v < 10 ^ (-(maxScale : ℤ))) :
    ¬ Holds v := by
  rw [Holds, abs_of_pos hpos]
  rintro ⟨hzero | hplace, _⟩
  · exact hpos.ne' hzero
  · exact absurd hnear (not_lt.mpr hplace)

theorem not_holds_of_beyond {v : ℚ} (h : bound ≤ v) : ¬ Holds v := by
  rintro ⟨_, hbound⟩
  exact absurd hbound (not_lt.mpr (h.trans (le_abs_self v)))

/-- **Plain digits are read as they are.** -/
theorem readsAs_plain (hleast : -5 ≤ d.leading) (hgreatest : d.leading < 16)
    (hcount : digitCount d.digits ≤ 18) (negative : Bool) :
    ReadsAs (sign negative ++ layoutDecimal d) (if negative then -d.value else d.value) := by
  obtain ⟨k, s, hplaced, hvalue, hs, hk⟩ := placed_layoutDecimal hleast hgreatest
  have hplaces : s ≤ maxScale := by
    rw [maxScale]
    omega
  have hfits : k < bound := hk.trans (tenTo_lt_bound (by omega))
  refine .of_value ?_ (d := ⟨negative, k, s⟩) ?_ ?_
  · rw [holds_sign]
    by_cases hdigits : d.digits = 0
    · have hvalue : d.value = 0 := by
        rw [ShortDecimal.value, hdigits, Nat.cast_zero, zero_mul]
      rw [hvalue, Holds, abs_zero]
      exact ⟨.inl rfl, zero_lt_one.trans one_lt_bound⟩
    · obtain ⟨hlow, hhigh⟩ := value_bounds hdigits
      refine holds_of_bounds ?_ hlow (hhigh.trans (zpow_lt_bound (by omega)))
      rw [maxScale]
      omega
  · rw [ofText, ofPlain_placed hplaced hplaces hfits]
    rfl
  · rw [value_mk, hvalue]

/-- A coefficient whose places run out keeps a digit other than zero, and gains none. -/
theorem withPlaces_bounds (negative : Bool) {k s : Nat} (places : Nat) (hlow : tenTo s ≤ k)
    (hhigh : k < tenTo 18) :
    0 < (withPlaces ⟨negative, k, s⟩ places).coefficient ∧
      (withPlaces ⟨negative, k, s⟩ places).coefficient < tenTo maxScale := by
  have hdropped : tenTo (s - places) ≤ k := (tenTo_le (Nat.sub_le s places)).trans hlow
  have hpos := tenTo_pos (s - places)
  have hscale : 2 * tenTo 18 < tenTo maxScale := by decide
  show 0 < (k + tenTo (s - places) / 2) / tenTo (s - places) ∧
    (k + tenTo (s - places) / 2) / tenTo (s - places) < tenTo maxScale
  constructor
  · exact Nat.div_pos (hdropped.trans (Nat.le_add_right _ _)) hpos
  · refine (Nat.div_le_self _ _).trans_lt ?_
    omega

theorem value_between {k : Nat} (hpos : 0 < k) (hless : k < tenTo maxScale) :
    0 < (k : ℚ) * 10 ^ (-(maxScale : ℤ)) ∧ (k : ℚ) * 10 ^ (-(maxScale : ℤ)) < 1 := by
  have hpower : (0 : ℚ) < 10 ^ (maxScale : ℤ) := zpow_pos (by norm_num) _
  have hk : (k : ℚ) < 10 ^ (maxScale : ℤ) := by
    rw [← cast_tenTo]
    exact Nat.cast_lt.mpr hless
  rw [zpow_neg]
  constructor
  · exact mul_pos (Nat.cast_pos.mpr hpos) (inv_pos.mpr hpower)
  · rw [mul_inv_lt_iff₀ hpower, one_mul]
    exact hk

theorem ofText_small (hsmall : d.leading < -5) (hcount : digitCount d.digits ≤ 18)
    (negative : Bool) :
    ofText (sign negative ++ layoutDecimal d) =
      lower ⟨negative, d.digits, digitCount d.digits - 1⟩ d.leading.natAbs := by
  obtain ⟨base, hbase, htext⟩ := scientific_layoutDecimal (.inl hsmall)
  have hminus : d.leading < 0 := by omega
  have hplaces : digitCount d.digits - 1 ≤ maxScale := by
    rw [maxScale]
    omega
  rw [htext, if_pos hminus]
  exact ofText_lower hbase hplaces (digits_lt_bound hcount) (writes_toDigits _) negative

theorem ofText_large (hlarge : 16 ≤ d.leading) (hcount : digitCount d.digits ≤ 18)
    (negative : Bool) :
    ofText (sign negative ++ layoutDecimal d) =
      raise ⟨negative, d.digits, digitCount d.digits - 1⟩ d.leading.natAbs := by
  obtain ⟨base, hbase, htext⟩ := scientific_layoutDecimal (.inr hlarge)
  have hplus : ¬ d.leading < 0 := by omega
  have hplaces : digitCount d.digits - 1 ≤ maxScale := by
    rw [maxScale]
    omega
  rw [htext, if_neg hplus]
  exact ofText_raise hbase hplaces (digits_lt_bound hcount) (writes_toDigits _) negative

/-- **Numbers near zero** are read with what places there are, or refused. -/
theorem readsAs_small (hsmall : d.leading < -5) (hcount : digitCount d.digits ≤ 18)
    (hdigits : d.digits ≠ 0) (negative : Bool) :
    ReadsAs (sign negative ++ layoutDecimal d) (if negative then -d.value else d.value) := by
  obtain ⟨s, hs⟩ := exists_digitCount_eq_succ d.digits
  obtain ⟨n, hn⟩ : ∃ n : Nat, d.leading = -(n : ℤ) := ⟨d.leading.natAbs, by omega⟩
  have hread := ofText_small hsmall hcount negative
  rw [hs, Nat.add_sub_cancel, hn, Int.natAbs_neg, Int.natAbs_natCast, lower] at hread
  obtain ⟨hlow, hhigh⟩ := value_bounds hdigits
  have hpos := value_pos hdigits
  by_cases hout : maxScale < n
  · rw [if_pos hout] at hread
    refine .of_none ((holds_sign negative _).not.mpr (not_holds_of_near hpos ?_)) hread
    exact hhigh.trans_le (zpow_le_zpow_right₀ (by norm_num) (by omega))
  · rw [if_neg hout] at hread
    have hone : d.value < 1 := by
      have hpower : (10 : ℚ) ^ (d.leading + 1) ≤ 10 ^ (0 : ℤ) :=
        zpow_le_zpow_right₀ (by norm_num) (by omega)
      exact hhigh.trans_le (hpower.trans_eq (zpow_zero 10))
    have hholds : Holds (if negative then -d.value else d.value) :=
      (holds_sign negative _).mpr (holds_of_bounds (by omega) hlow (hone.trans one_lt_bound))
    by_cases hrounded : maxScale < s + n
    · -- what is left of the digits is another number, but no integer either
      rw [if_pos hrounded] at hread
      obtain ⟨hkept, hgained⟩ := withPlaces_bounds negative (maxScale - n)
        (tenTo_le_of_digitCount hdigits hs) (digits_lt_tenTo hcount)
      obtain ⟨hrest_pos, hrest_one⟩ := value_between hkept hgained
      refine ⟨fun _ => ⟨_, hread, fun a => ?_⟩, fun h => absurd hholds h⟩
      rw [value_mk]
      exact iff_of_false (ne_int_of_between hrest_pos hrest_one negative a)
        (ne_int_of_between hpos hone negative a)
    · rw [if_neg hrounded] at hread
      refine .of_value hholds hread ?_
      have hexponent : -((s + n : Nat) : ℤ) = d.exponent := by
        have hleading : d.leading = d.exponent + digitCount d.digits - 1 := rfl
        omega
      rw [value_mk, value_of_places hexponent]

/-- **Great numbers** are read with zeros behind them, or refused. -/
theorem readsAs_large (hlarge : 16 ≤ d.leading) (hcount : digitCount d.digits ≤ 18)
    (hdigits : d.digits ≠ 0) (negative : Bool) :
    ReadsAs (sign negative ++ layoutDecimal d) (if negative then -d.value else d.value) := by
  obtain ⟨s, hs⟩ := exists_digitCount_eq_succ d.digits
  obtain ⟨n, hn⟩ : ∃ n : Nat, d.leading = (n : ℤ) := ⟨d.leading.natAbs, by omega⟩
  have hleading : d.leading = d.exponent + digitCount d.digits - 1 := rfl
  have hread := ofText_large hlarge hcount negative
  rw [hs, Nat.add_sub_cancel, hn, Int.natAbs_natCast, raise] at hread
  obtain ⟨hlow, hhigh⟩ := value_bounds hdigits
  have hholds : d.value < bound → Holds (if negative then -d.value else d.value) := by
    intro hbound
    exact (holds_sign negative _).mpr (holds_of_bounds (by omega) hlow hbound)
  have hbeyond : bound ≤ d.value → ¬ Holds (if negative then -d.value else d.value) := by
    intro hbound
    exact (holds_sign negative _).not.mpr (not_holds_of_beyond hbound)
  by_cases hdown : n ≤ s
  · rw [if_pos hdown] at hread
    refine .of_value (hholds (hhigh.trans (zpow_lt_bound (by omega)))) hread ?_
    have hexponent : -((s - n : Nat) : ℤ) = d.exponent := by
      omega
    rw [value_mk, value_of_places hexponent]
  rw [if_neg hdown] at hread
  by_cases hout : maxScale < n
  · rw [if_pos hout] at hread
    refine .of_none (hbeyond ((bound_le_zpow ?_).trans hlow)) hread
    rw [maxScale] at hout
    omega
  rw [if_neg hout] at hread
  have hvalue : ((d.digits * tenTo (n - s) : Nat) : ℚ) = d.value := by
    have hexponent : ((n - s : Nat) : ℤ) = d.exponent := by
      omega
    rw [Nat.cast_mul, cast_tenTo, hexponent]
    rfl
  dsimp only at hread
  by_cases hfits : d.digits * tenTo (n - s) < bound
  · rw [if_pos hfits] at hread
    refine .of_value (hholds ?_) hread ?_
    · rw [← hvalue]
      exact Nat.cast_lt.mpr hfits
    · rw [value_mk, hvalue, Nat.cast_zero, neg_zero, zpow_zero, mul_one]
  · rw [if_neg hfits] at hread
    refine .of_none (hbeyond ?_) hread
    rw [← hvalue]
    exact Nat.cast_le.mpr (Nat.not_lt.mp hfits)

/-- **The layout of a decimal is read**, or refused. -/
theorem readsAs_layoutDecimal (hcount : digitCount d.digits ≤ 18)
    (hzero : d.digits = 0 → d.exponent = 0) (negative : Bool) :
    ReadsAs (sign negative ++ layoutDecimal d) (if negative then -d.value else d.value) := by
  by_cases hsmall : d.leading < -5
  · exact readsAs_small hsmall hcount (digits_ne_zero hzero (by omega)) negative
  · by_cases hlarge : 16 ≤ d.leading
    · exact readsAs_large hlarge hcount (digits_ne_zero hzero (by omega)) negative
    · exact readsAs_plain (Int.not_lt.mp hsmall) (Int.not_le.mp hlarge) hcount negative

/-! ## Integers -/

theorem holds_int_iff (n : ℤ) : Holds n ↔ n.natAbs < bound := by
  have habs : |(n : ℚ)| = n.natAbs := by
    rw [← Int.cast_abs, Int.abs_eq_natAbs, Int.cast_natCast]
  rw [Holds, habs, Nat.cast_lt]
  refine and_iff_right ?_
  by_cases hn : n = 0
  · exact .inl (Int.cast_eq_zero.mpr hn)
  · right
    have hone : (1 : ℚ) ≤ n.natAbs := by
      exact_mod_cast Nat.pos_of_ne_zero (Int.natAbs_ne_zero.mpr hn)
    have hpower : (10 : ℚ) ^ (-(maxScale : ℤ)) ≤ 10 ^ (0 : ℤ) :=
      zpow_le_zpow_right₀ (by norm_num) (by rw [maxScale]; decide)
    exact (hpower.trans_eq (zpow_zero 10)).trans hone

/-- **Integers are read**, or refused where they do not fit. -/
theorem readsAs_integer (n : ℤ) : ReadsAs (toString n).toList n := by
  by_cases hfits : n.natAbs < bound
  · refine .of_value ((holds_int_iff n).mpr hfits) (ofText_toString hfits) ?_
    rw [value_mk, Nat.cast_zero, neg_zero, zpow_zero, mul_one]
    exact (cast_eq_sign_natAbs n).symm
  · refine .of_none (mt (holds_int_iff n).mp hfits) ?_
    have hwrites := writes_toDigits n.natAbs
    have hover : readDigits ⟨0, 0, false, false⟩ (Nat.toDigits 10 n.natAbs) = none :=
      readDigits_overflow hwrites.isDigit (Nat.pow_pos Nat.two_pos)
        (not_lt.mp (hwrites.value.symm ▸ hfits))
    have hdrop :
        (sign (decide (n < 0)) ++ Nat.toDigits 10 n.natAbs).dropWhile (!isMark ·) = [] := by
      rw [List.dropWhile_eq_nil_iff]
      intro c hc
      rw [isMark_of_mem (.whole hwrites) _ c hc]
      rfl
    rw [toList_toString, ofText, ofPlain_sign hwrites.head, hover, ofScientific, hdrop]
    rfl

end Decimal

/-- **The text of a number is read** to a decimal that is equal to the same integers, if it
is one of the numbers that can be, and refused otherwise. -/
theorem Json.Number.readsAs (n : Json.Number) : Decimal.ReadsAs n.text.toList n.value := by
  cases n with
  | integer n => exact Decimal.readsAs_integer n
  | float x =>
      have htext : (Number.float x).text.toList = sign x.negative ++ layoutDecimal x.shortest :=
        String.toList_ofList
      rw [htext]
      exact Decimal.readsAs_layoutDecimal x.digitCount_shortest_le
        Binary64.exponent_shortest_of_zero x.negative

end RecordFilter
