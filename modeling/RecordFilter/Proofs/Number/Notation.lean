/-
# `Proofs.Number.Notation` — what the text of a number denotes

`Text.Denotes text v` is how the text of a number is meant to be read, as an exact
rational: digits with at most one point among them, then perhaps an exponent of ten, and
a minus sign in front of all.  A text denotes one number at most (`Denotes.unique`).

The text of a stored number is an integer, or the shortest decimal of a binary number laid
out in one of three ways, and denotes that integer or decimal (`Json.Number.denotes`):

    digits behind a point and zeros, and digits with a point among or behind them
                                                              (`placed_layoutDecimal`)
    one digit, the others behind a point, and an exponent     (`scientific_layoutDecimal`)
-/
import Mathlib.Algebra.Order.Field.Rat
import Mathlib.Tactic.Ring
import RecordFilter.Json.Number
import RecordFilter.Proofs.Number.Shortest
import RecordFilter.Proofs.Value.Integer

namespace RecordFilter

/-! ## Notation -/

namespace Text

/-- `Placed text k s`: digits with at most one point, digits on both sides of it.  Without
the point the digits write `k`, and `s` of them stand behind it. -/
inductive Placed : List Char → Nat → Nat → Prop
  | whole {digits : List Char} {k : Nat} : Writes digits k → Placed digits k 0
  | point {before after : List Char} {k : Nat} : before ≠ [] → after ≠ [] →
      Writes (before ++ after) k → Placed (before ++ '.' :: after) k after.length

/-- `Measures text v`: digits with at most one point, and perhaps an exponent, denote
`v`. -/
inductive Measures : List Char → ℚ → Prop
  | plain {text : List Char} {k s : Nat} : Placed text k s →
      Measures text (k * 10 ^ (-(s : ℤ)))
  | scientific {text exponent : List Char} {k s : Nat} {e : ℤ} : Placed text k s →
      Signed exponent e → Measures (text ++ 'e' :: exponent) (k * 10 ^ (e - s))

/-- `Denotes text v`: the text of a number, with a minus sign if it is negative, denotes
`v`. -/
inductive Denotes : List Char → ℚ → Prop
  | positive {text : List Char} {v : ℚ} : Measures text v → Denotes text v
  | negative {text : List Char} {v : ℚ} : Measures text v → Denotes ('-' :: text) (-v)

end Text

/-- The value of a decimal. -/
def ShortDecimal.value (d : ShortDecimal) : ℚ :=
  d.digits * 10 ^ d.exponent

/-- The value of a stored number: of a binary one it is that of its shortest decimal. -/
def Json.Number.value : Json.Number → ℚ
  | integer n => n
  | float x => if x.negative then -x.shortest.value else x.shortest.value

theorem cast_tenTo (n : Nat) : ((tenTo n : Nat) : ℚ) = 10 ^ (n : ℤ) := by
  rw [zpow_natCast]
  exact Nat.cast_pow 10 n

/-! ## The layout of a decimal -/

namespace Json

open Text ShortDecimal

variable {d : ShortDecimal}

theorem writes_digits (d : ShortDecimal) : Writes (decimalDigits d.digits) d.digits :=
  writes_toDigits d.digits

theorem length_digits (d : ShortDecimal) :
    (decimalDigits d.digits).length = digitCount d.digits :=
  rfl

theorem value_of_places {s : Nat} (h : -(s : ℤ) = d.exponent) :
    (d.digits : ℚ) * 10 ^ (-(s : ℤ)) = d.value := by
  rw [h]
  rfl

/-- A decimal with zeros behind its digits, the last of them behind the point. -/
theorem value_of_zeros {zeros : Nat} (h : (zeros : ℤ) = d.exponent) :
    ((d.digits * tenTo zeros * tenTo 1 : Nat) : ℚ) * 10 ^ (-((1 : Nat) : ℤ)) = d.value := by
  have hone : (10 : ℚ) ^ ((1 : Nat) : ℤ) * 10 ^ (-((1 : Nat) : ℤ)) = 1 := by
    rw [← zpow_add₀ (by decide), add_neg_cancel, zpow_zero]
  rw [Nat.cast_mul, Nat.cast_mul, cast_tenTo, cast_tenTo, mul_assoc, hone, mul_one, h]
  rfl

/-- Digits with a point somewhere among them. -/
theorem placed_split {count : Nat} (hpos : 0 < count) (hless : count < digitCount d.digits) :
    Placed ((decimalDigits d.digits).take count ++ '.' :: (decimalDigits d.digits).drop count)
      d.digits (digitCount d.digits - count) := by
  have hdigits := writes_digits d
  have hlength := length_digits d
  have hbefore : (decimalDigits d.digits).take count ≠ [] := by
    rw [Ne, List.take_eq_nil_iff]
    exact fun h => h.elim (Nat.ne_of_gt hpos) hdigits.ne_nil
  have hafter : (decimalDigits d.digits).drop count ≠ [] := by
    rw [Ne, List.drop_eq_nil_iff, hlength]
    exact Nat.not_le.mpr hless
  have hsplit : Writes ((decimalDigits d.digits).take count ++ (decimalDigits d.digits).drop count)
      d.digits := by
    rw [List.take_append_drop]
    exact hdigits
  have hpoint := Placed.point hbefore hafter hsplit
  rw [List.length_drop, hlength] at hpoint
  exact hpoint

/-- **Digits with a point denote the decimal**, with a bound on both their numbers. -/
theorem placed_layoutDecimal (hleast : -5 ≤ d.leading) (hgreatest : d.leading < 16) :
    ∃ k s : Nat, Placed (layoutDecimal d) k s ∧ (k : ℚ) * 10 ^ (-(s : ℤ)) = d.value ∧
      s ≤ digitCount d.digits + 4 ∧ k < tenTo (max (digitCount d.digits) 17) := by
  have hdigits := writes_digits d
  have hlength := length_digits d
  have hpos := digitCount_pos d.digits
  have hbound := lt_tenTo_digitCount d.digits
  have hfits : d.digits < tenTo (max (digitCount d.digits) 17) :=
    Nat.lt_of_lt_of_le hbound (tenTo_le (Nat.le_max_left _ _))
  have hleading : d.leading = d.exponent + digitCount d.digits - 1 := rfl
  have hplain : ¬ (d.leading < -5 ∨ 16 ≤ d.leading) := by
    omega
  rw [layoutDecimal, if_neg hplain]
  by_cases hnegative : d.leading < 0
  · rw [if_pos hnegative]
    have hwrites := hdigits.zeros_append (d.leading.natAbs - 1)
    have hpoint : Placed ('0' :: '.' :: (List.replicate (d.leading.natAbs - 1) '0' ++
        decimalDigits d.digits)) d.digits _ :=
      .point (List.cons_ne_nil '0' []) hwrites.ne_nil (hwrites.zeros_append 1)
    rw [List.length_append, List.length_replicate, hlength] at hpoint
    refine ⟨_, _, hpoint, value_of_places ?_, ?_, hfits⟩
    · omega
    · omega
  · rw [if_neg hnegative]
    dsimp only
    by_cases hshort : digitCount d.digits ≤ d.leading.toNat + 1
    · rw [hlength, if_pos hshort, List.take_of_length_le (hlength.trans_le hshort)]
      have hzeros := hdigits.append_zeros (d.leading.toNat + 1 - digitCount d.digits)
      refine ⟨_, _, .point hzeros.ne_nil (List.cons_ne_nil '0' []) (hzeros.append_zeros 1),
        value_of_zeros ?_, ?_, ?_⟩
      · omega
      · exact Nat.le_trans (Nat.succ_le_of_lt hpos) (Nat.le_add_right _ 4)
      · have hcount :
            digitCount d.digits + (d.leading.toNat + 1 - digitCount d.digits) + 1 ≤ 17 := by
          omega
        calc d.digits * tenTo (d.leading.toNat + 1 - digitCount d.digits) * tenTo 1
            < tenTo (digitCount d.digits) * tenTo (d.leading.toNat + 1 - digitCount d.digits) *
                tenTo 1 :=
              Nat.mul_lt_mul_of_pos_right
                (Nat.mul_lt_mul_of_pos_right hbound (tenTo_pos _)) (tenTo_pos 1)
          _ = tenTo (digitCount d.digits + (d.leading.toNat + 1 - digitCount d.digits) + 1) := by
              rw [tenTo_add, tenTo_add]
          _ ≤ tenTo (max (digitCount d.digits) 17) :=
              tenTo_le (hcount.trans (Nat.le_max_right _ _))
    · have hrest : d.leading.toNat + 1 - digitCount d.digits = 0 := by
        omega
      rw [hlength, if_neg hshort, hrest, List.replicate_zero, List.append_nil]
      refine ⟨_, _, placed_split (Nat.succ_pos _) (Nat.not_le.mp hshort), value_of_places ?_, ?_,
        hfits⟩
      · omega
      · omega

/-- **One digit, the others behind a point, and an exponent** denote the decimal. -/
theorem scientific_layoutDecimal (h : d.leading < -5 ∨ 16 ≤ d.leading) :
    ∃ base, Placed base d.digits (digitCount d.digits - 1) ∧ layoutDecimal d =
      base ++ 'e' :: (if d.leading < 0 then '-' else '+') :: decimalDigits d.leading.natAbs := by
  have hdigits := writes_digits d
  have hlength := length_digits d
  have hpos := digitCount_pos d.digits
  rw [layoutDecimal, if_pos h]
  refine ⟨_, ?_, rfl⟩
  by_cases hone : digitCount d.digits = 1
  · rw [hlength, if_pos hone, hone, List.append_nil,
      List.take_of_length_le (hlength.trans_le (Nat.le_of_eq hone))]
    exact .whole hdigits
  · rw [hlength, if_neg hone]
    exact placed_split Nat.one_pos (by omega)

theorem measures_layoutDecimal (d : ShortDecimal) : Measures (layoutDecimal d) d.value := by
  by_cases hplain : d.leading < -5 ∨ 16 ≤ d.leading
  · obtain ⟨base, hbase, htext⟩ := scientific_layoutDecimal hplain
    have hexponent : Signed ((if d.leading < 0 then '-' else '+') ::
        decimalDigits d.leading.natAbs) d.leading := by
      by_cases hnegative : d.leading < 0
      · rw [if_pos hnegative]
        have habs : d.leading = -(d.leading.natAbs : ℤ) := by omega
        nth_rewrite 2 [habs]
        exact .minus (writes_toDigits _)
      · rw [if_neg hnegative]
        have habs : d.leading = (d.leading.natAbs : ℤ) := by omega
        nth_rewrite 2 [habs]
        exact .plus (writes_toDigits _)
    have hvalue : d.value = d.digits * 10 ^ (d.leading - (digitCount d.digits - 1 : Nat)) := by
      have hpos := digitCount_pos d.digits
      have hleading : d.leading = d.exponent + digitCount d.digits - 1 := rfl
      have hexponent : d.exponent = d.leading - (digitCount d.digits - 1 : Nat) := by omega
      rw [← hexponent]
      rfl
    rw [htext, hvalue]
    exact .scientific hbase hexponent
  · obtain ⟨hleast, hgreatest⟩ := not_or.mp hplain
    obtain ⟨k, s, hplaced, hvalue, _⟩ :=
      placed_layoutDecimal (Int.not_lt.mp hleast) (Int.not_le.mp hgreatest)
    rw [← hvalue]
    exact .plain hplaced

end Json

/-! ## The text of a number -/

namespace Text

variable {text : List Char} {v : ℚ}

theorem Measures.denotes_sign (h : Measures text v) (negative : Bool) :
    Denotes (sign negative ++ text) (if negative then -v else v) := by
  cases negative with
  | true => exact .negative h
  | false => exact .positive h

end Text

theorem cast_eq_sign_natAbs (n : ℤ) :
    (n : ℚ) = if decide (n < 0) = true then -(n.natAbs : ℚ) else n.natAbs := by
  by_cases hn : n < 0
  · have habs : n = -(n.natAbs : ℤ) := by omega
    rw [if_pos (decide_eq_true hn), ← Int.cast_natCast, ← Int.cast_neg, ← habs]
  · have habs : n = (n.natAbs : ℤ) := by omega
    rw [if_neg (by rwa [decide_eq_true_eq]), ← Int.cast_natCast, ← habs]

/-- **The text of a number denotes its value.** -/
theorem Json.Number.denotes (n : Json.Number) : Text.Denotes n.text.toList n.value := by
  cases n with
  | integer n =>
      have habs : Text.Measures (Nat.toDigits 10 n.natAbs) n.natAbs := by
        have hplain := Text.Measures.plain (.whole (Text.writes_toDigits n.natAbs))
        rwa [Nat.cast_zero, neg_zero, zpow_zero, mul_one] at hplain
      show Text.Denotes (toString n).toList n
      rw [Text.toList_toString, cast_eq_sign_natAbs]
      exact habs.denotes_sign _
  | float x =>
      show Text.Denotes (String.ofList (floatText x)).toList _
      rw [String.toList_ofList]
      exact (measures_layoutDecimal x.shortest).denotes_sign x.negative

/-! ## One text, one number -/

namespace Text

variable {text text' : List Char} {k k' s s' n n' : Nat} {e e' : ℤ} {v v' : ℚ}

theorem cut_unique {a b c d : List Char} {x : Char} (ha : x ∉ a) (hc : x ∉ c)
    (h : a ++ x :: b = c ++ x :: d) : a = c ∧ b = d := by
  rcases List.append_eq_append_iff.mp h with ⟨more, rfl, hrest⟩ | ⟨more, rfl, hrest⟩
  · cases more with
    | nil =>
        rw [List.nil_append, List.cons.injEq] at hrest
        exact ⟨(List.append_nil a).symm, hrest.2⟩
    | cons y more =>
        obtain ⟨rfl, _⟩ := List.cons.inj hrest
        exact absurd (List.mem_append_right a List.mem_cons_self) hc
  · cases more with
    | nil =>
        rw [List.nil_append, List.cons.injEq] at hrest
        exact ⟨List.append_nil c, hrest.2.symm⟩
    | cons y more =>
        obtain ⟨rfl, _⟩ := List.cons.inj hrest
        exact absurd (List.mem_append_right c List.mem_cons_self) ha

theorem Writes.notMem (h : Writes text n) {c : Char} (hc : c.isDigit = false) : c ∉ text := by
  intro hmem
  rw [h.isDigit c hmem] at hc
  cases hc

theorem Placed.notMem (h : Placed text k s) {c : Char} (hc : c.isDigit = false) (hpoint : c ≠ '.') :
    c ∉ text := by
  cases h with
  | whole h => exact h.notMem hc
  | point _ _ h =>
      have hnot := h.notMem hc
      rw [List.mem_append] at hnot ⊢
      rw [List.mem_cons]
      rintro (hbefore | rfl | hafter)
      · exact hnot (.inl hbefore)
      · exact hpoint rfl
      · exact hnot (.inr hafter)

theorem Placed.head (h : Placed text k s) : ∃ c rest, text = c :: rest ∧ c.isDigit = true := by
  cases h with
  | whole h => exact h.head
  | @point before after _ hbefore _ h =>
      obtain ⟨c, rest, rfl⟩ := List.exists_cons_of_ne_nil hbefore
      exact ⟨c, rest ++ '.' :: after, rfl, h.isDigit c (List.mem_append_left _ List.mem_cons_self)⟩

theorem Writes.unique (h : Writes text n) (h' : Writes text n') : n = n' :=
  h.value.symm.trans h'.value

theorem Placed.unique (h : Placed text k s) (h' : Placed text k' s') : k = k' ∧ s = s' := by
  cases h with
  | whole h =>
      generalize htext : text = text' at h'
      cases h' with
      | whole h' =>
          subst htext
          exact ⟨h.unique h', rfl⟩
      | point _ _ _ =>
          subst htext
          exact absurd (List.mem_append_right _ List.mem_cons_self) (h.notMem rfl)
  | @point before after _ _ _ h =>
      generalize htext : before ++ '.' :: after = text' at h'
      cases h' with
      | whole h' =>
          subst htext
          exact absurd (List.mem_append_right _ List.mem_cons_self) (h'.notMem rfl)
      | point _ _ h' =>
          have hnot := h.notMem (c := '.') rfl
          have hnot' := h'.notMem (c := '.') rfl
          obtain ⟨rfl, rfl⟩ := cut_unique (fun hmem => hnot (List.mem_append_left _ hmem))
            (fun hmem => hnot' (List.mem_append_left _ hmem)) htext
          exact ⟨h.unique h', rfl⟩

theorem Signed.unique (h : Signed text e) (h' : Signed text e') : e = e' := by
  cases h with
  | plain h =>
      cases h' with
      | plain h' => exact congrArg _ (h.unique h')
      | plus _ => exact absurd h (not_writes_of_head rfl)
      | minus _ => exact absurd h (not_writes_of_head rfl)
  | plus h =>
      obtain ⟨n, hn, rfl⟩ := signed_plus_iff.mp h'
      exact congrArg _ (h.unique hn)
  | minus h =>
      obtain ⟨n, hn, rfl⟩ := signed_minus_iff.mp h'
      exact congrArg (fun n : Nat => -(n : ℤ)) (h.unique hn)

theorem Measures.unique (h : Measures text v) (h' : Measures text v') : v = v' := by
  cases h with
  | plain h =>
      cases h' with
      | plain h' =>
          obtain ⟨rfl, rfl⟩ := h.unique h'
          rfl
      | scientific _ _ =>
          exact absurd (List.mem_append_right _ List.mem_cons_self) (h.notMem rfl (by decide))
  | @scientific base exponent _ _ _ h he =>
      generalize htext : base ++ 'e' :: exponent = text' at h'
      cases h' with
      | plain h' =>
          subst htext
          exact absurd (List.mem_append_right _ List.mem_cons_self) (h'.notMem rfl (by decide))
      | scientific h' he' =>
          obtain ⟨rfl, rfl⟩ :=
            cut_unique (h.notMem rfl (by decide)) (h'.notMem rfl (by decide)) htext
          obtain ⟨rfl, rfl⟩ := h.unique h'
          rw [he.unique he']

theorem Measures.head (h : Measures text v) : ∃ c rest, text = c :: rest ∧ c.isDigit = true := by
  cases h with
  | plain h => exact h.head
  | scientific h _ =>
      obtain ⟨c, rest, rfl, hc⟩ := h.head
      exact ⟨c, _, rfl, hc⟩

/-- **A text denotes one number at most.** -/
theorem Denotes.unique (h : Denotes text v) (h' : Denotes text v') : v = v' := by
  have hminus : ∀ {text v}, ¬ Measures ('-' :: text) v := by
    intro text v h
    obtain ⟨c, rest, htext, hc⟩ := h.head
    obtain ⟨rfl, _⟩ := List.cons.inj htext
    cases hc
  cases h with
  | positive h =>
      cases h' with
      | positive h' => exact h.unique h'
      | negative _ => exact absurd h hminus
  | negative h =>
      cases h' with
      | positive h' => exact absurd h' hminus
      | negative h' => exact congrArg Neg.neg (h.unique h')

end Text

end RecordFilter
