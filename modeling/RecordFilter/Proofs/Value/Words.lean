/-
# `Proofs.Value.Words` — an argument of integers is read exactly

The integers of a size are the words of so many bits, in two's complement
(`holds_iff_word`).  What an argument of a property of integers is turned into, and when it
is refused, is said with words and digits alone: it is the integer of a word that the text
denotes, and where it denotes none the error names the argument and the type.

That digits are read without leaving the size on the way is `Width.integerOfText_eq_ok_iff`;
here both limits are those of the words, and the text that a value is shown as denotes it
(`signed_toString`).
-/
import RecordFilter.Proofs.Value.Integer

namespace RecordFilter

/-! ## Texts of integers -/

theorem Text.signed_toString (n : Int) : Signed (toString n).toList n := by
  rw [toList_toString]
  have hdigits := writes_toDigits n.natAbs
  by_cases hn : n < 0
  · have hminus : Signed ('-' :: Nat.toDigits 10 n.natAbs) (-n.natAbs) := .minus hdigits
    rw [Int.ofNat_natAbs_of_nonpos (Int.le_of_lt hn), Int.neg_neg] at hminus
    rw [decide_eq_true hn]
    exact hminus
  · have hplain : Signed (Nat.toDigits 10 n.natAbs) n.natAbs := .plain hdigits
    rw [Int.natAbs_of_nonneg (Int.not_lt.mp hn)] at hplain
    rw [decide_eq_false hn]
    exact hplain

namespace Width

variable {w : Width} {k : Int} {argument : String}

/-! ## Words -/

theorem least_le_toInt (word : BitVec w.bits) : w.least ≤ word.toInt := by
  cases w <;> exact word.le_toInt

theorem toInt_le_greatest (word : BitVec w.bits) : word.toInt ≤ w.greatest := by
  cases w <;> exact Int.le_sub_one_of_lt word.toInt_lt

theorem toInt_ofInt (hleast : w.least ≤ k) (hgreatest : k ≤ w.greatest) :
    (BitVec.ofInt w.bits k).toInt = k := by
  cases w <;>
    exact BitVec.toInt_ofInt_eq_self (by decide) hleast (Int.lt_of_le_sub_one hgreatest)

/-- **The integers of a size are its words** in two's complement. -/
theorem holds_iff_word : w.holds k = true ↔ ∃ word : BitVec w.bits, word.toInt = k := by
  rw [holds_iff]
  constructor
  · rintro ⟨hleast, hgreatest⟩
    exact ⟨_, toInt_ofInt hleast hgreatest⟩
  · rintro ⟨word, rfl⟩
    exact ⟨least_le_toInt word, toInt_le_greatest word⟩

theorem denotes_iff_word :
    w.Denotes argument k ↔
      ∃ word : BitVec w.bits, Text.Signed argument.toList word.toInt ∧ k = word.toInt := by
  rw [Denotes, holds_iff_word]
  constructor
  · rintro ⟨hsigned, word, rfl⟩
    exact ⟨word, hsigned, rfl⟩
  · rintro ⟨word, hsigned, rfl⟩
    exact ⟨hsigned, word, rfl⟩

theorem coerce_cases (w : Width) (argument : String) (format : DateFormat) :
    (∃ n, w.type.coerce argument format = .ok (.int w n)) ∨
      ∃ fault, w.type.coerce argument format = .error ⟨argument, w.type, .integer fault⟩ := by
  rw [coerce_eq]
  cases w.integerOfText argument.toList with
  | error fault => exact .inr ⟨fault, rfl⟩
  | ok n => exact .inl ⟨n, rfl⟩

theorem coerce_eq_ok_iff_word {format : DateFormat} {v : Value} :
    w.type.coerce argument format = .ok v ↔
      ∃ word : BitVec w.bits, Text.Signed argument.toList word.toInt ∧ v = .int w word.toInt := by
  constructor
  · intro h
    rcases coerce_cases w argument format with ⟨n, hok⟩ | ⟨fault, herror⟩
    · obtain ⟨word, hsigned, rfl⟩ := denotes_iff_word.mp (coerce_eq_ok_iff.mp hok)
      rw [hok] at h
      cases h
      exact ⟨word, hsigned, rfl⟩
    · rw [herror] at h
      cases h
  · rintro ⟨word, hsigned, rfl⟩
    exact coerce_eq_ok_iff.mpr (denotes_iff_word.mpr ⟨word, hsigned, rfl⟩)

/-! ## The theorem -/

/-- **Integers are coerced exactly.**  An argument of a type of integers is turned into a
value if and only if it is digits behind at most one sign, and they denote the integer of a
word of the type; that integer is the value.  Any other argument is an error, which carries
the argument and the type.  The text of an integer value, of whatever size, is turned into
the same integer of every type that has a word for it. -/
theorem integers_coerced_exactly (w : Width) (format : DateFormat) :
    (∀ argument v, w.type.coerce argument format = .ok v ↔
      ∃ word : BitVec w.bits, Text.Signed argument.toList word.toInt ∧ v = .int w word.toInt) ∧
    (∀ argument, (∃ fault,
        w.type.coerce argument format = .error ⟨argument, w.type, .integer fault⟩) ↔
      ¬ ∃ word : BitVec w.bits, Text.Signed argument.toList word.toInt) ∧
    ∀ (size : Width) (word : BitVec w.bits),
      w.type.coerce (Value.int size word.toInt).render format = .ok (.int w word.toInt) := by
  refine ⟨fun argument v => coerce_eq_ok_iff_word, fun argument => ⟨?_, fun hnone => ?_⟩,
    fun size word => coerce_eq_ok_iff_word.mpr ⟨word, Text.signed_toString _, rfl⟩⟩
  · rintro ⟨fault, herror⟩ ⟨word, hsigned⟩
    have hok : w.type.coerce argument format = _ := coerce_eq_ok_iff_word.mpr ⟨word, hsigned, rfl⟩
    rw [herror] at hok
    cases hok
  · rcases coerce_cases w argument format with ⟨n, hok⟩ | herror
    · obtain ⟨word, hsigned, -⟩ := coerce_eq_ok_iff_word.mp hok
      exact absurd ⟨word, hsigned⟩ hnone
    · exact herror

end Width

end RecordFilter
