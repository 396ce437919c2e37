/-
# `Proofs.Calendar.Reading` — written dates are read back

Dates are read in three ways: a stored date, a stored moment in one of two forms, and
an argument by the pattern `yyyy-MM-dd HH:mm:ss.SSS`.  All three read a year, a month
and a day with dashes between them, and then hours, minutes and seconds with colons
between them; blanks may be allowed for, and the fraction of the second comes with or
without its point.  So there is one theorem for the date, one for the clock, and each
form is put together from the two:

    the date in front of anything                              (`readAll_dashed`)
    the clock in front of anything                             (`readAll_clocked`)
    a stored moment, in both forms                             (`DateTime.ofStored?_stamp`)
    a stored date, and the date of a stored moment             (`Date.ofStored?_text`, `_stamp`)
    an argument                                                (`DateFormat.readDateTime_stamp`)
-/
import Mathlib.Data.List.TakeWhile
import RecordFilter.DateFormat
import RecordFilter.Proofs.Calendar.Order
import RecordFilter.Proofs.Outcome
import RecordFilter.Proofs.Text.Digits

namespace RecordFilter

open Text

/-! ## Numbers -/

namespace DateReading

variable {digits rest : List Char} {n limit : Nat}

theorem readDigits_writes (h : Writes digits n) (hlength : digits.length ≤ limit)
    (hstop : digits.length = limit ∨ ∀ c ∈ rest.head?, c.isDigit = false) :
    readDigits limit (digits ++ rest) = .ok (n, rest) := by
  have htake : ((digits ++ rest).take limit).takeWhile Char.isDigit = digits := by
    rw [List.take_append, List.take_of_length_le hlength,
      List.takeWhile_append_of_pos h.isDigit]
    rcases hstop with hfull | hstop
    · rw [hfull, Nat.sub_self, List.take_zero, List.takeWhile_nil, List.append_nil]
    · cases rest with
      | nil => rw [List.take_nil, List.takeWhile_nil, List.append_nil]
      | cons c rest =>
          have hc : ¬ c.isDigit = true := Bool.eq_false_iff.mp (hstop c rfl)
          cases hroom : limit - digits.length with
          | zero => rw [List.take_zero, List.takeWhile_nil, List.append_nil]
          | succ room => rw [List.take_succ_cons, List.takeWhile_cons_of_neg hc, List.append_nil]
  obtain ⟨hne, hdigit, hvalue⟩ := h
  cases digits with
  | nil => exact absurd rfl hne
  | cons c digits =>
      have hc : ¬ (!c.isDigit) = true := by
        rw [hdigit c List.mem_cons_self]
        exact Bool.false_ne_true
      have hdrop : (c :: digits ++ rest).drop (c :: digits).length = rest := List.drop_left
      rw [List.cons_append] at htake hdrop ⊢
      simp only [readDigits, if_neg hc]
      rw [htake, foldl_digits, hvalue, hdrop]

theorem readDigits_padded {width : Nat} (hwidth : 0 < width) (h : n < tenTo width)
    (rest : List Char) : readDigits width ((padded width n).toList ++ rest) = .ok (n, rest) :=
  readDigits_writes (writes_padded width n) (Nat.le_of_eq (length_padded hwidth h))
    (.inl (length_padded hwidth h))

end DateReading

open DateReading

/-- A field of two digits.  The fields that are written so differ in their setters only. -/
theorem DateField.read_number {f : DateField} {fields fields' : Fields}
    {set : Fields → Nat → Except DateFault Fields} {n : Nat}
    (hf : ∀ fields text, f.read fields text = readInto (set fields) (readDigits 2 (trimLeft text)))
    (hn : n < 100) (hset : set fields n = .ok fields') (rest : List Char) :
    f.read fields ((padded 2 n).toList ++ rest) = .ok (fields', rest) := by
  rw [hf, (writes_padded 2 n).trimLeft, readDigits_padded (by decide) hn, readInto, hset]
  rfl

/-! ## Items one by one -/

namespace DateItem

variable {fields fields' : Fields} {items gap : List DateItem} {text rest : List Char}

theorem readAll_cons {item : DateItem} (h : item.read fields text = .ok (fields', rest))
    (items : List DateItem) :
    readAll fields (item :: items) text = readAll fields' items rest := by
  rw [readAll, h]

theorem readAll_exactly (c : Char) (fields : Fields) (items : List DateItem) (rest : List Char) :
    readAll fields (.exactly [c] :: items) (c :: rest) = readAll fields items rest := by
  refine readAll_cons ?_ items
  have hsize : ¬ byteSize (c :: rest) < byteSize [c] :=
    Nat.not_lt.mpr (Nat.add_le_add_left (Nat.zero_le _) _)
  have htake : (c :: rest).take [c].length = [c] := rfl
  rw [read, if_neg hsize, if_pos htake]
  rfl

theorem readAll_exactly_ne {c first : Char} (hne : first ≠ c) (fields : Fields)
    (items : List DateItem) (rest : List Char) :
    ∃ fault, readAll fields (.exactly [c] :: items) (first :: rest) = .error fault := by
  have htake : ¬ (first :: rest).take [c].length = [c] := fun h => hne (List.cons.inj h).1
  rw [readAll, read, if_neg htake]
  by_cases hsize : byteSize (first :: rest) < byteSize [c]
  · rw [if_pos hsize]
    exact ⟨_, rfl⟩
  · rw [if_neg hsize]
    exact ⟨_, rfl⟩

/-- Where blanks may stand, none need to. -/
theorem readAll_gap {c : Char} (hgap : gap = [] ∨ gap = [.blanks]) (hc : isBlank c = false)
    (fields : Fields) (items : List DateItem) (rest : List Char) :
    readAll fields (gap ++ items) (c :: rest) = readAll fields items (c :: rest) := by
  rcases hgap with rfl | rfl
  · rfl
  · refine readAll_cons ?_ items
    rw [read, trimLeft_of_not_blank hc]

theorem readAll_number {f : DateField} {set : Fields → Nat → Except DateFault Fields} {n : Nat}
    (hf : ∀ fields text, f.read fields text = readInto (set fields) (readDigits 2 (trimLeft text)))
    (hn : n < 100) (hset : set fields n = .ok fields') (items : List DateItem)
    (rest : List Char) :
    readAll fields (.field f :: items) ((padded 2 n).toList ++ rest) =
      readAll fields' items rest := by
  refine readAll_cons ?_ items
  rw [read, DateField.read_number hf hn hset rest]

/-! ## The date -/

/-- A year, a month and a day with dashes between them; `gap` may stand behind the year and
the month. -/
def dashed (gap : List DateItem) : List DateItem :=
  [.field .year] ++ gap ++ [.exactly ['-'], .field .month] ++ gap ++ [.exactly ['-'], .field .day]

end DateItem

/-- The fields of a date. -/
def Fields.ofDate (d : Date) : Fields :=
  { year := some d.year, month := some d.month, day := some d.day }

namespace DateReading

theorem readYear_digit {c : Char} (h : c.isDigit = true) (text : List Char) :
    readYear (c :: text) = (readDigits 4 (c :: text)).map fun (n, rest) => ((n : Int), rest) := by
  unfold readYear
  split
  · next heq =>
      rw [(List.cons.inj heq).1] at h
      cases h
  · next heq =>
      rw [(List.cons.inj heq).1] at h
      cases h
  · rfl

theorem readYear_padded {n : Nat} (h : n < 10000) (rest : List Char) :
    readYear ((padded 4 n).toList ++ rest) = .ok ((n : Int), rest) := by
  have hwrites := writes_padded 4 n
  have hread : readDigits 4 ((padded 4 n).toList ++ rest) = .ok (n, rest) :=
    readDigits_padded (by decide) h rest
  cases hdigits : (padded 4 n).toList with
  | nil => exact absurd hdigits hwrites.ne_nil
  | cons c digits =>
      rw [hdigits] at hread hwrites
      rw [List.cons_append, readYear_digit (hwrites.isDigit c List.mem_cons_self),
        ← List.cons_append, hread]
      rfl

theorem readSignedYear_padded {n : Nat} (sign : Int) (h : n ≤ greatestWord) (rest : List Char) :
    readSignedYear sign ((padded 4 n).toList ++ '-' :: rest) = .ok (sign * n, '-' :: rest) := by
  have hstop : ∀ c ∈ ('-' :: rest).head?, c.isDigit = false := by
    rintro c hc
    cases hc
    rfl
  have hlength : (padded 4 n).toList.length ≤ ((padded 4 n).toList ++ '-' :: rest).length := by
    rw [List.length_append]
    exact Nat.le_add_right _ _
  rw [readSignedYear, readDigits_writes (writes_padded 4 n) hlength (.inr hstop)]
  exact if_neg (Nat.not_lt.mpr h)

/-- **A written year is read back**, with its sign where it has one. -/
theorem readYear_yearText {year : Int} (h : Date.firstYear ≤ year ∧ year ≤ Date.lastYear)
    (rest : List Char) :
    readYear (trimLeft ((Date.yearText year).toList ++ '-' :: rest)) = .ok (year, '-' :: rest) := by
  obtain ⟨hfirst, hlast⟩ := h
  rw [Date.firstYear] at hfirst
  rw [Date.lastYear] at hlast
  have hword : year.natAbs ≤ greatestWord := by
    have hgreatest : greatestWord = 9223372036854775807 := rfl
    omega
  rw [Date.yearText]
  split
  · next hnegative =>
      have hyear : (-1 : Int) * year.natAbs = year := by omega
      rw [String.toList_append]
      show readSignedYear (-1) ((padded 4 year.natAbs).toList ++ '-' :: rest) = _
      rw [readSignedYear_padded _ hword, hyear]
  · split
    · next hlong =>
        have hyear : (1 : Int) * year.natAbs = year := by omega
        rw [String.toList_append]
        show readSignedYear 1 ((padded 4 year.natAbs).toList ++ '-' :: rest) = _
        rw [readSignedYear_padded _ hword, hyear]
    · next hshort =>
        have hn : year.natAbs < 10000 := by omega
        have hyear : (year.natAbs : Int) = year := by omega
        rw [(writes_padded 4 year.natAbs).trimLeft, readYear_padded hn, hyear]

end DateReading

theorem Date.toList_text_append (d : Date) (rest : List Char) :
    d.text.toList ++ rest = (yearText d.year).toList ++
      '-' :: ((padded 2 d.month).toList ++ '-' :: ((padded 2 d.day).toList ++ rest)) := by
  have hdash : "-".toList = ['-'] := rfl
  simp only [text, String.toList_append, List.append_assoc, hdash, List.cons_append,
    List.nil_append]

theorem Fields.within_ok {low high n : Nat} (h : low ≤ n ∧ n ≤ high) :
    within low high n = .ok n :=
  if_pos h

namespace DateItem

variable {gap : List DateItem} {d : Date}

/-- **The date is read in front of anything.** -/
theorem readAll_dashed (hgap : gap = [] ∨ gap = [.blanks]) (hd : d.exists?)
    (items : List DateItem) (rest : List Char) :
    readAll {} (dashed gap ++ items) (d.text.toList ++ rest) =
      readAll (Fields.ofDate d) items rest := by
  have hyear := Date.year_of_exists hd
  have hmonth := Date.month_of_exists hd
  have hday : 1 ≤ d.day ∧ d.day ≤ 31 :=
    ⟨(Date.day_of_exists hd).1, (Date.day_of_exists hd).2.trans (Date.daysInMonth_le _ _)⟩
  have hsetYear : Fields.setYear {} d.year = .ok { year := some d.year } := by
    have hfits : ¬ (d.year < -(twoTo 31 : Int) ∨ (twoTo 31 : Int) ≤ d.year) := by
      have hword : (twoTo 31 : Int) = 2147483648 := rfl
      rw [Date.firstYear, Date.lastYear] at hyear
      omega
    rw [Fields.setYear, if_neg hfits]
    rfl
  have hsetMonth : Fields.setMonth { year := some d.year } d.month =
      .ok { year := some d.year, month := some d.month } := by
    rw [Fields.setMonth, Fields.within_ok hmonth]
    rfl
  have hsetDay : Fields.setDay { year := some d.year, month := some d.month } d.day =
      .ok (Fields.ofDate d) := by
    rw [Fields.setDay, Fields.within_ok hday]
    rfl
  have hread : ∀ rest, (DateItem.field .year).read {} ((Date.yearText d.year).toList ++
      '-' :: rest) = .ok ({ year := some d.year }, '-' :: rest) := by
    intro rest
    rw [read, DateField.read, readYear_yearText hyear, readInto, hsetYear]
    rfl
  have hsplit : dashed gap ++ items = .field .year :: (gap ++ .exactly ['-'] :: .field .month ::
      (gap ++ .exactly ['-'] :: .field .day :: items)) := by
    simp only [dashed, List.append_assoc, List.cons_append, List.nil_append]
  rw [hsplit, Date.toList_text_append, readAll_cons (hread _), readAll_gap hgap (by decide), readAll_exactly,
    readAll_number (fun _ _ => rfl) (by omega) hsetMonth, readAll_gap hgap (by decide),
    readAll_exactly, readAll_number (fun _ _ => rfl) (by omega) hsetDay]

end DateItem

/-! ## The clock -/

/-- Hours, minutes and seconds that are read from a text. -/
structure Time.OnClock (hour minute second : Nat) : Prop where
  hour : hour < 24
  minute : minute < 60
  /-- the 60th second is a leap second -/
  second : second ≤ 60

/-- The time of day that is read as these numbers. -/
def Time.ofClock (hour minute second nano : Nat) : Time :=
  if second = 60 then ⟨hour, minute, 59, 1000000000 + nano⟩ else ⟨hour, minute, second, nano⟩

/-- Hours, minutes and seconds as they are written. -/
def Text.clock (hour minute second : Nat) : List Char :=
  (padded 2 hour).toList ++ ':' :: ((padded 2 minute).toList ++ ':' :: (padded 2 second).toList)

namespace Fields

variable {d : Date} {hour minute second : Nat} {nano : Option Nat}

/-- The fields of a date and a time of day, perhaps with a fraction. -/
def ofClock (d : Date) (hour minute second : Nat) (nano : Option Nat) : Fields :=
  { ofDate d with
    halfDay := some (hour / 12), hour := some (hour % 12), minute := some minute,
    second := some second, nano := nano }

theorem date_of_fullYear {f : Fields} (hyear : f.fullYear = .ok (some d.year)) (hmonth : f.month = some d.month)
    (hday : f.day = some d.day) (hd : d.exists?) :
    f.date = if f.weekday.all (· == d.weekday) then .ok d else .error .impossible := by
  have hof : Date.of? d.year d.month d.day = some d := if_pos hd
  simp only [date, hyear, hmonth, hday, ok_bind, hof]

theorem date_ok {f : Fields} (hd : d.exists?) (hyear : f.year = some d.year)
    (hcentury : f.yearOfCentury = none) (hmonth : f.month = some d.month)
    (hday : f.day = some d.day) (hweekday : f.weekday = none) : f.date = .ok d := by
  have hfull : f.fullYear = .ok (some d.year) := by
    rw [fullYear, hyear, hcentury]
  rw [date_of_fullYear hfull hmonth hday hd, hweekday]
  rfl

theorem date_ofDate (hd : d.exists?) : (ofDate d).date = .ok d :=
  date_ok hd rfl rfl rfl rfl rfl

theorem time_ofClock (d : Date) (hour minute second : Nat) (nano : Option Nat) :
    (ofClock d hour minute second nano).time =
      .ok (Time.ofClock hour minute second (nano.getD 0)) := by
  have hhour : hour / 12 * 12 + hour % 12 = hour := Nat.div_add_mod' hour 12
  simp only [time, ofClock, hhour, Option.getD_some]
  rfl

theorem dateTime_ofClock (hd : d.exists?) :
    (ofClock d hour minute second nano).dateTime =
      .ok ⟨d, Time.ofClock hour minute second (nano.getD 0)⟩ := by
  have hdate : (ofClock d hour minute second nano).date = .ok d :=
    date_ok hd rfl rfl rfl rfl rfl
  rw [dateTime, hdate]
  simp only [time_ofClock]
  rfl

end Fields

namespace DateItem

variable {gap : List DateItem} {d : Date} {hour minute second : Nat}

/-- Hours, minutes and seconds with colons between them; `gap` may stand behind hours and
minutes. -/
def clocked (gap : List DateItem) : List DateItem :=
  [.field .hour] ++ gap ++ [.exactly [':'], .field .minute] ++ gap ++
    [.exactly [':'], .field .second]

/-- **The clock is read in front of anything**, behind a date. -/
theorem readAll_clocked (hgap : gap = [] ∨ gap = [.blanks])
    (hclock : Time.OnClock hour minute second) (d : Date) (items : List DateItem)
    (rest : List Char) :
    readAll (Fields.ofDate d) (clocked gap ++ items) (clock hour minute second ++ rest) =
      readAll (Fields.ofClock d hour minute second none) items rest := by
  obtain ⟨hhour, hminute, hsecond⟩ := hclock
  have hsetHour : (Fields.ofDate d).setHour hour =
      .ok { Fields.ofDate d with halfDay := some (hour / 12), hour := some (hour % 12) } := by
    rw [Fields.setHour, Fields.within_ok ⟨Nat.zero_le _, Nat.le_of_lt_succ hhour⟩]
    rfl
  have hsetMinute : Fields.setMinute
      { Fields.ofDate d with halfDay := some (hour / 12), hour := some (hour % 12) } minute =
      .ok { Fields.ofDate d with
        halfDay := some (hour / 12), hour := some (hour % 12), minute := some minute } := by
    rw [Fields.setMinute, Fields.within_ok ⟨Nat.zero_le _, Nat.le_of_lt_succ hminute⟩]
    rfl
  have hsetSecond : Fields.setSecond { Fields.ofDate d with
        halfDay := some (hour / 12), hour := some (hour % 12), minute := some minute } second =
      .ok (Fields.ofClock d hour minute second none) := by
    rw [Fields.setSecond, Fields.within_ok ⟨Nat.zero_le _, hsecond⟩]
    rfl
  have hsplit : clocked gap ++ items = .field .hour :: (gap ++ .exactly [':'] :: .field .minute ::
      (gap ++ .exactly [':'] :: .field .second :: items)) := by
    simp only [clocked, List.append_assoc, List.cons_append, List.nil_append]
  rw [hsplit, clock, List.append_assoc, List.cons_append, List.append_assoc, List.cons_append,
    readAll_number (fun _ _ => rfl) (by omega) hsetHour, readAll_gap hgap (by decide),
    readAll_exactly, readAll_number (fun _ _ => rfl) (by omega) hsetMinute,
    readAll_gap hgap (by decide), readAll_exactly,
    readAll_number (fun _ _ => rfl) (by omega) hsetSecond]

end DateItem

/-! ## The fraction -/

/-- The nanoseconds of a fraction with these digits: nine count. -/
def Text.nanos (digits : List Char) : Nat :=
  Nat.ofDigitChars 10 (digits.take 9) 0 * tenTo (9 - digits.length)

/-- A fraction of a second as it is written, with its nanoseconds: nothing, or a point and
any number of digits. -/
inductive Text.Fraction : List Char → Option Nat → Prop where
  | none : Fraction [] none
  | digits {digits : List Char} : digits ≠ [] → (∀ c ∈ digits, c.isDigit = true) →
      Fraction ('.' :: digits) (some (nanos digits))

theorem Text.nanos_lt {digits : List Char} (h : ∀ c ∈ digits, c.isDigit = true) :
    nanos digits < 1000000000 := by
  have htake : ∀ c ∈ digits.take 9, c.isDigit = true := fun c hc => h c (List.mem_of_mem_take hc)
  have hlt := ofDigitChars_lt htake 0
  rw [Nat.zero_add, Nat.one_mul, List.length_take] at hlt
  have hsplit : min 9 digits.length + (9 - digits.length) = 9 := by omega
  calc nanos digits
      < tenTo (min 9 digits.length) * tenTo (9 - digits.length) :=
        Nat.mul_lt_mul_of_pos_right hlt (tenTo_pos _)
    _ = tenTo 9 := by rw [← tenTo_add, hsplit]
    _ = 1000000000 := rfl

theorem Text.nanos_places {width n : Nat} (hwidth : 0 < width ∧ width ≤ 9) (h : n < tenTo width) :
    nanos (padded width n).toList = n * tenTo (9 - width) := by
  have hlength : (padded width n).toList.length = width := length_padded hwidth.1 h
  have htake : (padded width n).toList.take 9 = (padded width n).toList :=
    List.take_of_length_le (by omega)
  rw [nanos, htake, (writes_padded width n).value, hlength]

theorem Text.nanos_padded {milli : Nat} (h : milli < 1000) :
    nanos (padded 3 milli).toList = milli * 1000000 :=
  nanos_places (by decide) h

/-- A fraction is read to nanoseconds; its further digits are passed over. -/
theorem DateReading.readFractionDigits_eq {digits : List Char} (hne : digits ≠ [])
    (h : ∀ c ∈ digits, c.isDigit = true) : readFractionDigits digits = .ok (nanos digits, []) := by
  have hwrites : Writes (digits.take 9) (Nat.ofDigitChars 10 (digits.take 9) 0) :=
    writes_ofDigitChars (by simpa using hne) fun c hc => h c (List.mem_of_mem_take hc)
  have hrest : (digits.drop 9).dropWhile Char.isDigit = [] :=
    List.dropWhile_eq_nil_iff.mpr fun c hc => h c (List.mem_of_mem_drop hc)
  have hstop : (digits.take 9).length = 9 ∨ ∀ c ∈ (digits.drop 9).head?, c.isDigit = false := by
    rcases Nat.lt_or_ge digits.length 9 with hshort | hlong
    · rw [List.drop_of_length_le (Nat.le_of_lt hshort)]
      exact .inr nofun
    · exact .inl (by rw [List.length_take]; omega)
  have hread := readDigits_writes hwrites (List.length_take_le 9 digits) hstop
  rw [List.take_append_drop] at hread
  have hcount : digits.length - (digits.drop 9).length = min 9 digits.length := by
    rw [List.length_drop]
    omega
  have hscale : 9 - min 9 digits.length = 9 - digits.length := by omega
  rw [readFractionDigits, hread]
  show Except.ok (_ * tenTo (9 - (digits.length - (digits.drop 9).length)), _) = _
  rw [hcount, hscale, hrest]
  rfl

namespace DateItem

variable {d : Date} {hour minute second : Nat} {nano : Option Nat} {fraction : List Char}

theorem readAll_fraction (h : Text.Fraction fraction nano) (d : Date) (hour minute second : Nat)
    (items : List DateItem) :
    readAll (Fields.ofClock d hour minute second none) (.field .fraction :: items) fraction =
      readAll (Fields.ofClock d hour minute second nano) items [] := by
  cases h with
  | none => rfl
  | @digits digits hne hdigit =>
      refine readAll_cons ?_ items
      have hset : (Fields.ofClock d hour minute second none).setNano (nanos digits) =
          .ok (Fields.ofClock d hour minute second (some (nanos digits))) := by
        rw [Fields.setNano, Fields.within_ok ⟨Nat.zero_le _, Nat.le_of_lt_succ (nanos_lt hdigit)⟩]
        rfl
      rw [read, DateField.read, readFractionDigits_eq hne hdigit, readInto, hset]
      rfl

end DateItem

/-! ## Stored dates -/

/-- A moment as it is written: a date, a separator, a clock and a fraction. -/
def DateTime.stamp (d : Date) (separator : Char) (hour minute second : Nat)
    (fraction : List Char) : String :=
  String.ofList (d.text.toList ++ separator :: (clock hour minute second ++ fraction))

/-- What separates the time of day from the date. -/
def Text.IsSeparator (c : Char) : Prop :=
  c = 'T' ∨ c = ' '

namespace DateItem

variable {d : Date} {separator : Char} {hour minute second : Nat} {fraction : List Char}

theorem clock_head (hour minute second : Nat) (rest : List Char) :
    ∃ c text, clock hour minute second ++ rest = c :: text ∧ c.isDigit = true := by
  have hwrites := writes_padded 2 hour
  cases hdigits : (padded 2 hour).toList with
  | nil => exact absurd hdigits hwrites.ne_nil
  | cons c digits =>
      rw [hdigits] at hwrites
      exact ⟨c, _, by rw [clock, hdigits]; rfl, hwrites.isDigit c List.mem_cons_self⟩

theorem readAll_space (fields : Fields) (items : List DateItem) (hour minute second : Nat)
    (rest : List Char) :
    readAll fields (.blanks :: items) (' ' :: (clock hour minute second ++ rest)) =
      readAll fields items (clock hour minute second ++ rest) := by
  refine readAll_cons ?_ items
  obtain ⟨c, text, hhead, hdigit⟩ := clock_head hour minute second rest
  have hblank : trimLeft (' ' :: c :: text) = trimLeft (c :: text) :=
    List.dropWhile_cons_of_pos (by decide)
  rw [read, hhead, hblank, trimLeft_of_not_blank (isBlank_of_isDigit hdigit)]

theorem readAll_storedDate_stamp (hd : d.exists?) (hseparator : IsSeparator separator)
    (hour minute second : Nat) (fraction : List Char) :
    ∃ fault, readAll {} storedDate
      (DateTime.stamp d separator hour minute second fraction).toList = .error fault := by
  have hitems : storedDate = dashed [.blanks] ++ [.blanks] := rfl
  rw [hitems, DateTime.stamp, String.toList_ofList, readAll_dashed (.inr rfl) hd]
  rcases hseparator with rfl | rfl
  · exact ⟨.tooLong, rfl⟩
  · obtain ⟨c, text, hhead, _⟩ := clock_head hour minute second fraction
    rw [readAll_space, hhead]
    exact ⟨.tooLong, rfl⟩

end DateItem

section Stored

variable {d : Date} {separator : Char} {hour minute second : Nat} {nano : Option Nat}
  {fraction : List Char}

/-- **A stored moment is read back**, in both forms. -/
theorem DateTime.ofStored?_stamp (hd : d.exists?) (hseparator : IsSeparator separator)
    (hclock : Time.OnClock hour minute second) (hfraction : Fraction fraction nano) :
    ofStored? (stamp d separator hour minute second fraction) =
      some ⟨d, Time.ofClock hour minute second (nano.getD 0)⟩ := by
  have hstored : DateItem.storedDateTime = DateItem.dashed [.blanks] ++ .blanks ::
      .exactly ['T'] :: (DateItem.clocked [.blanks] ++ [.field .fraction, .blanks]) := rfl
  have hspaced : DateItem.spacedDateTime = DateItem.dashed [] ++ .blanks ::
      (DateItem.clocked [] ++ [.field .fraction]) := rfl
  rcases hseparator with rfl | rfl
  · have hread : DateItem.readAll {} DateItem.storedDateTime
        (stamp d 'T' hour minute second fraction).toList =
        .ok (Fields.ofClock d hour minute second nano) := by
      rw [hstored, stamp, String.toList_ofList, DateItem.readAll_dashed (.inr rfl) hd,
        ← List.singleton_append, DateItem.readAll_gap (.inr rfl) (by decide), DateItem.readAll_exactly,
        DateItem.readAll_clocked (.inr rfl) hclock, DateItem.readAll_fraction hfraction]
      rfl
    simp only [ofStored?, hread, Fields.dateTime_ofClock hd]
    rfl
  · -- the form with `T` passes over the blank, and ends at the first digit of the hour
    have hfirst : ∃ fault, DateItem.readAll {} DateItem.storedDateTime
        (stamp d ' ' hour minute second fraction).toList = .error fault := by
      obtain ⟨c, text, hhead, hdigit⟩ := DateItem.clock_head hour minute second fraction
      have hc : c ≠ 'T' := by
        rintro rfl
        cases hdigit
      rw [hstored, stamp, String.toList_ofList, DateItem.readAll_dashed (.inr rfl) hd,
        DateItem.readAll_space, hhead]
      exact DateItem.readAll_exactly_ne hc _ _ _
    have hread : DateItem.readAll {} DateItem.spacedDateTime
        (stamp d ' ' hour minute second fraction).toList =
        .ok (Fields.ofClock d hour minute second nano) := by
      rw [hspaced, stamp, String.toList_ofList, DateItem.readAll_dashed (.inl rfl) hd,
        DateItem.readAll_space, DateItem.readAll_clocked (.inl rfl) hclock,
        DateItem.readAll_fraction hfraction]
      rfl
    obtain ⟨fault, hfirst⟩ := hfirst
    simp only [ofStored?, hfirst, hread, Fields.dateTime_ofClock hd]
    rfl

/-- **A stored date is read back.** -/
theorem Date.ofStored?_text (hd : d.exists?) : ofStored? d.text = some d := by
  have hread : DateItem.readAll {} DateItem.storedDate d.text.toList = .ok (Fields.ofDate d) := by
    have hitems : DateItem.storedDate = DateItem.dashed [.blanks] ++ [.blanks] := rfl
    rw [hitems, ← List.append_nil d.text.toList, DateItem.readAll_dashed (.inr rfl) hd]
    rfl
  simp only [ofStored?, hread, Fields.date_ofDate hd]
  rfl

theorem Date.ofStored?_stamp (hd : d.exists?) (hseparator : IsSeparator separator)
    (hclock : Time.OnClock hour minute second) (hfraction : Fraction fraction nano) :
    ofStored? (DateTime.stamp d separator hour minute second fraction) = some d := by
  obtain ⟨fault, hfault⟩ :=
    DateItem.readAll_storedDate_stamp hd hseparator hour minute second fraction
  simp only [ofStored?, hfault, DateTime.ofStored?_stamp hd hseparator hclock hfraction]
  rfl

end Stored

/-! ## Arguments -/

namespace DateReading

theorem length_le_byteSize (text : List Char) : text.length ≤ byteSize text := by
  induction text with
  | nil => exact Nat.le_refl 0
  | cons c text ih =>
      rw [List.length_cons, Nat.add_comm]
      exact Nat.add_le_add (Char.utf8Size_pos c) ih

theorem not_byteSize_lt {count : Nat} {text : List Char} (h : count ≤ text.length)
    (rest : List Char) : ¬ byteSize (text ++ rest) < count := by
  have hle := length_le_byteSize (text ++ rest)
  rw [List.length_append] at hle
  omega

theorem readPlaces_padded {count n : Nat} (hcount : 0 < count) (h : n < tenTo count)
    (rest : List Char) : readPlaces count ((padded count n).toList ++ rest) = .ok (n, rest) := by
  obtain ⟨_, hdigit, hvalue⟩ := writes_padded count n
  have hlength := length_padded hcount h
  have hsize := not_byteSize_lt (Nat.le_of_eq hlength.symm) rest
  have htake : ((padded count n).toList ++ rest).take count = (padded count n).toList :=
    List.take_left' hlength
  have hdrop : ((padded count n).toList ++ rest).drop count = rest := List.drop_left' hlength
  have hdigits : (padded count n).toList.takeWhile Char.isDigit = (padded count n).toList :=
    List.takeWhile_eq_self_iff.mpr hdigit
  simp only [readPlaces, if_neg hsize]
  rw [htake, hdigits, if_neg (by omega), foldl_digits, hvalue, hdrop]

end DateReading

namespace DateFormat

variable {d : Date} {hour minute second milli : Nat}

theorem fields_stamp (hd : d.exists?) (hclock : Time.OnClock hour minute second)
    (hmilli : milli < 1000) :
    standard.fields (DateTime.stamp d ' ' hour minute second ('.' :: (padded 3 milli).toList)) =
      .ok (Fields.ofClock d hour minute second (some (milli * 1000000))) := by
  have hitems : DateItem.ofElements standard.elements = DateItem.dashed [] ++ .blanks ::
      (DateItem.clocked [] ++ [.exactly ['.'], .field (.places 3)]) := by decide
  have hset : (Fields.ofClock d hour minute second none).setNano (milli * tenTo (9 - 3)) =
      .ok (Fields.ofClock d hour minute second (some (milli * 1000000))) := by
    have hscale : tenTo (9 - 3) = 1000000 := rfl
    rw [hscale, Fields.setNano, Fields.within_ok (by omega)]
    rfl
  have hread : (DateItem.field (.places 3)).read (Fields.ofClock d hour minute second none)
      (padded 3 milli).toList =
      .ok (Fields.ofClock d hour minute second (some (milli * 1000000)), []) := by
    have hplaces : readPlaces 3 ((padded 3 milli).toList ++ []) = .ok (milli, []) :=
      readPlaces_padded (by decide) hmilli []
    rw [List.append_nil] at hplaces
    rw [DateItem.read, DateField.read, hplaces, readInto, hset]
    rfl
  rw [fields, hitems, DateTime.stamp, String.toList_ofList, DateItem.readAll_dashed (.inl rfl) hd,
    DateItem.readAll_space, DateItem.readAll_clocked (.inl rfl) hclock, DateItem.readAll_exactly,
    DateItem.readAll_cons hread]
  rfl

theorem readDate_eq {f : DateFormat} {text : String} {fields : Fields} (h : f.fields text = .ok fields) :
    f.readDate text = fields.date.map f.thisCentury := by
  simp only [readDate, h, ok_bind]
  cases fields.date <;> rfl

theorem readDateTime_eq {f : DateFormat} {text : String} {fields : Fields} {t : Time}
    (h : f.fields text = .ok fields) (hdate : fields.date = .ok d) (htime : fields.time = .ok t) :
    f.readDateTime text = .ok ⟨f.thisCentury d, t⟩ := by
  simp only [readDateTime, Fields.dateTime, h, hdate, htime, ok_bind]
  rfl

/-- **An argument is read back**, to the millisecond. -/
theorem readDateTime_stamp (hd : d.exists?) (hclock : Time.OnClock hour minute second)
    (hmilli : milli < 1000) :
    standard.readDateTime
        (DateTime.stamp d ' ' hour minute second ('.' :: (padded 3 milli).toList)) =
      .ok ⟨d, Time.ofClock hour minute second (milli * 1000000)⟩ :=
  readDateTime_eq (fields_stamp hd hclock hmilli) (Fields.date_ok hd rfl rfl rfl rfl rfl)
    (Fields.time_ofClock ..)

/-- Of an argument for a date, the time of day is dropped. -/
theorem readDate_stamp (hd : d.exists?) (hclock : Time.OnClock hour minute second)
    (hmilli : milli < 1000) :
    standard.readDate
        (DateTime.stamp d ' ' hour minute second ('.' :: (padded 3 milli).toList)) = .ok d := by
  rw [readDate_eq (fields_stamp hd hclock hmilli), Fields.date_ok hd rfl rfl rfl rfl rfl]
  rfl

end DateFormat

end RecordFilter
