/-
# `Proofs.DateFormat.Century` — years of two digits

The last two digits of a year are read in two steps.  At first those from 70 belong to the
century before this one, and the fields are checked against each other for the date of
that year; then a date before 2000 is moved a hundred years on.  `Date.shortened` is the
date of the first step:

    it exists, since its year has a leap day just where the other has    (`exists_shortened`)
    it is moved to the date that was written                   (`thisCentury_shortened`)
    it falls on another day of the week                        (`weekday_shortened`)

The last one is where the two steps do not fit together: a hundred years with 2000 among them
are 36525 days, one less than 5218 weeks.

A format with one year, of two digits or of four (`DateField.ofYear`), has the date of its
fields in both cases (`Fields.date_of_year`), and moves it to the date that was written
(`DateFormat.thisCentury_unmoved`).
-/
import RecordFilter.Proofs.Calendar.Writing

namespace RecordFilter

namespace Date

/-- The date that the last two digits of its year stand for at first. -/
def shortened (d : Date) : Date :=
  if d.year < 2070 then d else ⟨d.year - 100, d.month, d.day⟩

/-- A year of this century. -/
def InThisCentury (d : Date) : Prop :=
  2000 ≤ d.year ∧ d.year ≤ 2099

variable {d : Date}

theorem shortened_early (h : d.year < 2070) : d.shortened = d :=
  if_pos h

theorem shortened_late (h : 2070 ≤ d.year) : d.shortened = ⟨d.year - 100, d.month, d.day⟩ :=
  if_neg (Int.not_lt.mpr h)

@[simp]
theorem month_shortened (d : Date) : d.shortened.month = d.month := by
  rw [shortened]
  split <;> rfl

@[simp]
theorem day_shortened (d : Date) : d.shortened.day = d.day := by
  rw [shortened]
  split <;> rfl

theorem daysInMonth_hundred {year : Int} (h : 2070 ≤ year ∧ year ≤ 2099) (month : Nat) :
    daysInMonth (year - 100) month = daysInMonth year month := by
  have hleap : isLeapYear (year - 100) = isLeapYear year := by
    rw [Bool.eq_iff_iff]
    simp only [isLeapYear, Bool.and_eq_true, Bool.or_eq_true, beq_iff_eq, bne_iff_ne]
    omega
  simp only [daysInMonth, hleap]

theorem exists_hundred_iff {year : Int} (h : 2070 ≤ year ∧ year ≤ 2099) (month day : Nat) :
    exists? ⟨year - 100, month, day⟩ = exists? ⟨year, month, day⟩ := by
  rw [Bool.eq_iff_iff]
  simp only [exists?, Bool.and_eq_true, decide_eq_true_eq, daysInMonth_hundred h]
  simp only [firstYear, lastYear]
  omega

theorem exists_shortened (hd : d.exists?) (h : d.InThisCentury) : d.shortened.exists? := by
  rcases Int.lt_or_le d.year 2070 with hearly | hlate
  · rwa [shortened_early hearly]
  · rw [shortened_late hlate, exists_hundred_iff ⟨hlate, h.2⟩]
    exact hd

/-- **A hundred years before, the day of the week is the next one.** -/
theorem weekday_shortened (h : d.InThisCentury) (hlate : 2070 ≤ d.year) :
    d.shortened.weekday = (d.weekday + 1) % 7 := by
  obtain ⟨_, hlast⟩ := h
  have hdays : d.shortened.dayNumber = d.dayNumber - 36525 := by
    rw [shortened_late hlate]
    simp only [dayNumber]
    split <;> omega
  rw [weekday, weekday, hdays]
  omega

theorem of_of?_eq_some {year : Int} {month day : Nat} (h : of? year month day = some d) :
    d = ⟨year, month, day⟩ ∧ d.exists? := by
  by_cases hexists : exists? ⟨year, month, day⟩
  · rw [of?, if_pos hexists] at h
    cases h
    exact ⟨rfl, hexists⟩
  · rw [of?, if_neg hexists] at h
    cases h

end Date

namespace DateFormat

variable {f : DateFormat} {d : Date}

theorem thisCentury_of_full (h : f.hasShortYear = false) (d : Date) : f.thisCentury d = d := by
  simp [thisCentury, h]

theorem thisCentury_of_late (h : 2000 ≤ d.year) : f.thisCentury d = d := by
  have hyear : ¬ d.year < 2000 := Int.not_lt.mpr h
  simp [thisCentury, hyear]

theorem thisCentury_of_early (hf : f.hasShortYear = true) (hd : d.exists?)
    (h : 1970 ≤ d.year ∧ d.year < 2000) :
    f.thisCentury d = ⟨d.year + 100, d.month, d.day⟩ := by
  have hexists : Date.exists? ⟨d.year + 100, d.month, d.day⟩ := by
    rw [← Date.exists_hundred_iff (by omega), Int.add_sub_cancel]
    exact hd
  have hmoved : d.inYear? (d.year + 100) = some ⟨d.year + 100, d.month, d.day⟩ := if_pos hexists
  simp [thisCentury, hf, h.2, hmoved]

/-- **A shortened date is moved to the date that it was.** -/
theorem thisCentury_shortened (hf : f.hasShortYear = true) (hd : d.exists?)
    (h : d.InThisCentury) : f.thisCentury d.shortened = d := by
  have hexists := Date.exists_shortened hd h
  rcases Int.lt_or_le d.year 2070 with hearly | hlate
  · rw [Date.shortened_early hearly, thisCentury_of_late h.1]
  · have hlast := h.2
    rw [Date.shortened_late hlate] at hexists ⊢
    rw [thisCentury_of_early hf hexists (by constructor <;> simp only <;> omega)]
    simp

/-- The other way around, a date that is read from two digits is the shortened one of what
comes of it. -/
theorem shortened_thisCentury (hf : f.hasShortYear = true) (hd : d.exists?)
    (h : 1970 ≤ d.year ∧ d.year < 2070) :
    (f.thisCentury d).shortened = d ∧ (f.thisCentury d).InThisCentury := by
  obtain ⟨hfirst, hlast⟩ := h
  rcases Int.lt_or_le d.year 2000 with hearly | hlate
  · rw [thisCentury_of_early hf hd ⟨hfirst, hearly⟩, Date.shortened_late (by simp only; omega)]
    constructor
    · simp
    · constructor <;> simp only <;> omega
  · rw [thisCentury_of_late hlate, Date.shortened_early hlast]
    exact ⟨rfl, hlate, by omega⟩

end DateFormat

/-! ## Dates from fields -/

namespace Fields

variable {f : Fields} {d : Date}

theorem of_date_eq_ok (h : f.date = .ok d) :
    f.fullYear = .ok (some d.year) ∧ d.exists? ∧ f.weekday.all (· == d.weekday) := by
  obtain ⟨year, hyear, hdate⟩ := bind_eq_ok_iff.mp h
  split at hdate
  · next year month day _ _ =>
      split at hdate
      · cases hdate
      · next found hfound =>
          split at hdate
          · next hweekday =>
              cases hdate
              obtain ⟨rfl, hexists⟩ := Date.of_of?_eq_some hfound
              exact ⟨hyear, hexists, hweekday⟩
          · cases hdate
  · cases hdate

theorem fullYear_of_short {n : Nat} (hnone : f.year = none) (hshort : f.yearOfCentury = some n) :
    f.fullYear = .ok (some (if n < 70 then 2000 + n else 1900 + n)) := by
  rw [fullYear, hnone, hshort]

/-- Two digits of a year stand for one of the hundred years from 1970 at first. -/
theorem year_of_short {year : Int} (hnone : f.year = none)
    (hle : ∀ n, f.yearOfCentury = some n → n ≤ 99) (h : f.fullYear = .ok (some year)) :
    1970 ≤ year ∧ year < 2070 := by
  cases hshort : f.yearOfCentury with
  | none =>
      rw [fullYear, hnone, hshort] at h
      cases h
  | some n =>
      have hn := hle n hshort
      rw [fullYear_of_short hnone hshort] at h
      cases h
      split <;> omega

theorem fullYear_shortened (hnone : f.year = none)
    (hshort : f.yearOfCentury = some (d.year % 100).toNat) (h : d.InThisCentury) :
    f.fullYear = .ok (some d.shortened.year) := by
  obtain ⟨hfirst, hlast⟩ := h
  have hyear : (if (d.year % 100).toNat < 70 then 2000 + ((d.year % 100).toNat : Int)
      else 1900 + ((d.year % 100).toNat : Int)) = d.shortened.year := by
    rcases Int.lt_or_le d.year 2070 with hearly | hlate
    · rw [Date.shortened_early hearly, if_pos (by omega)]
      omega
    · rw [Date.shortened_late hlate, if_neg (by omega)]
      show _ = d.year - 100
      omega
  rw [fullYear_of_short hnone hshort, hyear]

end Fields

/-! ## Years of two digits or of four -/

/-- The year, of two digits or of four. -/
def DateField.ofYear (short : Bool) : DateField :=
  if short then .shortYear else .year

/-- The years that are written by the last two digits, or by four. -/
def DateField.SpansYear (short : Bool) (year : Int) : Prop :=
  if short then 2000 ≤ year ∧ year ≤ 2099 else 0 ≤ year ∧ year ≤ 9999

/-- The date that the fields come to, before it is moved to this century. -/
def Date.unmoved (short : Bool) (d : Date) : Date :=
  if short then d.shortened else d

section EitherYear

variable {short : Bool} {d : Date} {m : DateTime}

/-- From 2070 on, two digits stand for a date on the next day of the week. -/
theorem Date.weekday_unmoved (h : short = true → d.InThisCentury) :
    (d.unmoved short).weekday =
      if short = true ∧ 2070 ≤ d.year then (d.weekday + 1) % 7 else d.weekday := by
  cases short with
  | false => rfl
  | true =>
      show d.shortened.weekday = _
      rcases Int.lt_or_le d.year 2070 with hearly | hlate
      · rw [shortened_early hearly, if_neg fun hlate => Int.not_lt.mpr hlate.2 hearly]
      · rw [weekday_shortened (h rfl) hlate, if_pos ⟨rfl, hlate⟩]

theorem DateField.SpansYear.common (h : SpansYear short d.year) : 0 ≤ d.year ∧ d.year ≤ 9999 := by
  cases short with
  | false => exact h
  | true =>
      obtain ⟨hfirst, hlast⟩ : 2000 ≤ d.year ∧ d.year ≤ 2099 := h
      omega

/-- **The fields of a date and its year come to the date before it is moved**, if the day of the week
is the one of that date. -/
theorem Fields.date_of_year {f : Fields} (hd : d.exists?) (hspan : DateField.SpansYear short d.year)
    (hyear : f.year = if short then none else some d.year)
    (hshort : f.yearOfCentury = if short then some (d.year % 100).toNat else none)
    (hmonth : f.month = some d.month) (hday : f.day = some d.day) :
    f.date = if f.weekday.all (· == (d.unmoved short).weekday) then .ok (d.unmoved short)
      else .error .impossible := by
  cases short with
  | false =>
      have hfull : f.fullYear = .ok (some d.year) := by rw [fullYear, hyear, hshort]; rfl
      exact date_of_fullYear hfull hmonth hday hd
  | true =>
      have hfull : f.fullYear = .ok (some d.shortened.year) := fullYear_shortened hyear hshort hspan
      rw [← d.month_shortened] at hmonth
      rw [← d.day_shortened] at hday
      exact date_of_fullYear hfull hmonth hday (Date.exists_shortened hd hspan)

namespace DateFormat

variable {f : DateFormat} {gs : List DateField}

/-- **A format with one year moves its dates to those that were written.** -/
theorem thisCentury_unmoved (hf : f.hasShortYear = short) (hd : d.exists?)
    (hspan : DateField.SpansYear short d.year) : f.thisCentury (d.unmoved short) = d := by
  cases short with
  | false => exact thisCentury_of_full hf d
  | true => exact thisCentury_shortened hf hd hspan

theorem hasShortYear_of_perm (hperm : f.fieldList.Perm gs) :
    f.hasShortYear = gs.contains .shortYear := by
  rw [Bool.eq_iff_iff, hasShortYear_iff, hperm.mem_iff, List.contains_iff_mem]

end DateFormat

end EitherYear

end RecordFilter
