/-
# `Proofs.Calendar.Order` — the order of dates is that of the days

Dates are compared field by field: year, month, day.  Days follow each other in a row,
and `Date.dayNumber` is the place in that row: the calendar's next day has the next
number (`Date.dayNumber_next`).  That the two agree is a fact about the calendar, since
a longer month must not reach into the one behind it:

    a month begins where the one before it ends                (`monthStart_succ`)
    dates compare as their numbers do                          (`Date.compare_eq`)
    moments compare as the nanoseconds since day 0 do          (`DateTime.compare_eq`)

Months are counted in one row as well, from January of the year 0, so that years need
no case of their own.
-/
import Mathlib.Tactic.IntervalCases
import RecordFilter.Calendar.Date

namespace RecordFilter

/-! ## Comparisons as comparisons of numbers -/

/-- What is compared compares as two numbers do, if these are as they should be in each
case. -/
theorem eq_compare {o : Ordering} {m n : Int} (hlt : o = .lt → m < n) (hgt : o = .gt → n < m)
    (heq : o = .eq → m = n) : o = Ord.compare m n := by
  cases o with
  | lt => exact (Int.compare_eq_lt.mpr (hlt rfl)).symm
  | gt => exact (Int.compare_eq_gt.mpr (hgt rfl)).symm
  | eq => exact (Int.compare_eq_eq.mpr (heq rfl)).symm

theorem then_eq_compare {first second : Ordering} {m n : Int} (hlt : first = .lt → m < n)
    (hgt : first = .gt → n < m) (heq : first = .eq → second = Ord.compare m n) :
    first.then second = Ord.compare m n := by
  cases first with
  | lt => exact (Int.compare_eq_lt.mpr (hlt rfl)).symm
  | gt => exact (Int.compare_eq_gt.mpr (hgt rfl)).symm
  | eq => exact heq rfl

namespace Date

/-! ## Months in a row -/

/-- The number of a month when months are counted from January of the year 0. -/
def monthIndex (year : Int) (month : Nat) : Int :=
  12 * year + month - 1

/-- The number of the first of March of a year. -/
def yearStart (year : Int) : Int :=
  365 * year + year / 4 - year / 100 + year / 400

/-- The number of the first day of a month.  Counted from a March, months are 31 and 30
days long in turn, but for two of 31 side by side where five months are over. -/
def monthStart (index : Int) : Int :=
  yearStart ((index - 2) / 12) + (153 * ((index - 2) % 12) + 2) / 5

variable {month : Nat}

/-- January and February belong to the year that began in the March before them. -/
theorem march_early (year : Int) (h : 1 ≤ month ∧ month ≤ 2) :
    (monthIndex year month - 2) / 12 = year - 1 ∧
      (monthIndex year month - 2) % 12 = ((month + 9) % 12 : Nat) := by
  simp only [monthIndex]
  omega

theorem march_late (year : Int) (h : 2 < month ∧ month ≤ 12) :
    (monthIndex year month - 2) / 12 = year ∧
      (monthIndex year month - 2) % 12 = ((month + 9) % 12 : Nat) := by
  simp only [monthIndex]
  omega

theorem dayNumber_eq {year : Int} (h : 1 ≤ month ∧ month ≤ 12) (day : Nat) :
    dayNumber ⟨year, month, day⟩ = monthStart (monthIndex year month) + day - 1 := by
  obtain ⟨hfirst, hlast⟩ := h
  simp only [dayNumber, monthStart]
  split
  · next hearly =>
      obtain ⟨hyear, hmonth⟩ := march_early year ⟨hfirst, hearly⟩
      rw [hyear, hmonth, yearStart]
      omega
  · next hlate =>
      obtain ⟨hyear, hmonth⟩ := march_late year ⟨Nat.lt_of_not_le hlate, hlast⟩
      rw [hyear, hmonth, yearStart]
      omega

/-- A year that begins in March has its leap day at the end, where the year by number is
the next one. -/
theorem yearStart_pred (year : Int) :
    yearStart year = yearStart (year - 1) + (if isLeapYear year then 366 else 365) := by
  have hleap : isLeapYear year = true ↔ year % 4 = 0 ∧ (year % 100 ≠ 0 ∨ year % 400 = 0) := by
    simp only [isLeapYear, Bool.and_eq_true, Bool.or_eq_true, beq_iff_eq, bne_iff_ne]
  simp only [yearStart, hleap]
  split <;> omega

/-- February ends where its year, begun in March, does. -/
theorem daysInMonth_february (year : Int) :
    (daysInMonth year 2 : Int) = yearStart year - yearStart (year - 1) - 337 := by
  rw [yearStart_pred, daysInMonth]
  split <;> omega

theorem daysInMonth_pos (year : Int) (h : 1 ≤ month ∧ month ≤ 12) :
    0 < daysInMonth year month := by
  obtain ⟨hfirst, hlast⟩ := h
  interval_cases month <;> simp only [daysInMonth] <;> try omega
  split <;> omega

theorem daysInMonth_le (year : Int) (month : Nat) : daysInMonth year month ≤ 31 := by
  unfold daysInMonth
  split
  all_goals try omega
  split <;> omega

/-- **A month begins where the one before it ends.** -/
theorem monthStart_succ (year : Int) (h : 1 ≤ month ∧ month ≤ 12) :
    monthStart (monthIndex year month + 1) =
      monthStart (monthIndex year month) + daysInMonth year month := by
  obtain ⟨hfirst, hlast⟩ := h
  by_cases hfebruary : month = 2
  · subst hfebruary
    rw [daysInMonth_february]
    simp only [monthStart, monthIndex, yearStart]
    omega
  · -- no other month is the last of a year that begins in March
    have hyear : (monthIndex year month + 1 - 2) / 12 = (monthIndex year month - 2) / 12 := by
      simp only [monthIndex]
      omega
    have hmonth : (monthIndex year month + 1 - 2) % 12 = ((month + 9) % 12 : Nat) + 1 ∧
        (monthIndex year month - 2) % 12 = ((month + 9) % 12 : Nat) := by
      simp only [monthIndex]
      omega
    rw [monthStart, monthStart, hyear, hmonth.1, hmonth.2, Int.add_assoc]
    clear hyear hmonth
    refine congrArg (yearStart ((monthIndex year month - 2) / 12) + ·) ?_
    interval_cases month <;> first | exact absurd rfl hfebruary | rfl

theorem monthStart_lt_succ (index : Int) : monthStart index < monthStart (index + 1) := by
  let year := index / 12
  let month := (index % 12).toNat + 1
  have hmonth : 1 ≤ month ∧ month ≤ 12 := by omega
  have hindex : monthIndex year month = index := by
    simp only [monthIndex]
    omega
  have hstart := monthStart_succ year hmonth
  have hdays := daysInMonth_pos year hmonth
  rw [hindex] at hstart
  omega

theorem monthStart_le {i j : Int} (h : i ≤ j) : monthStart i ≤ monthStart j := by
  obtain ⟨n, rfl⟩ := Int.le.dest h
  clear h
  induction n with
  | zero => exact Int.le_of_eq (congrArg monthStart (Int.add_zero i).symm)
  | succ n ih =>
      have hnext := monthStart_lt_succ (i + n)
      have hindex : i + (n + 1 : Nat) = i + n + 1 := by omega
      rw [hindex]
      omega

/-! ## Days in a row -/

variable {d a b : Date}

theorem year_of_exists (h : d.exists?) : firstYear ≤ d.year ∧ d.year ≤ lastYear := by
  simp only [exists?, Bool.and_eq_true, decide_eq_true_eq] at h
  exact h.1.1

theorem month_of_exists (h : d.exists?) : 1 ≤ d.month ∧ d.month ≤ 12 := by
  simp only [exists?, Bool.and_eq_true, decide_eq_true_eq] at h
  obtain ⟨⟨_, hday⟩, hlast⟩ := h
  unfold daysInMonth at hlast
  split at hlast <;> omega

theorem day_of_exists (h : d.exists?) : 1 ≤ d.day ∧ d.day ≤ daysInMonth d.year d.month := by
  simp only [exists?, Bool.and_eq_true, decide_eq_true_eq] at h
  exact ⟨h.1.2, h.2⟩

theorem dayNumber_of_exists (h : d.exists?) :
    d.dayNumber = monthStart (monthIndex d.year d.month) + d.day - 1 :=
  dayNumber_eq (month_of_exists h) d.day

/-- The day behind a date in the calendar. -/
def next (d : Date) : Date :=
  if d.day < daysInMonth d.year d.month then ⟨d.year, d.month, d.day + 1⟩
  else if d.month < 12 then ⟨d.year, d.month + 1, 1⟩
  else ⟨d.year + 1, 1, 1⟩

/-- **The next day has the next number.** -/
theorem dayNumber_next (h : d.exists?) : d.next.dayNumber = d.dayNumber + 1 := by
  have hmonth := month_of_exists h
  have hlast := (day_of_exists h).2
  have hsucc := monthStart_succ d.year hmonth
  rw [dayNumber_of_exists h, next]
  split
  · rw [dayNumber_eq hmonth]
    omega
  · split
    · next hbefore =>
        have hindex : monthIndex d.year (d.month + 1) = monthIndex d.year d.month + 1 := by
          simp only [monthIndex]
          omega
        rw [dayNumber_eq ⟨Nat.le_add_left 1 _, hbefore⟩, hindex]
        omega
    · next hdecember =>
        have hindex : monthIndex (d.year + 1) 1 = monthIndex d.year d.month + 1 := by
          simp only [monthIndex]
          omega
        rw [dayNumber_eq ⟨Nat.le_refl 1, by decide⟩, hindex]
        omega

theorem dayNumber_lt_of_monthIndex_lt (ha : a.exists?) (hb : b.exists?)
    (h : monthIndex a.year a.month < monthIndex b.year b.month) : a.dayNumber < b.dayNumber := by
  have hstart := monthStart_le (Int.add_one_le_of_lt h)
  have hlast := (day_of_exists ha).2
  have hfirst := (day_of_exists hb).1
  rw [monthStart_succ a.year (month_of_exists ha)] at hstart
  rw [dayNumber_of_exists ha, dayNumber_of_exists hb]
  omega

/-- **Dates compare as their numbers do.** -/
theorem compare_eq (ha : a.exists?) (hb : b.exists?) :
    a.compare b = Ord.compare a.dayNumber b.dayNumber := by
  have hmontha := month_of_exists ha
  have hmonthb := month_of_exists hb
  have hearlier := dayNumber_lt_of_monthIndex_lt ha hb
  have hlater := dayNumber_lt_of_monthIndex_lt hb ha
  simp only [monthIndex] at hearlier hlater
  refine then_eq_compare (fun hyear => ?_) (fun hyear => ?_) fun hyear =>
    then_eq_compare (fun hmonth => ?_) (fun hmonth => ?_) fun hmonth => ?_
  · rw [Int.compare_eq_lt] at hyear
    exact hearlier (by omega)
  · rw [Int.compare_eq_gt] at hyear
    exact hlater (by omega)
  · rw [Int.compare_eq_eq] at hyear
    rw [Nat.compare_eq_lt] at hmonth
    exact hearlier (by omega)
  · rw [Int.compare_eq_eq] at hyear
    rw [Nat.compare_eq_gt] at hmonth
    exact hlater (by omega)
  · rw [Int.compare_eq_eq] at hyear
    rw [Nat.compare_eq_eq] at hmonth
    rw [dayNumber_of_exists ha, dayNumber_of_exists hb, hyear, hmonth]
    refine eq_compare (fun hday => ?_) (fun hday => ?_) fun hday => ?_
    · rw [Nat.compare_eq_lt] at hday
      omega
    · rw [Nat.compare_eq_gt] at hday
      omega
    · rw [Nat.compare_eq_eq] at hday
      omega

end Date

/-! ## Moments in a row -/

/-- A time of day that is on the clock, outside of leap seconds. -/
structure Time.Regular (t : Time) : Prop where
  hour : t.hour < 24
  minute : t.minute < 60
  second : t.second < 60
  nano : t.nano < 1000000000

/-- The nanoseconds since midnight. -/
def Time.sinceMidnight (t : Time) : Nat :=
  ((t.hour * 60 + t.minute) * 60 + t.second) * 1000000000 + t.nano

theorem Time.Regular.sinceMidnight_lt {t : Time} (h : t.Regular) :
    t.sinceMidnight < 86400000000000 := by
  obtain ⟨hhour, hminute, hsecond, hnano⟩ := h
  rw [Time.sinceMidnight]
  omega

theorem Time.compare_eq {a b : Time} (ha : a.Regular) (hb : b.Regular) :
    a.compare b = Ord.compare (a.sinceMidnight : Int) b.sinceMidnight := by
  obtain ⟨_, hminutea, hseconda, hnanoa⟩ := ha
  obtain ⟨_, hminuteb, hsecondb, hnanob⟩ := hb
  simp only [Time.sinceMidnight]
  refine then_eq_compare ?_ ?_ fun hhour =>
    then_eq_compare ?_ ?_ fun hminute =>
      then_eq_compare ?_ ?_ fun hsecond => eq_compare ?_ ?_ ?_
  all_goals simp only [Nat.compare_eq_lt, Nat.compare_eq_gt, Nat.compare_eq_eq] at *
  all_goals omega

/-- A moment of an existing date, outside of leap seconds. -/
structure DateTime.Regular (m : DateTime) : Prop where
  date : m.date.exists?
  time : m.time.Regular

/-- The nanoseconds from the beginning of day 0. -/
def DateTime.instant (m : DateTime) : Int :=
  m.date.dayNumber * 86400000000000 + m.time.sinceMidnight

/-- **Moments compare as the nanoseconds since day 0 do.** -/
theorem DateTime.compare_eq {a b : DateTime} (ha : a.Regular) (hb : b.Regular) :
    a.compare b = Ord.compare a.instant b.instant := by
  have htimea := ha.time.sinceMidnight_lt
  have htimeb := hb.time.sinceMidnight_lt
  rw [DateTime.compare, Date.compare_eq ha.date hb.date, Time.compare_eq ha.time hb.time]
  simp only [DateTime.instant]
  refine then_eq_compare (fun hday => ?_) (fun hday => ?_) fun hday =>
    eq_compare (fun htime => ?_) (fun htime => ?_) fun htime => ?_
  all_goals simp only [Int.compare_eq_lt, Int.compare_eq_gt, Int.compare_eq_eq] at *
  all_goals omega

end RecordFilter
