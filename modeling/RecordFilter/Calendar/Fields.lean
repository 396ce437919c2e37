/-
# Fields of a date

Dates and times gathered field by field, and what they come to.

Each field can be set once; setting it again to the same value is no fault. `Fields.date` and
`Fields.dateTime` make the date or the moment that the fields describe, if they describe just one.
-/
import RecordFilter.Calendar.Date
import RecordFilter.Number.Power

namespace RecordFilter

/-- Why a text is not a date of the wanted form. -/
inductive DateFault where
  /-- the text ends where more is wanted -/
  | tooShort
  /-- a character that cannot stand where it stands -/
  | invalid
  /-- more text behind the date -/
  | tooLong
  /-- a field beyond its bounds, or a day that does not exist -/
  | outOfRange
  /-- fields that contradict each other -/
  | impossible
  /-- too few fields -/
  | notEnough
deriving DecidableEq

def DateFault.message : DateFault → String
  | tooShort => "premature end of input"
  | invalid => "input contains invalid characters"
  | tooLong => "trailing input"
  | outOfRange => "input is out of range"
  | impossible => "no possible date and time matching input"
  | notEnough => "input is not enough for unique date and time"

/-- What is known of a moment. -/
structure Fields where
  year : Option Int := none
  /-- the last two digits of the year -/
  yearOfCentury : Option Nat := none
  month : Option Nat := none
  day : Option Nat := none
  /-- counted from Monday as 0 -/
  weekday : Option Nat := none
  /-- 0 before noon and 1 after it -/
  halfDay : Option Nat := none
  /-- the hour within the half day, 0 to 11 -/
  hour : Option Nat := none
  minute : Option Nat := none
  second : Option Nat := none
  nano : Option Nat := none
deriving DecidableEq

namespace Fields

/-- Sets a field that may have been set before. -/
def setOnce {α : Type} [DecidableEq α] (old : Option α) (value : α) : Except DateFault (Option α) :=
  match old with
  | none => .ok (some value)
  | some old => if old = value then .ok (some old) else .error .impossible

/-- A value between two bounds, both included. -/
def within (low high value : Nat) : Except DateFault Nat :=
  if low ≤ value ∧ value ≤ high then .ok value else .error .outOfRange

def setYear (f : Fields) (year : Int) : Except DateFault Fields := do
  if year < -(twoTo 31 : Int) ∨ (twoTo 31 : Int) ≤ year then .error .outOfRange
  else return { f with year := ← setOnce f.year year }

def setYearOfCentury (f : Fields) (n : Nat) : Except DateFault Fields := do
  return { f with yearOfCentury := ← setOnce f.yearOfCentury (← within 0 99 n) }

def setMonth (f : Fields) (n : Nat) : Except DateFault Fields := do
  return { f with month := ← setOnce f.month (← within 1 12 n) }

def setDay (f : Fields) (n : Nat) : Except DateFault Fields := do
  return { f with day := ← setOnce f.day (← within 1 31 n) }

def setWeekday (f : Fields) (n : Nat) : Except DateFault Fields := do
  return { f with weekday := ← setOnce f.weekday n }

def setHalfDay (f : Fields) (n : Nat) : Except DateFault Fields := do
  return { f with halfDay := ← setOnce f.halfDay n }

/-- An hour of the whole day sets the half day and the hour in it. -/
def setHour (f : Fields) (n : Nat) : Except DateFault Fields := do
  let n ← within 0 23 n
  let halfDay ← setOnce f.halfDay (n / 12)
  return { f with halfDay := halfDay, hour := ← setOnce f.hour (n % 12) }

/-- An hour of the half day, where 12 comes before 1. -/
def setHalfDayHour (f : Fields) (n : Nat) : Except DateFault Fields := do
  return { f with hour := ← setOnce f.hour ((← within 1 12 n) % 12) }

def setMinute (f : Fields) (n : Nat) : Except DateFault Fields := do
  return { f with minute := ← setOnce f.minute (← within 0 59 n) }

def setSecond (f : Fields) (n : Nat) : Except DateFault Fields := do
  return { f with second := ← setOnce f.second (← within 0 60 n) }

def setNano (f : Fields) (n : Nat) : Except DateFault Fields := do
  return { f with nano := ← setOnce f.nano (← within 0 999999999 n) }

/-! ## What the fields come to -/

/-- The year. Of two digits alone, those up to 69 belong to this century; with a full year they must
be its last two, and then that year must not be negative. -/
def fullYear (f : Fields) : Except DateFault (Option Int) :=
  match f.year, f.yearOfCentury with
  | year, none => .ok year
  | none, some n => .ok (some (if n < 70 then 2000 + n else 1900 + n))
  | some year, some n =>
    if year < 0 ∨ year % 100 ≠ n then .error .impossible else .ok (some year)

/-- The date. -/
def date (f : Fields) : Except DateFault Date := do
  match ← f.fullYear, f.month, f.day with
  | some year, some month, some day =>
    match Date.of? year month day with
    | none => .error .outOfRange
    | some d => if f.weekday.all (· == d.weekday) then .ok d else .error .impossible
  | _, _, _ => .error .notEnough

/-- The time of day. Seconds may be missing, but not under a fraction; second 60 is kept as second
59 with a whole second more in its fraction. -/
def time (f : Fields) : Except DateFault Time :=
  match f.halfDay, f.hour, f.minute with
  | some halfDay, some hour, some minute =>
    let hour := halfDay * 12 + hour
    match f.second, f.nano with
    | none, some _ => .error .notEnough
    | second, nano =>
      let second := second.getD 0
      let nano := nano.getD 0
      .ok (if second = 60 then ⟨hour, minute, 59, 1000000000 + nano⟩
        else ⟨hour, minute, second, nano⟩)
  | _, _, _ => .error .notEnough

/-- The moment. What is wrong with the date is told first. -/
def dateTime (f : Fields) : Except DateFault DateTime := do
  let date ← f.date
  return ⟨date, ← f.time⟩

end Fields

end RecordFilter
