/-
# Dates and times

Dates of the Gregorian calendar, extended to all years, and times of day.
-/
import RecordFilter.Text.Basic

namespace RecordFilter

/-! ## Dates -/

/-- A date. `Date.of?` makes those that exist. -/
structure Date where
  year : Int
  month : Nat
  day : Nat
deriving DecidableEq, Inhabited

namespace Date

def isLeapYear (year : Int) : Bool :=
  year % 4 == 0 && (year % 100 != 0 || year % 400 == 0)

/-- How many days a month has; none for a number that is no month. -/
def daysInMonth (year : Int) (month : Nat) : Nat :=
  match month with
  | 1 | 3 | 5 | 7 | 8 | 10 | 12 => 31
  | 4 | 6 | 9 | 11 => 30
  | 2 => if isLeapYear year then 29 else 28
  | _ => 0

/-- The first and the last year that dates are kept for. -/
def firstYear : Int := -262143

def lastYear : Int := 262142

/-- Whether a date exists. -/
def exists? (d : Date) : Bool :=
  firstYear ≤ d.year && d.year ≤ lastYear && 1 ≤ d.day && d.day ≤ daysInMonth d.year d.month

/-- The date of a year, a month and a day, if it exists. -/
def of? (year : Int) (month day : Nat) : Option Date :=
  if exists? ⟨year, month, day⟩ then some ⟨year, month, day⟩ else none

/-- The same day of another year, if it exists there. -/
def inYear? (d : Date) (year : Int) : Option Date :=
  of? year d.month d.day

/-- The number of a date when all days are counted in a row, with the first of March of the year 0
as day 0. Years are taken to begin in March, so that a leap day is the last of its year. -/
def dayNumber (d : Date) : Int :=
  let year := if d.month ≤ 2 then d.year - 1 else d.year
  let month : Nat := (d.month + 9) % 12
  365 * year + year / 4 - year / 100 + year / 400 + ((153 * month + 2) / 5 : Nat) +
    (d.day : Int) - 1

/-- The day of the week, counted from Monday as 0. The first of March of the year 0 is a
Wednesday. -/
def weekday (d : Date) : Nat :=
  ((d.dayNumber + 2) % 7).toNat

/-- The earlier of two dates is less. -/
def compare (a b : Date) : Ordering :=
  (Ord.compare a.year b.year).then ((Ord.compare a.month b.month).then (Ord.compare a.day b.day))

end Date

/-! ## Times of day -/

/-- A time of day. In a leap second the second is 59 and the nanoseconds go on beyond `10^9`. -/
structure Time where
  hour : Nat
  minute : Nat
  second : Nat
  nano : Nat
deriving DecidableEq, Inhabited

/-- The earlier of two times is less. -/
def Time.compare (a b : Time) : Ordering :=
  (Ord.compare a.hour b.hour).then ((Ord.compare a.minute b.minute).then
    ((Ord.compare a.second b.second).then (Ord.compare a.nano b.nano)))

/-- A date and a time of day, in no zone. -/
structure DateTime where
  date : Date
  time : Time
deriving DecidableEq, Inhabited

/-- The earlier of two moments is less. -/
def DateTime.compare (a b : DateTime) : Ordering :=
  (a.date.compare b.date).then (a.time.compare b.time)

/-! ## Texts -/

/-- A year: four digits, and a sign in front of those that are not between 0 and 9999. -/
def Date.yearText (year : Int) : String :=
  let digits := Text.padded 4 year.natAbs
  if year < 0 then "-" ++ digits else if 9999 < year then "+" ++ digits else digits

def Date.text (d : Date) : String :=
  Date.yearText d.year ++ "-" ++ Text.padded 2 d.month ++ "-" ++ Text.padded 2 d.day

/-- Hours, minutes and seconds. A leap second is number 60. -/
def Time.clock (t : Time) : String :=
  Text.padded 2 t.hour ++ ":" ++ Text.padded 2 t.minute ++ ":" ++
    Text.padded 2 (t.second + t.nano / 1000000000)

/-- The fraction of a second with as many of three, six or nine places as it needs. -/
def Time.fraction (t : Time) : String :=
  let nano := t.nano % 1000000000
  if nano = 0 then ""
  else if nano % 1000000 = 0 then "." ++ Text.padded 3 (nano / 1000000)
  else if nano % 1000 = 0 then "." ++ Text.padded 6 (nano / 1000)
  else "." ++ Text.padded 9 nano

/-- The text that loses nothing. -/
def DateTime.exactText (m : DateTime) : String :=
  m.date.text ++ "T" ++ m.time.clock ++ m.time.fraction

/-- The text to the millisecond, the rest cut off. -/
def DateTime.text (m : DateTime) : String :=
  m.date.text ++ "T" ++ m.time.clock ++ "." ++ Text.padded 3 (m.time.nano % 1000000000 / 1000000)

end RecordFilter
