/-
# `Proofs.Calendar.Moment` — moments to the millisecond

Arguments and stored texts give moments with three places behind the second.  A moment in
whole milliseconds (`DateTime.IsWhole`) loses nothing in such a text
(`DateTime.written`): it is read back from where it is stored, in both forms, and from
an argument by the standard pattern.
-/
import RecordFilter.Proofs.Calendar.Reading

namespace RecordFilter

/-- A moment of an existing date in whole milliseconds, outside of leap seconds. -/
structure DateTime.IsWhole (m : DateTime) : Prop extends DateTime.Regular m where
  milli : m.time.nano % 1000000 = 0

namespace DateTime

/-- The text of a moment to the millisecond. -/
def written (separator : Char) (m : DateTime) : String :=
  stamp m.date separator m.time.hour m.time.minute m.time.second
    ('.' :: (Text.padded 3 (m.time.nano / 1000000)).toList)

variable {m : DateTime} {separator : Char}

theorem Regular.onClock (h : m.Regular) :
    Time.OnClock m.time.hour m.time.minute m.time.second :=
  ⟨h.time.hour, h.time.minute, Nat.le_of_lt h.time.second⟩

theorem Regular.ofClock (h : m.Regular) :
    Time.ofClock m.time.hour m.time.minute m.time.second m.time.nano = m.time :=
  if_neg (Nat.ne_of_lt h.time.second)

theorem IsWhole.milli_lt (h : m.IsWhole) : m.time.nano / 1000000 < 1000 := by
  have hnano := h.time.nano
  omega

theorem IsWhole.nano_eq (h : m.IsWhole) : m.time.nano / 1000000 * 1000000 = m.time.nano :=
  Nat.div_mul_cancel (Nat.dvd_of_mod_eq_zero h.milli)

theorem IsWhole.fraction (h : m.IsWhole) :
    Text.Fraction ('.' :: (Text.padded 3 (m.time.nano / 1000000)).toList) (some m.time.nano) := by
  obtain ⟨hne, hdigit, _⟩ := Text.writes_padded 3 (m.time.nano / 1000000)
  have hfraction := Text.Fraction.digits hne hdigit
  rwa [Text.nanos_padded h.milli_lt, h.nano_eq] at hfraction

theorem IsWhole.ofStored? (h : m.IsWhole) (hseparator : Text.IsSeparator separator) :
    DateTime.ofStored? (m.written separator) = some m := by
  rw [written, ofStored?_stamp h.date hseparator h.onClock h.fraction, Option.getD_some, h.ofClock]

theorem IsWhole.dateOfStored? (h : m.IsWhole) (hseparator : Text.IsSeparator separator) :
    Date.ofStored? (m.written separator) = some m.date :=
  Date.ofStored?_stamp h.date hseparator h.onClock h.fraction

theorem IsWhole.readDateTime (h : m.IsWhole) :
    DateFormat.standard.readDateTime (m.written ' ') = .ok m := by
  rw [written, DateFormat.readDateTime_stamp h.date h.onClock h.milli_lt, h.nano_eq, h.ofClock]

theorem IsWhole.readDate (h : m.IsWhole) :
    DateFormat.standard.readDate (m.written ' ') = .ok m.date :=
  DateFormat.readDate_stamp h.date h.onClock h.milli_lt

end DateTime

end RecordFilter
