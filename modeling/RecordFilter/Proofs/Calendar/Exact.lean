/-
# `Proofs.Calendar.Exact` — the exact text of a moment tells it

Values are written with dates in full and with moments to the last nanosecond, leap seconds
under number 60 (`DateTime.exactText`).  Such a text has the form of a stored moment, so the
reader of these undoes the writing, if the numbers are those of a clock:

    a fraction of three, six or nine places is read to its nanoseconds   (`Time.fraction_ofClock`)
    a moment of a clock is read back from its exact text       (`DateTime.ofStored?_exactText`)

and they are for everything that an argument is turned into.  A field is set within its
bounds or not at all (`Fields.OnClock`), whatever the pattern asks for and in whatever
order, and a date is made only if it exists:

    an argument for a date gives an existing one         (`DateFormat.exists_of_readDate`)
    an argument for a moment gives one of a clock        (`DateFormat.isClocked_of_readDateTime`)
-/
import RecordFilter.Proofs.DateFormat.Weekdays

namespace RecordFilter

open Text

/-! ## Exact texts -/

theorem Text.fraction_places (width : Nat) {nano : Nat} (hwidth : 0 < width ∧ width ≤ 9)
    (hnano : nano < 1000000000) (hwhole : nano % tenTo (9 - width) = 0) :
    Fraction ('.' :: (padded width (nano / tenTo (9 - width))).toList) (some nano) := by
  have hplaces : nano / tenTo (9 - width) < tenTo width := by
    rw [Nat.div_lt_iff_lt_mul (tenTo_pos _), ← tenTo_add, Nat.add_sub_cancel' hwidth.2]
    exact hnano
  obtain ⟨hne, hdigit, _⟩ := writes_padded width (nano / tenTo (9 - width))
  have hfraction := Fraction.digits hne hdigit
  rwa [nanos_places hwidth hplaces, Nat.div_mul_cancel (Nat.dvd_of_mod_eq_zero hwhole)] at hfraction

namespace Time

variable {nano : Nat}

/-- What a clock shows stands in the text of a time of day: the seconds of a leap second are
60, and the nanoseconds are those behind them. -/
theorem ofClock_shown (hour minute second : Nat) (hnano : nano < 1000000000) :
    (ofClock hour minute second nano).hour = hour ∧
      (ofClock hour minute second nano).minute = minute ∧
      (ofClock hour minute second nano).second +
        (ofClock hour minute second nano).nano / 1000000000 = second ∧
      (ofClock hour minute second nano).nano % 1000000000 = nano := by
  rw [ofClock]
  split
  · refine ⟨rfl, rfl, ?_, ?_⟩ <;> simp only <;> omega
  · refine ⟨rfl, rfl, ?_, ?_⟩ <;> simp only <;> omega

/-- **A fraction of a second is written in as many places as it needs.** -/
theorem fraction_ofClock (hour minute second : Nat) (hnano : nano < 1000000000) :
    ∃ found, Fraction (ofClock hour minute second nano).fraction.toList found ∧
      found.getD 0 = nano := by
  have hpoint : ∀ digits : String, ("." ++ digits).toList = '.' :: digits.toList :=
    fun digits => String.toList_append
  rw [Time.fraction, (ofClock_shown hour minute second hnano).2.2.2]
  split
  · next hzero => exact ⟨none, .none, hzero.symm⟩
  · split
    · next hwhole =>
        rw [hpoint]
        exact ⟨some nano, fraction_places 3 (by decide) hnano hwhole, rfl⟩
    · split
      · next hwhole =>
          rw [hpoint]
          exact ⟨some nano, fraction_places 6 (by decide) hnano hwhole, rfl⟩
      · have hwhole : nano % tenTo (9 - 9) = 0 := Nat.mod_one nano
        have hfraction := fraction_places 9 (by decide) hnano hwhole
        rw [hpoint]
        rw [show nano / tenTo (9 - 9) = nano from Nat.div_one nano] at hfraction
        exact ⟨some nano, hfraction, rfl⟩

end Time

/-- A moment of an existing date, at a time of day that a clock shows. -/
structure DateTime.IsClocked (m : DateTime) : Prop where
  date : m.date.exists?
  time : ∃ hour minute second nano, Time.OnClock hour minute second ∧ nano < 1000000000 ∧
    m.time = Time.ofClock hour minute second nano

/-- **A moment is read back from its exact text.** -/
theorem DateTime.ofStored?_exactText {m : DateTime} (h : m.IsClocked) :
    ofStored? m.exactText = some m := by
  obtain ⟨d, time⟩ := m
  obtain ⟨hdate, hour, minute, second, nano, hclock, hnano, rfl⟩ := h
  obtain ⟨hhour, hminute, hsecond, _⟩ := Time.ofClock_shown hour minute second hnano
  obtain ⟨found, hfraction, hfound⟩ := Time.fraction_ofClock hour minute second hnano
  have htext : exactText ⟨d, Time.ofClock hour minute second nano⟩ = stamp d 'T' hour minute second
      (Time.ofClock hour minute second nano).fraction.toList := by
    have hmark : "T".toList = ['T'] := rfl
    have hcolon : ":".toList = [':'] := rfl
    rw [← String.toList_inj, stamp, String.toList_ofList, exactText, Time.clock, hhour, hminute,
      hsecond]
    simp only [String.toList_append, Text.clock, List.append_assoc, List.cons_append,
      List.nil_append, hmark, hcolon]
  rw [htext, ofStored?_stamp hdate (.inl rfl) hclock hfraction, hfound]

/-! ## What is read -/

/-- What is known of a field lies below a bound. -/
def Fields.Below (bound : Nat) (known : Option Nat) : Prop :=
  ∀ n, known = some n → n < bound

/-- Each field of the time of day that is known lies within its bounds. -/
structure Fields.OnClock (fields : Fields) : Prop where
  halfDay : Below 2 fields.halfDay
  hour : Below 12 fields.hour
  minute : Below 60 fields.minute
  second : Below 61 fields.second
  nano : Below 1000000000 fields.nano

namespace Fields

variable {fields found : Fields} {n bound : Nat}

theorem below_some (h : n < bound) : Below bound (some n) := by
  rintro _ ⟨⟩
  exact h

theorem Below.getD {known : Option Nat} (h : Below bound known) (hpos : 0 < bound) :
    known.getD 0 < bound := by
  cases known with
  | none => exact hpos
  | some n => exact h n rfl

theorem onClock_empty : OnClock {} :=
  ⟨nofun, nofun, nofun, nofun, nofun⟩

theorem of_setHour (h : fields.setHour n = .ok found) :
    n < 24 ∧ found = { fields with halfDay := some (n / 12), hour := some (n % 12) } := by
  obtain ⟨k, hk, hset⟩ := bind_eq_ok_iff.mp h
  obtain ⟨hn, rfl⟩ := of_within hk
  obtain ⟨halfDay, hhalf, hhour⟩ := bind_eq_ok_iff.mp hset
  obtain ⟨_, rfl⟩ := of_setOnce hhalf
  obtain ⟨_, rfl⟩ := of_set (fun hour =>
    { fields with halfDay := some (k / 12), hour := hour }) hhour
  exact ⟨Nat.lt_succ_of_le hn.2, rfl⟩

theorem of_setHalfDayHour (h : fields.setHalfDayHour n = .ok found) :
    found = { fields with hour := some (n % 12) } := by
  obtain ⟨k, hk, hset⟩ := bind_eq_ok_iff.mp h
  obtain ⟨_, rfl⟩ := of_within hk
  exact (of_set (fun hour => { fields with hour := hour }) hset).2

end Fields

open DateReading

theorem DateReading.of_readHalfDay {text rest : List Char} {n : Nat}
    (h : readHalfDay text = .ok (n, rest)) : n < 2 := by
  rw [readHalfDay] at h
  split at h
  · cases h
  · split at h
    · cases h
      decide
    · split at h
      · cases h
        decide
      · cases h

section Reading

variable {fields found : Fields} {text rest : List Char}

/-- **A field is set within its bounds.** -/
theorem DateField.onClock_of_read {f : DateField} (hfields : fields.OnClock)
    (h : f.read fields text = .ok (found, rest)) : found.OnClock := by
  cases f with
  | year =>
      obtain ⟨_, _, hset⟩ := of_readInto h
      rw [Fields.of_setYear hset]
      exact { hfields with }
  | shortYear =>
      obtain ⟨_, _, hset⟩ := of_readInto h
      rw [(Fields.of_set_within (fun n => { fields with yearOfCentury := n }) hset).2]
      exact { hfields with }
  | month =>
      obtain ⟨_, _, hset⟩ := of_readInto h
      rw [(Fields.of_set_within (fun n => { fields with month := n }) hset).2]
      exact { hfields with }
  | monthName full =>
      obtain ⟨_, _, hset⟩ := of_readInto h
      rw [(Fields.of_set_within (fun n => { fields with month := n }) hset).2]
      exact { hfields with }
  | day =>
      obtain ⟨_, _, hset⟩ := of_readInto h
      rw [(Fields.of_set_within (fun n => { fields with day := n }) hset).2]
      exact { hfields with }
  | weekdayName full =>
      obtain ⟨_, _, hset⟩ := of_readInto h
      rw [(Fields.of_set (fun n => { fields with weekday := n }) hset).2]
      exact { hfields with }
  | hour =>
      obtain ⟨n, _, hset⟩ := of_readInto h
      obtain ⟨hn, rfl⟩ := Fields.of_setHour hset
      have hhour : n % 12 < 12 := Nat.mod_lt n (by decide)
      exact { hfields with
        halfDay := Fields.below_some (Nat.div_lt_of_lt_mul hn), hour := Fields.below_some hhour }
  | halfDayHour =>
      obtain ⟨n, _, hset⟩ := of_readInto h
      rw [Fields.of_setHalfDayHour hset]
      exact { hfields with hour := Fields.below_some (Nat.mod_lt n (by decide)) }
  | halfDay =>
      obtain ⟨n, hread, hset⟩ := of_readInto h
      rw [(Fields.of_set (fun n => { fields with halfDay := n }) hset).2]
      exact { hfields with halfDay := Fields.below_some (of_readHalfDay hread) }
  | minute =>
      obtain ⟨n, _, hset⟩ := of_readInto h
      obtain ⟨hn, rfl⟩ := Fields.of_set_within (fun n => { fields with minute := n }) hset
      exact { hfields with minute := Fields.below_some (Nat.lt_succ_of_le hn.2) }
  | second =>
      obtain ⟨n, _, hset⟩ := of_readInto h
      obtain ⟨hn, rfl⟩ := Fields.of_set_within (fun n => { fields with second := n }) hset
      exact { hfields with second := Fields.below_some (Nat.lt_succ_of_le hn.2) }
  | places count =>
      obtain ⟨n, _, hset⟩ := of_readInto h
      obtain ⟨hn, rfl⟩ := Fields.of_set_within (fun n => { fields with nano := n }) hset
      exact { hfields with nano := Fields.below_some (Nat.lt_succ_of_le hn.2) }
  | fraction =>
      simp only [read] at h
      split at h
      · obtain ⟨n, _, hset⟩ := of_readInto h
        obtain ⟨hn, rfl⟩ := Fields.of_set_within (fun n => { fields with nano := n }) hset
        exact { hfields with nano := Fields.below_some (Nat.lt_succ_of_le hn.2) }
      · cases h
        exact hfields

/-- **A text is read within the bounds**, whatever items it is read by. -/
theorem DateItem.onClock_of_readAll {items : List DateItem} (hfields : fields.OnClock)
    (h : readAll fields items text = .ok found) : found.OnClock := by
  induction items generalizing fields text with
  | nil =>
      rw [readAll] at h
      split at h
      · cases h
        exact hfields
      · cases h
  | cons item items ih =>
      rw [readAll] at h
      split at h
      · cases h
      · next next rest hread =>
          cases item with
          | blanks =>
              cases hread
              exact ih hfields h
          | exactly front =>
              obtain ⟨rfl, _⟩ := of_read_exactly hread
              exact ih hfields h
          | field f => exact ih (f.onClock_of_read hfields hread) h

theorem Fields.OnClock.exists_time (h : fields.OnClock) {t : Time} (htime : fields.time = .ok t) :
    ∃ hour minute second nano, Time.OnClock hour minute second ∧ nano < 1000000000 ∧
      t = Time.ofClock hour minute second nano := by
  rw [time] at htime
  split at htime
  · next halfDay hour minute hhalfDay hhour hminute =>
      have hhalf := h.halfDay halfDay hhalfDay
      have hpart := h.hour hour hhour
      simp only at htime
      split at htime
      · cases htime
      · cases htime
        exact ⟨halfDay * 12 + hour, minute, fields.second.getD 0, fields.nano.getD 0,
          ⟨by omega, h.minute minute hminute, Nat.le_of_lt_succ (h.second.getD (by decide))⟩,
          h.nano.getD (by decide), rfl⟩
  · cases htime

end Reading

namespace DateFormat

variable {f : DateFormat} {text : String} {d : Date} {m : DateTime}

theorem exists_thisCentury (f : DateFormat) (h : d.exists?) : (f.thisCentury d).exists? := by
  rw [thisCentury]
  split
  · cases hmoved : d.inYear? (d.year + 100) with
    | none => exact h
    | some moved => exact (Date.of_of?_eq_some hmoved).2
  · exact h

/-- **An argument for a date gives one that exists.** -/
theorem exists_of_readDate (h : f.readDate text = .ok d) : d.exists? := by
  obtain ⟨found, read, _, hdate, rfl⟩ := of_readDate h
  exact f.exists_thisCentury (Fields.of_date_eq_ok hdate).2.1

/-- **An argument for a moment gives one of a clock.** -/
theorem isClocked_of_readDateTime (h : f.readDateTime text = .ok m) : m.IsClocked := by
  obtain ⟨found, hfields, hmoved⟩ := bind_eq_ok_iff.mp h
  obtain ⟨read, hread, hm⟩ := bind_eq_ok_iff.mp hmoved
  obtain ⟨d, hdate, htimed⟩ := bind_eq_ok_iff.mp hread
  obtain ⟨t, htime, hmade⟩ := bind_eq_ok_iff.mp htimed
  cases hmade
  cases hm
  have hbounds : found.OnClock := DateItem.onClock_of_readAll Fields.onClock_empty hfields
  exact ⟨f.exists_thisCentury (Fields.of_date_eq_ok hdate).2.1, hbounds.exists_time htime⟩

end DateFormat

end RecordFilter
