/-
# `Proofs.Calendar.Writing` — dates are written by a form and read back by it

A form can be used both ways.  Written by it, a moment gives each field its text and each
literal itself (`DateElement.written`).  Read by it, the text gives back what each field
says of the moment (`Fields.learn`), one field after another:

    a field in front of anything                               (`DateField.read_written`)
    a form to the end of the text                              (`DateItem.readAll_written`)

What is known while reading fits the moment (`Fields.Fits`), so a field that says what is
known already is no fault.  In which order the fields come does not matter in the end
(`Fields.foldl_learn_perm`).

Fields need nothing between them to keep them apart: numbers are written in as many digits
as are read at most, and names as far as they are read.  Only a fraction of any width goes on
as far as there are digits; it is left out here (`DateField.IsFixed`).
-/
import Mathlib.Data.List.DropRight
import Mathlib.Tactic.IntervalCases
import RecordFilter.Proofs.Calendar.Moment

namespace RecordFilter

open Text

/-! ## Writing -/

/-- The English names of the months. -/
def monthTitles : List String :=
  ["January", "February", "March", "April", "May", "June", "July", "August", "September",
    "October", "November", "December"]

/-- The English names of the days of the week, from Monday. -/
def weekdayTitles : List String :=
  ["Monday", "Tuesday", "Wednesday", "Thursday", "Friday", "Saturday", "Sunday"]

/-- The name at a place, in full or its first three letters. -/
def title (titles : List String) (full : Bool) (place : Nat) : List Char :=
  if full then (titles.getD place "").toList else (titles.getD place "").toList.take 3

/-- What a field says of a moment. -/
def DateField.written (m : DateTime) : DateField → List Char
  | year => (padded 4 m.date.year.toNat).toList
  | shortYear => (padded 2 (m.date.year % 100).toNat).toList
  | month => (padded 2 m.date.month).toList
  | monthName full => title monthTitles full (m.date.month - 1)
  | day => (padded 2 m.date.day).toList
  | weekdayName full => title weekdayTitles full m.date.weekday
  | hour => (padded 2 m.time.hour).toList
  | halfDayHour => (padded 2 ((m.time.hour + 11) % 12 + 1)).toList
  | halfDay => if m.time.hour < 12 then ['A', 'M'] else ['P', 'M']
  | minute => (padded 2 m.time.minute).toList
  | second => (padded 2 m.time.second).toList
  | places count => (padded count (m.time.nano / tenTo (9 - count))).toList
  | fraction => '.' :: (padded 9 m.time.nano).toList

/-- The text of a moment by one element of a form. -/
def DateElement.written (m : DateTime) : DateElement → List Char
  | literal c => [c]
  | field f => f.written m

/-- The field of an element. -/
def DateElement.field? : DateElement → Option DateField
  | literal _ => none
  | field f => some f

/-- A field that is written just as far as it is read, of a moment in whole milliseconds. -/
def DateField.IsFixed : DateField → Prop
  | places count => 3 ≤ count ∧ count ≤ 9
  | fraction => False
  | _ => True

/-! ## What fields say -/

namespace Fields

/-- The fields with what one more of them says of a moment. -/
def learn (m : DateTime) (fields : Fields) : DateField → Fields
  | .year => { fields with year := some m.date.year }
  | .shortYear => { fields with yearOfCentury := some (m.date.year % 100).toNat }
  | .month | .monthName _ => { fields with month := some m.date.month }
  | .day => { fields with day := some m.date.day }
  | .weekdayName _ => { fields with weekday := some m.date.weekday }
  | .hour =>
    { fields with halfDay := some (m.time.hour / 12), hour := some (m.time.hour % 12) }
  | .halfDayHour => { fields with hour := some (m.time.hour % 12) }
  | .halfDay => { fields with halfDay := some (m.time.hour / 12) }
  | .minute => { fields with minute := some m.time.minute }
  | .second => { fields with second := some m.time.second }
  | .places _ | .fraction => { fields with nano := some m.time.nano }

/-- What is known of a field is the right value, if anything. -/
def Knows {α : Type} (known : Option α) (value : α) : Prop :=
  known = none ∨ known = some value

/-- What is known is right. -/
structure Fits (fields : Fields) (m : DateTime) : Prop where
  year : Knows fields.year m.date.year
  yearOfCentury : Knows fields.yearOfCentury (m.date.year % 100).toNat
  month : Knows fields.month m.date.month
  day : Knows fields.day m.date.day
  weekday : Knows fields.weekday m.date.weekday
  halfDay : Knows fields.halfDay (m.time.hour / 12)
  hour : Knows fields.hour (m.time.hour % 12)
  minute : Knows fields.minute m.time.minute
  second : Knows fields.second m.time.second
  nano : Knows fields.nano m.time.nano

variable {m : DateTime} {fields : Fields}

theorem fits_empty (m : DateTime) : Fits {} m :=
  ⟨.inl rfl, .inl rfl, .inl rfl, .inl rfl, .inl rfl, .inl rfl, .inl rfl, .inl rfl, .inl rfl, .inl rfl⟩

/-- **What is learned fits.** -/
theorem Fits.learn (h : fields.Fits m) (f : DateField) : (fields.learn m f).Fits m := by
  cases f with
  | year => exact { h with year := .inr rfl }
  | shortYear => exact { h with yearOfCentury := .inr rfl }
  | month => exact { h with month := .inr rfl }
  | monthName => exact { h with month := .inr rfl }
  | day => exact { h with day := .inr rfl }
  | weekdayName => exact { h with weekday := .inr rfl }
  | hour => exact { h with halfDay := .inr rfl, hour := .inr rfl }
  | halfDayHour => exact { h with hour := .inr rfl }
  | halfDay => exact { h with halfDay := .inr rfl }
  | minute => exact { h with minute := .inr rfl }
  | second => exact { h with second := .inr rfl }
  | places => exact { h with nano := .inr rfl }
  | fraction => exact { h with nano := .inr rfl }

theorem learn_comm (m : DateTime) (fields : Fields) (f g : DateField) :
    (fields.learn m f).learn m g = (fields.learn m g).learn m f := by
  cases f <;> cases g <;> rfl

theorem foldl_learn_perm {fs gs : List DateField} (h : fs.Perm gs) (m : DateTime) (fields : Fields) :
    fs.foldl (learn m) fields = gs.foldl (learn m) fields :=
  h.foldl_eq' (fun f _ g _ fields => learn_comm m fields f g) fields

theorem setOnce_of_knows {α : Type} [DecidableEq α] {known : Option α} {value : α}
    (h : Knows known value) : setOnce known value = .ok (some value) := by
  rcases h with rfl | rfl
  · rfl
  · exact if_pos rfl

theorem set_within {known : Option Nat} {low high n : Nat} (h : Knows known n)
    (hbounds : low ≤ n ∧ n ≤ high) (set : Option Nat → Fields) :
    (do let n ← within low high n
        let known ← setOnce known n
        return set known) = Except.ok (set (some n)) := by
  rw [within_ok hbounds, ok_bind, setOnce_of_knows h]
  rfl

/-- An hour of the whole day sets two fields. -/
theorem setHour_learn (h : fields.Fits m) (hhour : m.time.hour < 24) :
    fields.setHour m.time.hour = .ok (fields.learn m .hour) := by
  have hbounds : 0 ≤ m.time.hour ∧ m.time.hour ≤ 23 := ⟨Nat.zero_le _, Nat.le_of_lt_succ hhour⟩
  simp only [setHour, within_ok hbounds, setOnce_of_knows h.halfDay, setOnce_of_knows h.hour,
    ok_bind]
  rfl

/-- An hour of the half day is counted from 12. -/
theorem setHalfDayHour_learn (h : fields.Fits m) :
    fields.setHalfDayHour ((m.time.hour + 11) % 12 + 1) = .ok (fields.learn m .halfDayHour) := by
  have hbounds : 1 ≤ (m.time.hour + 11) % 12 + 1 ∧ (m.time.hour + 11) % 12 + 1 ≤ 12 := by omega
  have hhour : ((m.time.hour + 11) % 12 + 1) % 12 = m.time.hour % 12 := by omega
  simp only [setHalfDayHour, within_ok hbounds, ok_bind, hhour, setOnce_of_knows h.hour]
  rfl

end Fields

/-! ## Fields read back -/

namespace DateReading

theorem readName_weekday {place : Nat} (h : place < 7) (full : Bool) (rest : List Char) :
    readName full weekdayNames (title weekdayTitles full place ++ rest) = .ok (place, rest) := by
  have hlength : 3 ≤ (title weekdayTitles full place).length := by
    interval_cases place <;> cases full <;> decide
  rw [readName, if_neg (not_byteSize_lt hlength rest)]
  interval_cases place <;> cases full <;> rfl

theorem readName_month {place : Nat} (h : place < 12) (full : Bool) (rest : List Char) :
    readName full monthNames (title monthTitles full place ++ rest) = .ok (place, rest) := by
  have hlength : 3 ≤ (title monthTitles full place).length := by
    interval_cases place <;> cases full <;> decide
  rw [readName, if_neg (not_byteSize_lt hlength rest)]
  interval_cases place <;> cases full <;> rfl

theorem readHalfDay_am (rest : List Char) : readHalfDay (['A', 'M'] ++ rest) = .ok (0, rest) := by
  have hlength : 2 ≤ ['A', 'M'].length := by decide
  exact if_neg (not_byteSize_lt hlength rest)

theorem readHalfDay_pm (rest : List Char) : readHalfDay (['P', 'M'] ++ rest) = .ok (1, rest) := by
  have hlength : 2 ≤ ['P', 'M'].length := by decide
  exact if_neg (not_byteSize_lt hlength rest)

end DateReading

open DateReading

/-- A moment whose year has four digits at most. -/
structure DateTime.IsCommon (m : DateTime) : Prop extends DateTime.IsWhole m where
  year : 0 ≤ m.date.year ∧ m.date.year ≤ 9999

theorem Date.weekday_lt (d : Date) : d.weekday < 7 := by
  rw [weekday]
  omega

namespace DateTime.IsCommon

variable {m : DateTime} {count : Nat}

theorem month (h : m.IsCommon) : 1 ≤ m.date.month ∧ m.date.month ≤ 12 :=
  Date.month_of_exists h.date

theorem day (h : m.IsCommon) : 1 ≤ m.date.day ∧ m.date.day ≤ 31 :=
  ⟨(Date.day_of_exists h.date).1,
    (Date.day_of_exists h.date).2.trans (Date.daysInMonth_le _ _)⟩

theorem nano_places (h : m.IsCommon) (hcount : 3 ≤ count) :
    m.time.nano / tenTo (9 - count) * tenTo (9 - count) = m.time.nano := by
  have hmilli : tenTo 6 ∣ m.time.nano := Nat.dvd_of_mod_eq_zero h.milli
  have hscale : 9 - count + (6 - (9 - count)) = 6 := by omega
  have hplaces : tenTo (9 - count) ∣ tenTo 6 := by
    rw [← hscale, tenTo_add]
    exact Nat.dvd_mul_right _ _
  exact Nat.div_mul_cancel (hplaces.trans hmilli)

theorem places_lt (h : m.IsCommon) (hcount : count ≤ 9) :
    m.time.nano / tenTo (9 - count) < tenTo count := by
  have hsplit : count + (9 - count) = 9 := by omega
  have hnano : m.time.nano < tenTo count * tenTo (9 - count) := by
    rw [← tenTo_add, hsplit]
    exact h.time.nano
  exact Nat.div_lt_of_lt_mul (by rwa [Nat.mul_comm])

end DateTime.IsCommon

theorem DateReading.readInto_ok {α : Type} {set : α → Except DateFault Fields} {value : α}
    {fields : Fields} (h : set value = .ok fields) (rest : List Char) :
    readInto set (.ok (value, rest)) = .ok (fields, rest) := by
  rw [readInto, h]
  rfl

/-- **A field is read back in front of anything**, and adds what it says. -/
theorem DateField.read_written {m : DateTime} {fields : Fields} {f : DateField} (hm : m.IsCommon)
    (hfits : fields.Fits m) (hf : f.IsFixed) (rest : List Char) :
    f.read fields (f.written m ++ rest) = .ok (fields.learn m f, rest) := by
  obtain ⟨hfirst, hlast⟩ := hm.year
  have hmonth := hm.month
  have hday := hm.day
  obtain ⟨hhour, hminute, hsecond, hnano⟩ := hm.time
  cases f with
  | year =>
      have hn : m.date.year.toNat < 10000 := by omega
      have hcast : (m.date.year.toNat : Int) = m.date.year := by omega
      have hset : fields.setYear m.date.year = .ok (fields.learn m .year) := by
        have hword : (twoTo 31 : Int) = 2147483648 := rfl
        rw [Fields.setYear, if_neg (by omega), Fields.setOnce_of_knows hfits.year]
        rfl
      rw [read, written, (writes_padded 4 _).trimLeft, readYear_padded hn, hcast]
      exact readInto_ok hset rest
  | shortYear =>
      have hbounds : 0 ≤ (m.date.year % 100).toNat ∧ (m.date.year % 100).toNat ≤ 99 := by omega
      exact read_number (fun _ _ => rfl) (by omega)
        (Fields.set_within hfits.yearOfCentury hbounds
          fun year => { fields with yearOfCentury := year }) rest
  | month =>
      exact read_number (fun _ _ => rfl) (by omega)
        (Fields.set_within hfits.month hmonth fun month => { fields with month := month }) rest
  | monthName full =>
      have hplace : m.date.month - 1 + 1 = m.date.month := by omega
      have hset : fields.setMonth (m.date.month - 1 + 1) = .ok (fields.learn m .month) := by
        rw [hplace]
        exact Fields.set_within hfits.month hmonth fun month => { fields with month := month }
      rw [read, written, readName_month (by omega)]
      exact readInto_ok hset rest
  | day =>
      exact read_number (fun _ _ => rfl) (by omega)
        (Fields.set_within hfits.day hday fun day => { fields with day := day }) rest
  | weekdayName full =>
      have hset : fields.setWeekday m.date.weekday = .ok (fields.learn m (.weekdayName full)) := by
        rw [Fields.setWeekday, Fields.setOnce_of_knows hfits.weekday]
        rfl
      rw [read, written, readName_weekday m.date.weekday_lt]
      exact readInto_ok hset rest
  | hour =>
      exact read_number (fun _ _ => rfl) (by omega) (Fields.setHour_learn hfits hhour) rest
  | halfDayHour =>
      exact read_number (fun _ _ => rfl) (by omega) (Fields.setHalfDayHour_learn hfits) rest
  | halfDay =>
      have hset : fields.setHalfDay (m.time.hour / 12) = .ok (fields.learn m .halfDay) := by
        rw [Fields.setHalfDay, Fields.setOnce_of_knows hfits.halfDay]
        rfl
      rw [read, written]
      by_cases hmorning : m.time.hour < 12
      · have hhalf : m.time.hour / 12 = 0 := by omega
        rw [hhalf] at hset
        rw [if_pos hmorning, readHalfDay_am]
        exact readInto_ok hset rest
      · have hhalf : m.time.hour / 12 = 1 := by omega
        rw [hhalf] at hset
        rw [if_neg hmorning, readHalfDay_pm]
        exact readInto_ok hset rest
  | minute =>
      exact read_number (fun _ _ => rfl) (by omega)
        (Fields.set_within hfits.minute ⟨Nat.zero_le _, Nat.le_of_lt_succ hminute⟩
          fun minute => { fields with minute := minute }) rest
  | second =>
      exact read_number (fun _ _ => rfl) (by omega)
        (Fields.set_within hfits.second ⟨Nat.zero_le _, by omega⟩
          fun second => { fields with second := second }) rest
  | places count =>
      obtain ⟨hfew, hmany⟩ := hf
      have hset : fields.setNano (m.time.nano / tenTo (9 - count) * tenTo (9 - count)) =
          .ok (fields.learn m (.places count)) := by
        rw [hm.nano_places hfew]
        exact Fields.set_within hfits.nano ⟨Nat.zero_le _, Nat.le_of_lt_succ hnano⟩
          fun nano => { fields with nano := nano }
      rw [read, written, readPlaces_padded (by omega) (hm.places_lt hmany)]
      exact readInto_ok hset rest
  | fraction => exact hf.elim

/-! ## Forms read back -/

namespace DateReading

theorem trimLeft_weekday {place : Nat} (h : place < 7) (full : Bool) (rest : List Char) :
    trimLeft (title weekdayTitles full place ++ rest) = title weekdayTitles full place ++ rest := by
  interval_cases place <;> cases full <;> rfl

theorem trimLeft_month {place : Nat} (h : place < 12) (full : Bool) (rest : List Char) :
    trimLeft (title monthTitles full place ++ rest) = title monthTitles full place ++ rest := by
  interval_cases place <;> cases full <;> rfl

end DateReading

theorem DateField.trimLeft_written {m : DateTime} (hm : m.IsCommon) (f : DateField)
    (rest : List Char) : trimLeft (f.written m ++ rest) = f.written m ++ rest := by
  have hmonth := hm.month
  cases f with
  | monthName full => exact trimLeft_month (by omega) full rest
  | weekdayName full => exact trimLeft_weekday m.date.weekday_lt full rest
  | halfDay =>
      rw [written]
      split <;> rfl
  | fraction => rfl
  | _ => exact (writes_padded _ _).trimLeft rest

namespace DateItem

variable {m : DateTime} {fields : Fields} {es : List DateElement} {c : Char}
  {items : List DateItem} {letters text : List Char}

theorem readAll_blanks (fields : Fields) (items : List DateItem) (text : List Char) :
    readAll fields (.blanks :: items) text = readAll fields items (trimLeft text) :=
  readAll_cons rfl items

theorem readAll_exactly_cons (c : Char) (letters : List Char) (fields : Fields)
    (items : List DateItem) (text : List Char) :
    readAll fields (.exactly (c :: letters) :: items) (c :: text) =
      readAll fields (.exactly letters :: items) text := by
  have hsize : ∀ text, byteSize (c :: text) = c.utf8Size + byteSize text := fun _ => rfl
  simp only [readAll, read, hsize, Nat.add_lt_add_iff_left, List.length_cons, List.take_succ_cons,
    List.cons.injEq, true_and, List.drop_succ_cons]

theorem join_blank (hc : isBlank c = true) (items : List DateItem) :
    join (.literal c) items = items ∧ (∃ rest, items = .blanks :: rest) ∨
      join (.literal c) items = .blanks :: items := by
  cases items with
  | nil => exact .inr (if_pos hc)
  | cons item rest =>
      cases item with
      | blanks => exact .inl ⟨if_pos hc, rest, rfl⟩
      | exactly letters => exact .inr (if_pos hc)
      | field f => exact .inr (if_pos hc)

/-- Another character in front of a form is one of its own, or is put to those behind it. -/
theorem join_exactly (hc : isBlank c = false) (items : List DateItem) :
    join (.literal c) items = .exactly [c] :: items ∨
      ∃ letters rest, items = .exactly letters :: rest ∧
        join (.literal c) items = .exactly (c :: letters) :: rest := by
  have hblank : ¬ isBlank c = true := Bool.eq_false_iff.mp hc
  by_cases hpercent : c = '%'
  · have hjoin : join (.literal c) items = .exactly ['%'] :: items :=
      (if_neg hblank).trans (if_pos hpercent)
    exact .inl (by rw [hjoin, hpercent])
  · have hjoin : join (.literal c) items = _ := (if_neg hblank).trans (if_neg hpercent)
    cases items with
    | nil => exact .inl hjoin
    | cons item rest =>
        cases item with
        | blanks => exact .inl hjoin
        | field f => exact .inl hjoin
        | exactly letters =>
            by_cases hletters : letters = ['%']
            · exact .inl (hjoin.trans (if_pos hletters))
            · exact .inr ⟨letters, rest, rfl, hjoin.trans (if_neg hletters)⟩

theorem readAll_join_literal (c : Char)
    (htrim : readAll fields items (trimLeft text) = readAll fields items text) :
    readAll fields (join (.literal c) items) (c :: text) = readAll fields items text := by
  cases hc : isBlank c with
  | true =>
      have hblank : trimLeft (c :: text) = trimLeft text := List.dropWhile_cons_of_pos hc
      obtain ⟨hjoin, rest, rfl⟩ | hjoin := join_blank hc items
      · rw [hjoin, readAll_blanks, readAll_blanks, hblank]
      · rw [hjoin, readAll_blanks, hblank, htrim]
  | false =>
      obtain hjoin | ⟨letters, rest, rfl, hjoin⟩ := join_exactly hc items
      · rw [hjoin, readAll_exactly]
      · rw [hjoin, readAll_exactly_cons]

/-- Blanks in front of what a form writes change nothing: they are read by it, or there are none. -/
theorem readAll_trimLeft (hm : m.IsCommon) (fields : Fields) (es : List DateElement) :
    readAll fields (ofElements es) (trimLeft (es.flatMap (DateElement.written m))) =
      readAll fields (ofElements es) (es.flatMap (DateElement.written m)) := by
  cases es with
  | nil => rfl
  | cons e es =>
      cases e with
      | literal c =>
          cases hc : isBlank c with
          | true =>
              have hblanks : ∃ rest, ofElements (.literal c :: es) = .blanks :: rest := by
                obtain ⟨hjoin, rest, hrest⟩ | hjoin := join_blank hc (ofElements es)
                · exact ⟨rest, hjoin.trans hrest⟩
                · exact ⟨_, hjoin⟩
              obtain ⟨rest, hblanks⟩ := hblanks
              rw [hblanks, readAll_blanks, readAll_blanks, trimLeft, trimLeft,
                List.dropWhile_idempotent]
          | false =>
              have htrim := trimLeft_of_not_blank hc (es.flatMap (DateElement.written m))
              exact congrArg (readAll fields (ofElements (.literal c :: es))) htrim
      | field f =>
          have htrim := f.trimLeft_written hm (es.flatMap (DateElement.written m))
          exact congrArg (readAll fields (ofElements (.field f :: es))) htrim

/-- **A form reads back what it writes**: of each field what it says of the moment. -/
theorem readAll_written (hm : m.IsCommon) (hfits : fields.Fits m)
    (hfixed : ∀ f ∈ es.filterMap DateElement.field?, f.IsFixed) :
    readAll fields (ofElements es) (es.flatMap (DateElement.written m)) =
      .ok ((es.filterMap DateElement.field?).foldl (Fields.learn m) fields) := by
  induction es generalizing fields with
  | nil => rfl
  | cons e es ih =>
      cases e with
      | literal c =>
          have hread := readAll_join_literal c (readAll_trimLeft hm fields es)
          exact hread.trans (ih hfits hfixed)
      | field f =>
          have hf : f.IsFixed := hfixed f List.mem_cons_self
          have hread : (DateItem.field f).read fields
              (f.written m ++ es.flatMap (DateElement.written m)) =
              .ok (fields.learn m f, es.flatMap (DateElement.written m)) :=
            f.read_written hm hfits hf _
          have hrest := ih (hfits.learn f) fun g hg => hfixed g (List.mem_cons_of_mem _ hg)
          exact (readAll_cons hread (ofElements es)).trans hrest

end DateItem

/-! ## Formats -/

namespace DateFormat

variable {f : DateFormat} {m : DateTime}

/-- A moment as it is written by a format. -/
def write (f : DateFormat) (m : DateTime) : String :=
  String.ofList (f.elements.flatMap (DateElement.written m))

/-- The fields of a format, in order. -/
def fieldList (f : DateFormat) : List DateField :=
  f.elements.filterMap DateElement.field?

/-- **A format reads back what it writes**, in whatever order its fields are. -/
theorem fields_write (hm : m.IsCommon) {gs : List DateField} (hperm : f.fieldList.Perm gs)
    (hfixed : ∀ g ∈ gs, g.IsFixed) :
    f.fields (f.write m) = .ok (gs.foldl (Fields.learn m) {}) := by
  have hfixed : ∀ g ∈ f.fieldList, g.IsFixed := fun g hg => hfixed g (hperm.mem_iff.mp hg)
  have hread := DateItem.readAll_written hm (Fields.fits_empty m) hfixed
  rw [fields, write, String.toList_ofList, hread]
  exact congrArg Except.ok (Fields.foldl_learn_perm hperm m {})

theorem hasShortYear_iff : f.hasShortYear = true ↔ .shortYear ∈ f.fieldList := by
  rw [hasShortYear, List.contains_iff_mem, fieldList, List.mem_filterMap]
  constructor
  · intro h
    exact ⟨_, h, rfl⟩
  · rintro ⟨e, he, hfield⟩
    cases e with
    | literal c => cases hfield
    | field g =>
        cases hfield
        exact he

end DateFormat

end RecordFilter
