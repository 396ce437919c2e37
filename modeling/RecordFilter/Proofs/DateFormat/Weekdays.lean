/-
# `Proofs.DateFormat.Weekdays` — names of days and the dates they come with

A format with a day, a month, a year and the name of the day of the week says the day twice.
The two are compared while the fields are put together, and that is before a year of two
digits is moved to this century.  Up to 2069 nothing is moved, and a year of four digits
never is: a date is read back from what is written of it, and a date that is read falls on
the day that its text names.

From 2070 on the date that is compared lies a hundred years before, and those are one day
short of whole weeks.  So it is compared with the next day of the week: what is written of
such a date is refused, and the texts that are read name the day after
(`weekday_names_agree`).
-/
import RecordFilter.Proofs.Calendar.Letters
import RecordFilter.Proofs.DateFormat.Century

namespace RecordFilter

/-- The moment in which a date begins. -/
def Date.midnight (d : Date) : DateTime := ⟨d, ⟨0, 0, 0, 0⟩⟩

/-- A text names a day of the week, in full or by its first three letters, if it has no other
letters. -/
def Text.NamesDay (text : String) (day : Nat) : Prop :=
  IsDayName (letters text.toList) day

/-- The fields of a date with the name of its day. -/
def DateField.ofNamedDate (full short : Bool) : List DateField :=
  [.weekdayName full, .day, .month, .ofYear short]

variable {full short : Bool} {d : Date} {name : List Char} {text : String}

theorem IsDayName.unique {day other : Nat} (h : IsDayName name day) (hother : IsDayName name other) :
    day = other := by
  -- the first three letters are enough
  have hthree : ∀ {place}, IsDayName name place →
      (DateReading.weekdayNames.map (·.take 3))[place]? = some (name.take 3) := by
    rintro place ⟨full, hplace, rfl | rfl⟩
    · rw [List.getElem?_map, hplace, Option.map_some]
    · rw [List.getElem?_map, hplace, Option.map_some, List.take_take, Nat.min_self]
  have hnodup : (DateReading.weekdayNames.map (·.take 3)).Nodup := by decide
  obtain ⟨hday, _⟩ := List.getElem?_eq_some_iff.mp (hthree h)
  exact (List.getElem?_inj hday hnodup).mp ((hthree h).trans (hthree hother).symm)

theorem Date.isCommon_midnight (hd : d.exists?) (hspan : DateField.SpansYear short d.year) :
    d.midnight.IsCommon := by
  have htime : d.midnight.time.Regular := by
    constructor <;> exact Nat.succ_pos _
  exact ⟨⟨⟨hd, htime⟩, rfl⟩, hspan.common⟩

namespace DateFormat

variable {f : DateFormat}

theorem hasShortYear_of_namedDate (hfields : f.fieldList.Perm (DateField.ofNamedDate full short)) :
    f.hasShortYear = short := by
  rw [hasShortYear_of_perm hfields]
  cases short <;> rfl

theorem readDate_write (hfields : f.fieldList.Perm (DateField.ofNamedDate full short))
    (hd : d.exists?) (hspan : DateField.SpansYear short d.year) :
    f.readDate (f.write d.midnight) =
      if d.weekday = (d.unmoved short).weekday then .ok d else .error .impossible := by
  have hfixed : ∀ g ∈ DateField.ofNamedDate full short, g.IsFixed := by
    cases short <;> simp [DateField.ofNamedDate, DateField.ofYear, DateField.IsFixed]
  have hread := fields_write (Date.isCommon_midnight hd hspan) hfields hfixed
  have hmoved := thisCentury_unmoved (hasShortYear_of_namedDate hfields) hd hspan
  have hdate : ((DateField.ofNamedDate full short).foldl (Fields.learn d.midnight) {}).date =
      if d.weekday == (d.unmoved short).weekday then .ok (d.unmoved short)
      else .error .impossible := by
    rw [Fields.date_of_year hd hspan]
    all_goals cases short <;> rfl
  rw [readDate_eq hread, hdate]
  by_cases hday : d.weekday = (d.unmoved short).weekday
  · rw [if_pos (beq_iff_eq.mpr hday), if_pos hday]
    exact congrArg Except.ok hmoved
  · rw [if_neg (fun h => hday (beq_iff_eq.mp h)), if_neg hday]
    rfl

theorem of_readDate (h : f.readDate text = .ok d) : ∃ found read, f.fields text = .ok found ∧
    found.date = .ok read ∧ f.thisCentury read = d := by
  obtain ⟨found, hfields, hdate⟩ := bind_eq_ok_iff.mp h
  obtain ⟨read, hread, hmoved⟩ := bind_eq_ok_iff.mp hdate
  exact ⟨found, read, hfields, hread, Except.ok.inj hmoved⟩

/-- The fields of a format are gathered from the letters of a text, if no others are literal. -/
theorem gathers_of_fields {found : Fields} (hdated : ∀ g ∈ f.fieldList, g.OfDate)
    (hliterals : ∀ c, .literal c ∈ f.elements → c.isAlpha = false)
    (h : f.fields text = .ok found) : Gathers f.fieldList {} (Text.letters text.toList) found := by
  have hfields : (DateItem.ofElements f.elements).filterMap DateItem.field? = f.fieldList :=
    DateItem.field?_ofElements f.elements
  rw [← hfields] at hdated ⊢
  exact gathers_of_readAll (DateItem.unlettered_ofElements hliterals) hdated h

/-- The date that is compared is the one that comes of it, before it is moved. -/
theorem unmoved_of_gathers {found : Fields} {read : Date} {letters : List Char}
    (hfields : f.fieldList.Perm (DateField.ofNamedDate full short))
    (hgathers : Gathers f.fieldList {} letters found) (hexists : read.exists?)
    (hyear : found.fullYear = .ok (some read.year)) (hmoved : f.thisCentury read = d) :
    d.unmoved short = read ∧ (short = true → d.InThisCentury) := by
  have hcentury := hasShortYear_of_namedDate hfields
  subst hmoved
  cases short with
  | false => exact ⟨thisCentury_of_full hcentury read, nofun⟩
  | true =>
      have hnone : found.year = none := by
        refine hgathers.year_eq_none ?_ rfl
        rw [hfields.mem_iff]
        simp [DateField.ofNamedDate, DateField.ofYear]
      have hshort := Fields.year_of_short hnone (fun n => hgathers.yearOfCentury_le nofun) hyear
      obtain ⟨hshortened, hthis⟩ := shortened_thisCentury hcentury hexists hshort
      exact ⟨hshortened, fun _ => hthis⟩

/-- **A text that is read names the day of the date that is compared.** -/
theorem namesDay_of_readDate (hfields : f.fieldList.Perm (DateField.ofNamedDate full short))
    (hliterals : ∀ c, .literal c ∈ f.elements → c.isAlpha = false)
    (h : f.readDate text = .ok d) :
    Text.NamesDay text (d.unmoved short).weekday ∧ (short = true → d.InThisCentury) := by
  obtain ⟨found, read, hread, hdate, hmoved⟩ := of_readDate h
  obtain ⟨hyear, hexists, hweekday⟩ := Fields.of_date_eq_ok hdate
  have hdated : ∀ g ∈ DateField.ofNamedDate full short, g.OfDate := by
    cases short <;> simp [DateField.ofNamedDate, DateField.ofYear, DateField.OfDate]
  have hone : f.fieldList.countP DateField.isWeekdayName = 1 := by
    rw [hfields.countP_eq]
    cases short <;> rfl
  have hgathers :=
    gathers_of_fields (fun g hg => hdated g (hfields.mem_iff.mp hg)) hliterals hread
  obtain ⟨hunmoved, hthis⟩ := unmoved_of_gathers hfields hgathers hexists hyear hmoved
  obtain ⟨day, hday, hname⟩ := hgathers.name hone
  rw [hday, Option.all_some, beq_iff_eq] at hweekday
  rw [hunmoved, ← hweekday]
  exact ⟨hname, hthis⟩

end DateFormat

/-- **Names of days agree with the dates they come with**, up to 2069 or with four digits of the
year: a date is read back from what is written of it, and a date that is read falls on the day that
its text names.  From 2070 on, with two digits of the year, what is written of a date is refused, and
a text that is read names the day after. -/
theorem weekday_names_agree (f : DateFormat) (full short : Bool)
    (hfields : f.fieldList.Perm (DateField.ofNamedDate full short))
    (hliterals : ∀ c, .literal c ∈ f.elements → c.isAlpha = false) :
    (∀ d : Date, d.exists? → DateField.SpansYear short d.year →
        f.readDate (f.write d.midnight) =
          if short = true ∧ 2070 ≤ d.year then .error .impossible else .ok d) ∧
      ∀ text d, f.readDate text = .ok d → ∀ day, Text.NamesDay text day ↔
        day = if short = true ∧ 2070 ≤ d.year then (d.weekday + 1) % 7 else d.weekday := by
  constructor
  · intro d hd hspan
    have hthis : short = true → d.InThisCentury := by
      rintro rfl
      exact hspan
    rw [DateFormat.readDate_write hfields hd hspan, Date.weekday_unmoved hthis]
    by_cases hlate : short = true ∧ 2070 ≤ d.year
    · have hnext : ¬ d.weekday = (d.weekday + 1) % 7 := by
        have hlt := d.weekday_lt
        omega
      rw [if_pos hlate, if_pos hlate, if_neg hnext]
    · rw [if_neg hlate, if_neg hlate, if_pos rfl]
  · intro text d h day
    obtain ⟨hnamed, hthis⟩ := DateFormat.namesDay_of_readDate hfields hliterals h
    rw [Date.weekday_unmoved hthis] at hnamed
    constructor
    · exact fun hday => IsDayName.unique hday hnamed
    · rintro rfl
      exact hnamed

/-- The day by its name in short, and two digits of the year. -/
def DateFormat.named : DateFormat where
  pattern := "EEE dd.MM.yy"
  elements := [.field (.weekdayName false), .literal ' ', .field .day, .literal '.', .field .month,
    .literal '.', .field .shortYear]

theorem DateFormat.ofPattern_named : ofPattern "EEE dd.MM.yy" = .ok named :=
  toOption_eq_some_iff.mp (by decide +kernel)

/-- A Friday in 2024. -/
theorem weekday_names_agree_friday :
    DateFormat.ofPattern "EEE dd.MM.yy" = .ok DateFormat.named ∧
      DateFormat.named.fieldList = DateField.ofNamedDate false true ∧
      DateFormat.named.readDate "Fri 01.03.24" = .ok ⟨2024, 3, 1⟩ ∧
      ∀ day, Text.NamesDay "Fri 01.03.24" day ↔ day = 4 := by
  have hliterals : ∀ c, .literal c ∈ DateFormat.named.elements → c.isAlpha = false := by
    simp [DateFormat.named]
  obtain ⟨hwritten, hnamed⟩ :=
    weekday_names_agree DateFormat.named false true (.refl _) hliterals
  have hread := hwritten ⟨2024, 3, 1⟩ (by decide) ⟨by decide, by decide⟩
  exact ⟨DateFormat.ofPattern_named, rfl, hread, hnamed _ _ hread⟩

/-- The first of March in 2085 is a Thursday.  It is refused as one, and read as a Friday. -/
theorem thursday_read_as_friday :
    DateFormat.ofPattern "EEE dd.MM.yy" = .ok DateFormat.named ∧
      (⟨2085, 3, 1⟩ : Date).weekday = 3 ∧
      DateFormat.named.write (Date.midnight ⟨2085, 3, 1⟩) = "Thu 01.03.85" ∧
      DateFormat.named.readDate "Thu 01.03.85" = .error .impossible ∧
      DateFormat.named.readDate "Fri 01.03.85" = .ok ⟨2085, 3, 1⟩ :=
  ⟨DateFormat.ofPattern_named, by decide, by decide, rfl, rfl⟩

end RecordFilter
