/-
# Reading dates

A form is a list of elements: characters that must stand in the text, and fields to be read. For
reading, neighbouring characters are put together into items: a run of blanks, which any number of
blanks matches, or a run of others, which must stand in the text as it is.
-/
import RecordFilter.Calendar.Fields
import RecordFilter.Text.Basic
import RecordFilter.Text.Blank

namespace RecordFilter

/-! ## Forms -/

/-- A part of a date that is read from a text. -/
inductive DateField where
  /-- up to four digits, or any number of them behind a sign -/
  | year
  /-- the last two digits of the year -/
  | shortYear
  | month
  /-- the English name of the month, of three letters or in full -/
  | monthName (full : Bool)
  | day
  /-- the English name of the day of the week, of three letters or in full -/
  | weekdayName (full : Bool)
  | hour
  /-- the hour of the half day, 1 to 12 -/
  | halfDayHour
  /-- `am` or `pm` -/
  | halfDay
  | minute
  | second
  /-- the fraction of the second in so many digits, without a point -/
  | places (count : Nat)
  /-- a point and the fraction of the second in any number of digits, or nothing -/
  | fraction
deriving DecidableEq

/-- One element of the form of a date. -/
inductive DateElement where
  | literal (c : Char)
  | field (f : DateField)
deriving DecidableEq

/-- What is looked for in a text at once. -/
inductive DateItem where
  /-- any number of blanks, also none -/
  | blanks
  /-- just these characters -/
  | exactly (text : List Char)
  | field (f : DateField)
deriving DecidableEq

/-- Puts an element in front of items. Blanks join blanks, and characters join characters; a percent
sign stays alone. -/
def DateItem.join (e : DateElement) (items : List DateItem) : List DateItem :=
  match e with
  | .field f => .field f :: items
  | .literal c =>
    if Text.isBlank c then
      match items with
      | .blanks :: _ => items
      | _ => .blanks :: items
    else if c = '%' then .exactly ['%'] :: items
    else match items with
      | .exactly text :: rest =>
        if text = ['%'] then .exactly [c] :: items else .exactly (c :: text) :: rest
      | _ => .exactly [c] :: items

/-- The items of a form. -/
def DateItem.ofElements (elements : List DateElement) : List DateItem :=
  elements.foldr DateItem.join []

/-! ## Reading the parts -/

/-- What has been read of a date, and the text left. -/
abbrev DateReading (α : Type) := Except DateFault (α × List Char)

namespace DateReading

/-- Reads at least one digit and at most `limit`. -/
def readDigits (limit : Nat) (text : List Char) : DateReading Nat :=
  match text with
  | [] => .error .tooShort
  | c :: _ =>
    if !c.isDigit then .error .invalid
    else
      let digits := (text.take limit).takeWhile Char.isDigit
      .ok (digits.foldl (fun n c => n * 10 + (c.toNat - '0'.toNat)) 0, text.drop digits.length)

/-- Reads just `count` digits. -/
def readPlaces (count : Nat) (text : List Char) : DateReading Nat :=
  if Text.byteSize text < count then .error .tooShort
  else
    let digits := (text.take count).takeWhile Char.isDigit
    if digits.length < count then .error .invalid
    else .ok (digits.foldl (fun n c => n * 10 + (c.toNat - '0'.toNat)) 0, text.drop count)

/-- The greatest number of a word of 64 bits with a sign. -/
def greatestWord : Nat := twoTo 63 - 1

/-- Reads the digits behind the sign of a year. -/
def readSignedYear (sign : Int) (text : List Char) : DateReading Int :=
  match readDigits text.length text with
  | .error e => .error e
  | .ok (n, rest) => if greatestWord < n then .error .outOfRange else .ok (sign * n, rest)

/-- Reads a year: up to four digits, or a sign and any number of them. -/
def readYear (text : List Char) : DateReading Int :=
  match text with
  | '-' :: rest => readSignedYear (-1) rest
  | '+' :: rest => readSignedYear 1 rest
  | _ => (readDigits 4 text).map fun (n, rest) => ((n : Int), rest)

/-- Reads a fraction of a second behind its point, as nanoseconds: nine digits count, and further
ones are skipped. -/
def readFractionDigits (text : List Char) : DateReading Nat :=
  (readDigits 9 text).map fun (n, rest) =>
    (n * tenTo (9 - (text.length - rest.length)), rest.dropWhile Char.isDigit)

/-- Whether a text begins with letters of either case. -/
def startsWithLetters (letters text : List Char) : Bool :=
  (text.take letters.length).map Char.toLower == letters

/-- Reads one of several names of three letters, and with it the rest of its full name if `full` is
set and that rest follows. Answers its place among the names. -/
def readName (full : Bool) (names : List (List Char)) (text : List Char) : DateReading Nat :=
  if Text.byteSize text < 3 then .error .tooShort
  else match names.findIdx? (fun name => startsWithLetters (name.take 3) text) with
    | none => .error .invalid
    | some place =>
      let rest := text.drop 3
      let tail := (names.getD place []).drop 3
      .ok (place,
        if full && startsWithLetters tail rest then rest.drop tail.length else rest)

def monthNames : List (List Char) :=
  ["january", "february", "march", "april", "may", "june", "july", "august", "september",
    "october", "november", "december"].map String.toList

def weekdayNames : List (List Char) :=
  ["monday", "tuesday", "wednesday", "thursday", "friday", "saturday", "sunday"].map String.toList

/-- Reads `am` as 0 and `pm` as 1. -/
def readHalfDay (text : List Char) : DateReading Nat :=
  if Text.byteSize text < 2 then .error .tooShort
  else if startsWithLetters ['a', 'm'] text then .ok (0, text.drop 2)
  else if startsWithLetters ['p', 'm'] text then .ok (1, text.drop 2)
  else .error .invalid

/-- Sets a field to what `read` finds. -/
def readInto {α : Type} (set : α → Except DateFault Fields) (reading : DateReading α) :
    DateReading Fields :=
  match reading with
  | .error e => .error e
  | .ok (value, rest) => (set value).map (·, rest)

end DateReading

open DateReading

/-- Reads one field. Numbers may have blanks in front. -/
def DateField.read (f : DateField) (fields : Fields) (text : List Char) : DateReading Fields :=
  let number (limit : Nat) := readDigits limit (Text.trimLeft text)
  match f with
  | year => readInto fields.setYear (readYear (Text.trimLeft text))
  | shortYear => readInto fields.setYearOfCentury (number 2)
  | month => readInto fields.setMonth (number 2)
  | monthName full => readInto (fun n => fields.setMonth (n + 1)) (readName full monthNames text)
  | day => readInto fields.setDay (number 2)
  | weekdayName full => readInto fields.setWeekday (readName full weekdayNames text)
  | hour => readInto fields.setHour (number 2)
  | halfDayHour => readInto fields.setHalfDayHour (number 2)
  | halfDay => readInto fields.setHalfDay (readHalfDay text)
  | minute => readInto fields.setMinute (number 2)
  | second => readInto fields.setSecond (number 2)
  | places count =>
    readInto (fun n => fields.setNano (n * tenTo (9 - count))) (readPlaces count text)
  | fraction =>
    match text with
    | '.' :: rest => readInto fields.setNano (readFractionDigits rest)
    | _ => .ok (fields, text)

/-- Reads one item. -/
def DateItem.read (item : DateItem) (fields : Fields) (text : List Char) : DateReading Fields :=
  match item with
  | blanks => .ok (fields, Text.trimLeft text)
  | exactly letters =>
    if Text.byteSize text < Text.byteSize letters then .error .tooShort
    else if text.take letters.length = letters then .ok (fields, text.drop letters.length)
    else .error .invalid
  | field f => f.read fields text

/-- Reads items to the end of the text. -/
def DateItem.readAll (fields : Fields) : List DateItem → List Char → Except DateFault Fields
  | [], text => if text.isEmpty then .ok fields else .error .tooLong
  | item :: items, text =>
    match item.read fields text with
    | .error e => .error e
    | .ok (fields, rest) => DateItem.readAll fields items rest

/-! ## Stored dates -/

/-- A date as it is stored, `2024-03-01`. Blanks are allowed behind each number. -/
def DateItem.storedDate : List DateItem :=
  [.field .year, .blanks, .exactly ['-'], .field .month, .blanks, .exactly ['-'], .field .day,
    .blanks]

/-- A time of day as it is stored, `10:20:30.456`, when `gap` may stand behind hour and minute. -/
def DateItem.storedTime (gap : List DateItem) : List DateItem :=
  [.field .hour] ++ gap ++ [.exactly [':'], .field .minute] ++ gap ++
    [.exactly [':'], .field .second, .field .fraction]

/-- A moment as it is stored, `2024-03-01T10:20:30.456`. -/
def DateItem.storedDateTime : List DateItem :=
  DateItem.storedDate ++ [.exactly ['T']] ++ DateItem.storedTime [.blanks] ++ [.blanks]

/-- The other form in which a moment may be stored, `2024-03-01 10:20:30.456`. -/
def DateItem.spacedDateTime : List DateItem :=
  [.field .year, .exactly ['-'], .field .month, .exactly ['-'], .field .day, .blanks] ++
    DateItem.storedTime []

/-- Reads a stored moment. -/
def DateTime.ofStored? (text : String) : Option DateTime :=
  let read (items : List DateItem) : Option DateTime :=
    match DateItem.readAll {} items text.toList with
    | .ok fields => fields.dateTime.toOption
    | .error _ => none
  (read DateItem.storedDateTime).or (read DateItem.spacedDateTime)

/-- Reads a stored date, also from a stored moment. -/
def Date.ofStored? (text : String) : Option Date :=
  let date : Option Date :=
    match DateItem.readAll {} DateItem.storedDate text.toList with
    | .ok fields => fields.date.toOption
    | .error _ => none
  date.or ((DateTime.ofStored? text).map (·.date))

end RecordFilter
