/-
# `Proofs.Calendar.Letters` — the letters of a date are the name of its day

A date may be written with the name of its day among its numbers.  Numbers, blanks and other
signs have no letters, so the letters of a text that is read by such a form are the names
that the form has fields for, and nothing else.

`Gathers` says which fields are read from which letters, one after another, and what is
known in the end:

    one field in front of a text                                   (`DateField.of_read`)
    a form to the end of a text                                    (`gathers_of_readAll`)
    each name among the letters is the one of the day in the end   (`Gathers.names`)
-/
import RecordFilter.Proofs.Calendar.Writing
import RecordFilter.Proofs.Outcome

namespace RecordFilter

/-! ## Letters -/

namespace Text

/-- The letters of a text, in lower case. -/
def letters (text : List Char) : List Char :=
  (text.filter Char.isAlpha).map Char.toLower

variable {c : Char} {text name : List Char}

@[simp]
theorem letters_append (text rest : List Char) :
    letters (text ++ rest) = letters text ++ letters rest := by
  rw [letters, List.filter_append, List.map_append]
  rfl

theorem letters_eq_nil (h : ∀ c ∈ text, c.isAlpha = false) : letters text = [] := by
  rw [letters, List.filter_eq_nil_iff.mpr fun c hc => Bool.eq_false_iff.mp (h c hc), List.map_nil]

theorem isAlpha_of_toLower (h : c.toLower.isAlpha = true) : c.isAlpha = true := by
  cases hc : c.isUpper with
  | true => exact Bool.or_eq_true_iff.mpr (.inl hc)
  | false =>
      have hlower : c.toLower = c := dif_neg (of_decide_eq_false hc)
      rwa [hlower] at h

theorem letters_of_map (h : text.map Char.toLower = name) (hname : ∀ c ∈ name, c.isAlpha = true) :
    letters text = name := by
  have hall : ∀ c ∈ text, c.isAlpha = true := fun c hc =>
    isAlpha_of_toLower (hname _ (h ▸ List.mem_map_of_mem hc))
  rw [letters, List.filter_eq_self.mpr hall, h]

theorem isAlpha_iff_toNat : c.isAlpha = true ↔
    (65 ≤ c.toNat ∧ c.toNat ≤ 90) ∨ (97 ≤ c.toNat ∧ c.toNat ≤ 122) := by
  show (decide ('A'.val ≤ c.val ∧ c.val ≤ 'Z'.val) ||
    (decide ('a'.val ≤ c.val) && decide (c.val ≤ 'z'.val))) = true ↔ _
  simp only [Bool.or_eq_true, Bool.and_eq_true, decide_eq_true_eq, UInt32.le_iff_toNat_le]
  exact Iff.rfl

theorem isAlpha_of_isDigit (h : c.isDigit = true) : c.isAlpha = false := by
  have hdigit := toNat_of_isDigit h
  rw [Bool.eq_false_iff, ne_eq, isAlpha_iff_toNat]
  omega

theorem isAlpha_of_isBlank (h : isBlank c = true) : c.isAlpha = false := by
  simp only [isBlank, Bool.or_eq_true, Bool.and_eq_true, decide_eq_true_eq, beq_iff_eq] at h
  rw [Bool.eq_false_iff, ne_eq, isAlpha_iff_toNat]
  omega

@[simp]
theorem letters_trimLeft (text : List Char) : letters (trimLeft text) = letters text := by
  have hblanks : letters (text.takeWhile isBlank) = [] :=
    letters_eq_nil fun c hc => isAlpha_of_isBlank (List.all_eq_true.mp List.all_takeWhile c hc)
  calc letters (trimLeft text)
      = letters (text.takeWhile isBlank) ++ letters (trimLeft text) := by rw [hblanks]; rfl
    _ = letters text := by rw [← letters_append, trimLeft, List.takeWhile_append_dropWhile]

end Text

open Text

/-! ## What is read from a text -/

namespace DateReading

variable {α : Type} {text rest : List Char} {limit n : Nat} {fields : Fields}

theorem of_readInto {set : α → Except DateFault Fields} {reading : DateReading α}
    (h : readInto set reading = .ok (fields, rest)) :
    ∃ value, reading = .ok (value, rest) ∧ set value = .ok fields := by
  cases reading with
  | error e => cases h
  | ok found =>
      obtain ⟨_, hset, hfound⟩ := map_eq_ok_iff.mp h
      cases hfound
      exact ⟨found.1, rfl, hset⟩

theorem letters_of_readDigits (h : readDigits limit text = .ok (n, rest)) :
    letters text = letters rest := by
  cases text with
  | nil => cases h
  | cons c text =>
      simp only [readDigits] at h
      split at h
      · cases h
      · generalize hdigits : ((c :: text).take limit).takeWhile Char.isDigit = digits at h
        cases h
        have hfront : digits <+: c :: text :=
          hdigits ▸ (List.takeWhile_prefix _).trans (List.take_prefix _ _)
        have hnone : letters digits = [] := letters_eq_nil fun c hc =>
          isAlpha_of_isDigit (List.all_eq_true.mp List.all_takeWhile c (hdigits ▸ hc))
        obtain ⟨tail, htail⟩ := hfront
        simp [← htail, hnone]

theorem letters_of_readYear {year : Int} (h : readYear text = .ok (year, rest)) :
    letters text = letters rest := by
  have hsigned : ∀ {sign text}, readSignedYear sign text = .ok (year, rest) →
      letters text = letters rest := by
    intro sign text h
    rw [readSignedYear] at h
    split at h
    · cases h
    · next hread =>
        split at h
        · cases h
        · cases h
          exact letters_of_readDigits hread
  unfold readYear at h
  split at h
  · next rest =>
      have hsign : letters ('-' :: rest) = letters rest := rfl
      exact hsign.trans (hsigned h)
  · next rest =>
      have hsign : letters ('+' :: rest) = letters rest := rfl
      exact hsign.trans (hsigned h)
  · obtain ⟨_, hread, hyear⟩ := map_eq_ok_iff.mp h
    cases hyear
    exact letters_of_readDigits hread

theorem letters_of_starts {name : List Char} (h : startsWithLetters name text = true)
    (hname : ∀ c ∈ name, c.isAlpha = true) :
    letters text = name ++ letters (text.drop name.length) := by
  have hfront : letters (text.take name.length) = name := letters_of_map (beq_iff_eq.mp h) hname
  calc letters text
      = letters (text.take name.length ++ text.drop name.length) := by rw [List.take_append_drop]
    _ = name ++ letters (text.drop name.length) := by rw [letters_append, hfront]

/-- **A name is read from its letters**, or from the first three. -/
theorem of_readName {full : Bool} {names : List (List Char)} {place : Nat}
    (hnames : ∀ name ∈ names, 3 ≤ name.length ∧ ∀ c ∈ name, c.isAlpha = true)
    (h : readName full names text = .ok (place, rest)) :
    ∃ name, names[place]? = some name ∧
      (letters text = name ++ letters rest ∨ letters text = name.take 3 ++ letters rest) := by
  unfold readName at h
  split at h
  · cases h
  · split at h
    · cases h
    · next found hfound =>
        obtain ⟨hplace, hstarts, _⟩ := List.findIdx?_eq_some_iff_getElem.mp hfound
        obtain ⟨hlength, halpha⟩ := hnames _ (List.getElem_mem hplace)
        have hget : names.getD found [] = names[found] := by
          rw [List.getD_eq_getElem?_getD, List.getElem?_eq_getElem hplace, Option.getD_some]
        have hshort : (names[found].take 3).length = 3 := List.length_take_of_le hlength
        have hthree := letters_of_starts hstarts fun c hc => halpha c (List.mem_of_mem_take hc)
        rw [hshort] at hthree
        simp only [hget] at h
        split at h
        · next htail =>
            cases h
            have hrest := letters_of_starts (Bool.and_eq_true_iff.mp htail).2
              fun c hc => halpha c (List.mem_of_mem_drop hc)
            refine ⟨_, List.getElem?_eq_getElem hplace, .inl ?_⟩
            rw [hthree, hrest, ← List.append_assoc, List.take_append_drop]
        · cases h
          exact ⟨_, List.getElem?_eq_getElem hplace, .inr hthree⟩

theorem letters_weekdayNames :
    ∀ name ∈ weekdayNames, 3 ≤ name.length ∧ ∀ c ∈ name, c.isAlpha = true := by
  have hall : ∀ name ∈ weekdayNames, 3 ≤ name.length ∧ name.all Char.isAlpha = true := by decide
  intro name hname
  exact ⟨(hall name hname).1, List.all_eq_true.mp (hall name hname).2⟩

end DateReading

namespace Fields

variable {fields : Fields}

theorem of_setOnce {α : Type} [DecidableEq α] {known found : Option α} {value : α}
    (h : setOnce known value = .ok found) : Knows known value ∧ found = some value := by
  cases known with
  | none => exact ⟨.inl rfl, (Except.ok.inj h).symm⟩
  | some old =>
      by_cases hold : old = value
      · rw [setOnce, if_pos hold] at h
        exact ⟨.inr (congrArg some hold), by rw [← Except.ok.inj h, hold]⟩
      · rw [setOnce, if_neg hold] at h
        cases h

/-- What is set once was not known to be another. -/
theorem of_set {α : Type} [DecidableEq α] {known : Option α} {value : α} (set : Option α → Fields)
    (h : (do return set (← setOnce known value)) = Except.ok fields) :
    Knows known value ∧ fields = set (some value) := by
  obtain ⟨found, hset, h⟩ := bind_eq_ok_iff.mp h
  obtain ⟨hknows, rfl⟩ := of_setOnce hset
  exact ⟨hknows, (Except.ok.inj h).symm⟩

theorem of_within {low high n k : Nat} (h : within low high n = .ok k) :
    (low ≤ n ∧ n ≤ high) ∧ k = n := by
  rw [within] at h
  split at h
  · next hn => exact ⟨hn, (Except.ok.inj h).symm⟩
  · cases h

theorem of_set_within {known : Option Nat} {low high n : Nat} (set : Option Nat → Fields)
    (h : (do let n ← within low high n
             return set (← setOnce known n)) = Except.ok fields) :
    (low ≤ n ∧ n ≤ high) ∧ fields = set (some n) := by
  obtain ⟨k, hk, hset⟩ := bind_eq_ok_iff.mp h
  obtain ⟨hn, rfl⟩ := of_within hk
  exact ⟨hn, (of_set set hset).2⟩

theorem of_setYear {before : Fields} {year : Int} (h : before.setYear year = .ok fields) :
    fields = { before with year := some year } := by
  rw [setYear] at h
  split at h
  · cases h
  · exact (of_set (fun year => { before with year := year }) h).2

end Fields

/-! ## Fields one after another -/

/-- The name of a day of the week, in full or its first three letters. -/
def IsDayName (name : List Char) (day : Nat) : Prop :=
  ∃ full, DateReading.weekdayNames[day]? = some full ∧ (name = full ∨ name = full.take 3)

/-- A field of a date: the year, the month, the day or its name in the week. -/
def DateField.OfDate : DateField → Prop
  | year | shortYear | month | day | weekdayName _ => True
  | _ => False

/-- What a field adds to what is known, and the letters it is read from. -/
inductive DateField.Adds : DateField → Fields → List Char → Fields → Prop
  | year {fields : Fields} (year : Int) : Adds .year fields [] { fields with year := some year }
  | shortYear {fields : Fields} {n : Nat} :
      n ≤ 99 → Adds .shortYear fields [] { fields with yearOfCentury := some n }
  | month {fields : Fields} (n : Nat) : Adds .month fields [] { fields with month := some n }
  | day {fields : Fields} (n : Nat) : Adds .day fields [] { fields with day := some n }
  | weekdayName {fields : Fields} {full : Bool} {name : List Char} {day : Nat} :
      IsDayName name day → Fields.Knows fields.weekday day →
      Adds (.weekdayName full) fields name { fields with weekday := some day }

open DateReading

variable {fields found : Fields} {text rest : List Char}

/-- **A field is read from its letters**, and adds what they say. -/
theorem DateField.of_read {f : DateField} (hf : f.OfDate)
    (h : f.read fields text = .ok (found, rest)) :
    ∃ name, letters text = name ++ letters rest ∧ f.Adds fields name found := by
  have hnumber : ∀ {n : Nat}, readDigits 2 (trimLeft text) = .ok (n, rest) →
      letters text = [] ++ letters rest := fun hread =>
    (letters_trimLeft text).symm.trans (letters_of_readDigits hread)
  cases f with
  | year =>
      obtain ⟨year, hread, hset⟩ := of_readInto h
      rw [Fields.of_setYear hset]
      exact ⟨[], (letters_trimLeft text).symm.trans (letters_of_readYear hread), .year year⟩
  | shortYear =>
      obtain ⟨n, hread, hset⟩ := of_readInto h
      obtain ⟨hn, rfl⟩ := Fields.of_set_within (fun n => { fields with yearOfCentury := n }) hset
      exact ⟨[], hnumber hread, .shortYear hn.2⟩
  | month =>
      obtain ⟨n, hread, hset⟩ := of_readInto h
      obtain ⟨_, rfl⟩ := Fields.of_set_within (fun n => { fields with month := n }) hset
      exact ⟨[], hnumber hread, .month n⟩
  | day =>
      obtain ⟨n, hread, hset⟩ := of_readInto h
      obtain ⟨_, rfl⟩ := Fields.of_set_within (fun n => { fields with day := n }) hset
      exact ⟨[], hnumber hread, .day n⟩
  | weekdayName full =>
      obtain ⟨place, hread, hset⟩ := of_readInto h
      obtain ⟨hknows, rfl⟩ := Fields.of_set (fun n => { fields with weekday := n }) hset
      obtain ⟨name, hplace, hname | hname⟩ := of_readName letters_weekdayNames hread
      · exact ⟨name, hname, .weekdayName ⟨name, hplace, .inl rfl⟩ hknows⟩
      · exact ⟨name.take 3, hname, .weekdayName ⟨name, hplace, .inr rfl⟩ hknows⟩
  | _ => exact hf.elim

namespace DateItem

/-- The field of an item. -/
def field? : DateItem → Option DateField
  | field f => some f
  | _ => none

/-- Characters of an item that are no letters. -/
def Unlettered : DateItem → Prop
  | exactly text => ∀ c ∈ text, c.isAlpha = false
  | _ => True

theorem of_read_exactly {front : List Char}
    (h : (exactly front).read fields text = .ok (found, rest)) :
    found = fields ∧ text = front ++ rest := by
  rw [read] at h
  split at h
  · cases h
  · split at h
    · next hfront =>
        cases h
        refine ⟨rfl, ?_⟩
        calc text = text.take front.length ++ text.drop front.length :=
              (List.take_append_drop front.length text).symm
          _ = front ++ text.drop front.length := by rw [hfront]
    · cases h

end DateItem

/-- Fields that are read one after another, and the letters of all of them. -/
inductive Gathers : List DateField → Fields → List Char → Fields → Prop
  | nil {fields : Fields} : Gathers [] fields [] fields
  | cons {f : DateField} {fs : List DateField} {fields next found : Fields}
      {name letters : List Char} :
      f.Adds fields name next → Gathers fs next letters found →
      Gathers (f :: fs) fields (name ++ letters) found

/-- **A text that is read has the letters of the fields, and no others.** -/
theorem gathers_of_readAll {items : List DateItem} (hitems : ∀ item ∈ items, item.Unlettered)
    (hfields : ∀ f ∈ items.filterMap DateItem.field?, f.OfDate)
    (h : DateItem.readAll fields items text = .ok found) :
    Gathers (items.filterMap DateItem.field?) fields (letters text) found := by
  induction items generalizing fields text with
  | nil =>
      rw [DateItem.readAll] at h
      split at h
      · next hempty =>
          cases h
          rw [List.isEmpty_iff.mp hempty]
          exact .nil
      · cases h
  | cons item items ih =>
      rw [DateItem.readAll] at h
      split at h
      · cases h
      · next next rest hread =>
          have hitems' : ∀ item ∈ items, item.Unlettered := fun item hitem =>
            hitems item (List.mem_cons_of_mem _ hitem)
          cases item with
          | blanks =>
              cases hread
              rw [← letters_trimLeft text]
              exact ih hitems' hfields h
          | exactly front =>
              obtain ⟨rfl, rfl⟩ := DateItem.of_read_exactly hread
              rw [letters_append, letters_eq_nil (hitems _ List.mem_cons_self)]
              exact ih hitems' hfields h
          | field f =>
              obtain ⟨name, hname, hadds⟩ := f.of_read (hfields f List.mem_cons_self) hread
              rw [hname]
              exact .cons hadds (ih hitems' (fun g hg => hfields g (List.mem_cons_of_mem _ hg)) h)

namespace DateItem

variable {c : Char}

@[simp]
theorem field?_join_literal (c : Char) (items : List DateItem) :
    (join (.literal c) items).filterMap field? = items.filterMap field? := by
  cases hc : isBlank c with
  | true =>
      obtain ⟨hjoin, _⟩ | hjoin := join_blank hc items
      · rw [hjoin]
      · rw [hjoin]
        rfl
  | false =>
      obtain hjoin | ⟨front, rest, rfl, hjoin⟩ := join_exactly hc items
      · rw [hjoin]
        rfl
      · rw [hjoin]
        rfl

@[simp]
theorem field?_ofElements (es : List DateElement) :
    (ofElements es).filterMap field? = es.filterMap DateElement.field? := by
  induction es with
  | nil => rfl
  | cons e es ih =>
      cases e with
      | literal c => exact (field?_join_literal c (ofElements es)).trans ih
      | field f => exact congrArg (f :: ·) ih

theorem unlettered_ofElements {es : List DateElement}
    (hes : ∀ c, .literal c ∈ es → c.isAlpha = false) :
    ∀ item ∈ ofElements es, item.Unlettered := by
  induction es with
  | nil => exact nofun
  | cons e es ih =>
      have hrest := ih fun c hc => hes c (List.mem_cons_of_mem _ hc)
      cases e with
      | field f => exact List.forall_mem_cons.mpr ⟨trivial, hrest⟩
      | literal c =>
          have hliteral := hes c List.mem_cons_self
          show ∀ item ∈ join (.literal c) (ofElements es), item.Unlettered
          cases hc : isBlank c with
          | true =>
              obtain ⟨hjoin, _⟩ | hjoin := join_blank hc (ofElements es)
              · rwa [hjoin]
              · rw [hjoin]
                exact List.forall_mem_cons.mpr ⟨trivial, hrest⟩
          | false =>
              obtain hjoin | ⟨front, rest, hitems, hjoin⟩ := join_exactly hc (ofElements es)
              · rw [hjoin]
                exact List.forall_mem_cons.mpr ⟨by simpa [Unlettered] using hliteral, hrest⟩
              · rw [hitems] at hrest
                obtain ⟨hfront, hrest⟩ := List.forall_mem_cons.mp hrest
                rw [hjoin]
                exact List.forall_mem_cons.mpr
                  ⟨List.forall_mem_cons.mpr ⟨hliteral, hfront⟩, hrest⟩

end DateItem

/-! ## What is gathered -/

/-- A field for the name of the day. -/
def DateField.isWeekdayName : DateField → Bool
  | weekdayName _ => true
  | _ => false

namespace Gathers

variable {fs : List DateField} {letters : List Char}

theorem weekday_eq (h : Gathers fs fields letters found) {day : Nat}
    (hday : fields.weekday = some day) : found.weekday = some day := by
  induction h with
  | nil => exact hday
  | cons hadds _ ih =>
      cases hadds with
      | weekdayName _ hknows =>
          refine ih ?_
          obtain hnone | hsome := hknows
          · rw [hnone] at hday
            cases hday
          · exact hsome.symm.trans hday
      | _ => exact ih hday

/-- **The letters are names of the day in the end**, one for each field that asks for it. -/
theorem names (h : Gathers fs fields letters found) :
    ∃ names : List (List Char), letters = names.flatten ∧
      names.length = fs.countP DateField.isWeekdayName ∧
      ∀ name ∈ names, ∃ day, found.weekday = some day ∧ IsDayName name day := by
  induction h with
  | nil => exact ⟨[], rfl, rfl, nofun⟩
  | cons hadds hrest ih =>
      obtain ⟨names, hletters, hlength, hnames⟩ := ih
      cases hadds with
      | weekdayName hname _ =>
          refine ⟨_ :: names, ?_, ?_, List.forall_mem_cons.mpr ⟨⟨_, hrest.weekday_eq rfl, hname⟩, hnames⟩⟩
          · rw [hletters]
            rfl
          · rw [List.length_cons, hlength, List.countP_cons_of_pos rfl]
      | _ =>
        exact ⟨names, hletters, by rw [hlength, List.countP_cons_of_neg Bool.false_ne_true], hnames⟩

/-- With one field for the name of the day, the letters are that name. -/
theorem name (h : Gathers fs fields letters found)
    (hone : fs.countP DateField.isWeekdayName = 1) :
    ∃ day, found.weekday = some day ∧ IsDayName letters day := by
  obtain ⟨names, rfl, hlength, hnames⟩ := h.names
  obtain ⟨name, rfl⟩ := List.length_eq_one_iff.mp (hlength.trans hone)
  rw [List.flatten_singleton]
  exact hnames name List.mem_cons_self

theorem year_eq_none (h : Gathers fs fields letters found) (hfs : .year ∉ fs)
    (hnone : fields.year = none) : found.year = none := by
  induction h with
  | nil => exact hnone
  | cons hadds _ ih =>
      have hrest := ih fun hyear => hfs (List.mem_cons_of_mem _ hyear)
      cases hadds with
      | year => exact absurd List.mem_cons_self hfs
      | _ => exact hrest hnone

theorem yearOfCentury_le (h : Gathers fs fields letters found)
    (hle : ∀ n, fields.yearOfCentury = some n → n ≤ 99) {n : Nat}
    (hn : found.yearOfCentury = some n) : n ≤ 99 := by
  induction h with
  | nil => exact hle n hn
  | cons hadds _ ih =>
      refine ih ?_ hn
      cases hadds with
      | shortYear hshort =>
          intro n hn
          cases hn
          exact hshort
      | _ => exact hle

end Gathers

end RecordFilter
