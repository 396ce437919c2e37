/-
# `Proofs.Json.Canonical` — two texts of one value

The order in which the fields of an object are written says nothing, and of several fields of
one name the last counts.  So two values are one as JSON when their canonical forms are equal,
in which the fields stand in ascending order and each name once.  To look up a name there is to
look it up from behind:

    (canonical (object fields)).get? name = (fields.reverse.lookup name).map canonical

and a reader that goes by names needs to know no more of it.
-/
import RecordFilter.Json.Reader
import RecordFilter.Proofs.Predicate.Plan

namespace RecordFilter

/-! ## Equal names -/

theorem Text.eq_of_compareChars_eq {as : List Char} :
    ∀ {bs : List Char}, compareChars as bs = .eq → as = bs := by
  induction as with
  | nil =>
      intro bs h
      cases bs with
      | nil => rfl
      | cons b bs => cases h
  | cons a as ih =>
      intro bs h
      cases bs with
      | nil => cases h
      | cons b bs =>
          rw [compareChars, Ordering.then_eq_eq, Nat.compare_eq_eq] at h
          rw [Char.toNat_inj.mp h.1, ih h.2]

theorem Text.compareText_eq_iff {a b : String} : compareText a b = .eq ↔ a = b := by
  constructor
  · intro h
    exact String.toList_inj.mp (eq_of_compareChars_eq h)
  · rintro rfl
    exact compareChars_self a.toList

namespace Json

variable {name key : String} {value : Json} {fields before : List (String × Json)}

/-! ## Fields in order -/

theorem lookup_cons_eq_ite (fields : List (String × Json)) :
    ((name, value) :: fields).lookup key =
      if key = name then some value else fields.lookup key := by
  rw [List.lookup_cons]
  by_cases h : key = name
  · rw [if_pos h, beq_iff_eq.mpr h]
  · rw [if_neg h, beq_eq_false_iff_ne.mpr h]

@[simp]
theorem lookup_insertField :
    (insertField name value fields).lookup key =
      if key = name then some value else fields.lookup key := by
  induction fields with
  | nil => exact lookup_cons_eq_ite []
  | cons field fields ih =>
      obtain ⟨other, old⟩ := field
      rw [insertField]
      split
      · exact lookup_cons_eq_ite _
      · next heq =>
          rw [Text.compareText_eq_iff] at heq
          rw [lookup_cons_eq_ite, lookup_cons_eq_ite, heq]
          split <;> rfl
      · next hgt =>
          have hne : name ≠ other := by
            intro heq
            rw [Text.compareText_eq_iff.mpr heq] at hgt
            cases hgt
          rw [lookup_cons_eq_ite, lookup_cons_eq_ite, ih]
          by_cases hkey : key = other
          · rw [if_pos hkey, if_pos hkey, if_neg (hkey ▸ hne.symm)]
          · rw [if_neg hkey, if_neg hkey]

theorem lookup_canonicalFields :
    (canonicalFields before fields).lookup key =
      ((fields.reverse.lookup key).map canonical).or (before.lookup key) := by
  induction fields generalizing before with
  | nil => rfl
  | cons field fields ih =>
      obtain ⟨name, value⟩ := field
      rw [canonicalFields, ih, lookup_insertField, List.reverse_cons, List.lookup_append]
      cases fields.reverse.lookup key with
      | some found => rfl
      | none =>
          rw [lookup_cons_eq_ite]
          split <;> rfl

/-- **A name is looked up from behind.** -/
theorem get?_canonical :
    (canonical (object fields)).get? name = (fields.reverse.lookup name).map canonical := by
  rw [canonical, get?, lookup_canonicalFields]
  exact Option.or_none

@[simp]
theorem canonicalItems_eq_map (items : List Json) : canonicalItems items = items.map canonical := by
  induction items with
  | nil => rfl
  | cons item items ih => rw [canonicalItems, ih, List.map_cons]

end Json

end RecordFilter
