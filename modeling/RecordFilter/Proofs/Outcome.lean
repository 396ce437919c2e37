/-
# `Proofs.Outcome` — outcomes up to the error

Two ways to the same result may fail with different messages.  `Except.toOption`
forgets the error, and with it outcomes are compared by equations: what a map or
a sequence of steps gives is given by the outcomes of the parts.  `errorOf` is the
other half.
-/

namespace RecordFilter

variable {ε α β : Type}

@[simp]
theorem toOption_eq_some_iff {x : Except ε α} {a : α} : x.toOption = some a ↔ x = .ok a := by
  cases x with
  | error e =>
      constructor
      · intro h
        cases h
      · intro h
        cases h
  | ok b =>
      constructor
      · intro h
        cases h
        rfl
      · intro h
        cases h
        rfl

@[simp]
theorem ok_bind (a : α) (f : α → Except ε β) : (.ok a : Except ε α) >>= f = f a := rfl

@[simp]
theorem error_bind (e : ε) (f : α → Except ε β) : (.error e : Except ε α) >>= f = .error e := rfl

@[simp]
theorem toOption_map (f : α → β) (x : Except ε α) : (x.map f).toOption = x.toOption.map f := by
  cases x <;> rfl

@[simp]
theorem toOption_bind (x : Except ε α) (f : α → Except ε β) :
    (x >>= f).toOption = x.toOption.bind fun a => (f a).toOption := by
  cases x <;> rfl

@[simp]
theorem toOption_mapError {ε' : Type} (f : ε → ε') (x : Except ε α) :
    (x.mapError f).toOption = x.toOption := by
  cases x <;> rfl

theorem map_eq_ok_iff {f : α → β} {x : Except ε α} {b : β} :
    x.map f = .ok b ↔ ∃ a, x = .ok a ∧ f a = b := by
  simp only [← toOption_eq_some_iff, toOption_map, Option.map_eq_some_iff]

theorem bind_eq_ok_iff {x : Except ε α} {f : α → Except ε β} {b : β} :
    x >>= f = .ok b ↔ ∃ a, x = .ok a ∧ f a = .ok b := by
  simp only [← toOption_eq_some_iff, toOption_bind, Option.bind_eq_some_iff]

/-- The error of an outcome that has one. -/
def errorOf : Except ε α → Option ε
  | .error e => some e
  | .ok _ => none

@[simp]
theorem errorOf_eq_some_iff {x : Except ε α} {e : ε} : errorOf x = some e ↔ x = .error e := by
  cases x with
  | error e' =>
      constructor
      · intro h
        cases h
        rfl
      · intro h
        cases h
        rfl
  | ok a =>
      constructor
      · intro h
        cases h
      · intro h
        cases h

@[simp]
theorem errorOf_map (f : α → β) (x : Except ε α) : errorOf (x.map f) = errorOf x := by
  cases x <;> rfl

theorem map_eq_error_iff {f : α → β} {x : Except ε α} {e : ε} :
    x.map f = .error e ↔ x = .error e := by
  rw [← errorOf_eq_some_iff, errorOf_map, errorOf_eq_some_iff]

theorem errorOf_eq_none_iff {x : Except ε α} : errorOf x = none ↔ ∃ a, x = .ok a := by
  cases x with
  | error e =>
      constructor
      · intro h
        cases h
      · rintro ⟨_, h⟩
        cases h
  | ok a => exact ⟨fun _ => ⟨a, rfl⟩, fun _ => rfl⟩

/-- The first error among several outcomes: all in front of it are none. -/
theorem findSome?_errorOf_eq_some_iff {f : α → Except ε β} {as : List α} {e : ε} :
    (as.findSome? fun a => errorOf (f a)) = some e ↔
      ∃ front a back, as = front ++ a :: back ∧ (∀ other ∈ front, ∃ b, f other = .ok b) ∧
        f a = .error e := by
  rw [List.findSome?_eq_some_iff]
  constructor
  · rintro ⟨front, a, back, has, ha, hfront⟩
    exact ⟨front, a, back, has, fun other hother => errorOf_eq_none_iff.mp (hfront other hother),
      errorOf_eq_some_iff.mp ha⟩
  · rintro ⟨front, a, back, has, hfront, ha⟩
    exact ⟨front, a, back, has, errorOf_eq_some_iff.mpr ha,
      fun other hother => errorOf_eq_none_iff.mpr (hfront other hother)⟩

end RecordFilter
