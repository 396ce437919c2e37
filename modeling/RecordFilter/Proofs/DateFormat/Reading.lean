/-
# `Proofs.DateFormat.Reading` — what a date pattern says

A pattern is read from left to right.  Two apostrophes side by side are one that stands
for itself, wherever they are; any other apostrophe opens or closes a quoted stretch.
Outside of quotes equal letters side by side stand for a field, as many of them as there
are, and every other character stands for itself.  `DatePattern.Reads` says so rule by
rule, with one character of look-ahead where a stretch or a run of letters ends, and
`DatePattern.Describes` says which elements the runs come to.

    a pattern is read in just the way its quotes are undone    (`reads_iff`)
    its runs give the elements they describe                   (`addRuns_eq_ok_iff`)
    the elements of a pattern are the described ones           (`elements_eq_ok_iff`)
    there are some if every run of letters is a field          (`exists_describes_iff`)
-/
import RecordFilter.DateFormat

namespace RecordFilter.DatePattern

/-! ## Quotes and runs -/

/-- A pattern and the runs it stands for. -/
inductive Reads : List Char → List Run → Prop
  | nil : Reads [] []
  /-- two apostrophes are one -/
  | apostrophe {rest : List Char} {runs : List Run} :
      Reads rest runs → Reads ('\'' :: '\'' :: rest) (.literal '\'' :: runs)
  /-- a quoted stretch begins with no apostrophe of its own, and none stands behind it: these
  would be read together with the apostrophes around it -/
  | quoted {c : Char} {text rest : List Char} {runs : List Run} :
      c ≠ '\'' → rest.head? ≠ some '\'' → Reads rest runs →
      Reads ('\'' :: (Text.double '\'' (c :: text) ++ '\'' :: rest))
        ((c :: text).map .literal ++ runs)
  | plain {c : Char} {rest : List Char} {runs : List Run} :
      c ≠ '\'' → c.isAlpha = false → Reads rest runs → Reads (c :: rest) (.literal c :: runs)
  /-- a run of letters is as long as it can be -/
  | letters {c : Char} {count : Nat} {rest : List Char} {runs : List Run} :
      c.isAlpha = true → rest.head? ≠ some c → Reads rest runs →
      Reads (List.replicate (count + 1) c ++ rest) (.letters c (count + 1) :: runs)

variable {c : Char} {count : Nat} {text rest pattern : List Char} {marks : List Mark}
  {rs : List Run}

theorem ne_apostrophe_of_isAlpha (h : c.isAlpha = true) : c ≠ '\'' := by
  rintro rfl
  cases h

theorem unquote_apostrophe (inQuote : Bool) (rest : List Char) :
    unquote inQuote ('\'' :: '\'' :: rest) =
      (.literal '\'' :: (unquote inQuote rest).1, (unquote inQuote rest).2) := by
  rw [unquote]

theorem unquote_quote (inQuote : Bool) (h : rest.head? ≠ some '\'') :
    unquote inQuote ('\'' :: rest) = unquote (!inQuote) rest := by
  rw [unquote]
  rintro rest' rfl
  exact h rfl

theorem unquote_cons (inQuote : Bool) (h : c ≠ '\'') (rest : List Char) :
    unquote inQuote (c :: rest) =
      ((if !inQuote && c.isAlpha then .letter c else .literal c) :: (unquote inQuote rest).1,
        (unquote inQuote rest).2) := by
  rw [unquote]
  · exact fun _ hc _ => h hc
  · exact h

theorem unquote_double (text : List Char) (h : rest.head? ≠ some '\'') :
    unquote true (Text.double '\'' text ++ '\'' :: rest) =
      (text.map .literal ++ (unquote false rest).1, (unquote false rest).2) := by
  induction text with
  | nil => exact unquote_quote true h
  | cons c text ih =>
      by_cases hc : c = '\''
      · subst hc
        rw [Text.double_cons_self, List.cons_append, List.cons_append, unquote_apostrophe, ih]
        rfl
      · rw [Text.double_cons_of_ne hc, List.cons_append, unquote_cons true hc, ih]
        rfl

theorem unquote_letters (h : c.isAlpha = true) (count : Nat) (rest : List Char) :
    unquote false (List.replicate count c ++ rest) =
      (List.replicate count (.letter c) ++ (unquote false rest).1, (unquote false rest).2) := by
  induction count with
  | zero => rfl
  | succ count ih =>
      rw [List.replicate_succ, List.cons_append, unquote_cons false (ne_apostrophe_of_isAlpha h),
        ih, h]
      rfl

theorem runs_literals (text : List Char) (marks : List Mark) :
    runs (text.map .literal ++ marks) = text.map .literal ++ runs marks := by
  induction text with
  | nil => rfl
  | cons c text ih =>
      show Run.join (.literal c) (runs (text.map .literal ++ marks)) = _
      rw [ih]
      rfl

theorem runs_letters (h : ∀ n rest, runs marks ≠ .letters c n :: rest) (count : Nat) :
    runs (List.replicate (count + 1) (.letter c) ++ marks) = .letters c (count + 1) :: runs marks := by
  induction count with
  | zero =>
      show Run.join (.letter c) (runs marks) = _
      cases hruns : runs marks with
      | nil => rfl
      | cons run rest =>
          cases run with
          | literal d => rfl
          | letters d n =>
              have hne : c ≠ d := by
                rintro rfl
                exact h n rest hruns
              exact if_neg hne
  | succ count ih =>
      show Run.join (.letter c) (runs (List.replicate (count + 1) (.letter c) ++ marks)) = _
      rw [ih]
      exact if_pos rfl

theorem Reads.ne_letters (h : Reads pattern rs) (hhead : pattern.head? ≠ some c) (n : Nat)
    (rest : List Run) : rs ≠ .letters c n :: rest := by
  rintro rfl
  generalize hrs : Run.letters c n :: rest = rs at h
  cases h with
  | nil => cases hrs
  | apostrophe => cases hrs
  | quoted => cases hrs
  | plain => cases hrs
  | letters =>
      cases hrs
      exact hhead rfl

/-- **A pattern is read as its quotes are undone.** -/
theorem Reads.unquote (h : Reads pattern rs) :
    (unquote false pattern).2 = true ∧ runs (unquote false pattern).1 = rs := by
  induction h with
  | nil => exact ⟨rfl, rfl⟩
  | apostrophe _ ih =>
      rw [unquote_apostrophe]
      exact ⟨ih.1, congrArg (Run.literal '\'' :: ·) ih.2⟩
  | @quoted c text rest _ hc hrest _ ih =>
      have hopen : (Text.double '\'' (c :: text) ++ '\'' :: rest).head? ≠ some '\'' := by
        rw [Text.double_cons_of_ne hc]
        exact fun h => hc (Option.some.inj h)
      rw [unquote_quote false hopen, Bool.not_false, unquote_double _ hrest, runs_literals, ih.2]
      exact ⟨ih.1, rfl⟩
  | plain hc halpha _ ih =>
      rw [unquote_cons false hc, halpha]
      exact ⟨ih.1, congrArg (Run.literal _ :: ·) ih.2⟩
  | letters halpha hrest hreads ih =>
      rw [unquote_letters halpha, runs_letters, ih.2]
      · exact ⟨ih.1, rfl⟩
      · rw [ih.2]
        exact hreads.ne_letters hrest

/-- A letter in front of a pattern makes its first run longer, or is a run of its own. -/
theorem Reads.letter (hc : c.isAlpha = true) (h : Reads rest rs) : ∃ rs, Reads (c :: rest) rs := by
  by_cases hhead : rest.head? = some c
  · cases h with
    | nil => cases hhead
    | apostrophe =>
        cases hhead
        cases hc
    | quoted =>
        cases hhead
        cases hc
    | plain _ halpha =>
        cases hhead
        rw [hc] at halpha
        cases halpha
    | letters halpha hrest hreads =>
        cases hhead
        exact ⟨_, .letters halpha hrest hreads⟩
  · have hone : Reads (List.replicate (0 + 1) c ++ rest) (.letters c (0 + 1) :: rs) :=
      .letters hc hhead h
    exact ⟨_, hone⟩

/-- A pattern whose quotes are closed can be read.  From inside a quote, it goes on with doubled
text and the apostrophe that closes it. -/
theorem exists_reads (inQuote : Bool) (pattern : List Char)
    (h : (unquote inQuote pattern).2 = true) :
    ∃ text rest rs, Reads rest rs ∧
      if inQuote then pattern = Text.double '\'' text ++ '\'' :: rest ∧ rest.head? ≠ some '\''
      else pattern = rest := by
  induction inQuote, pattern using unquote.induct with
  | case1 inQuote =>
      cases inQuote with
      | false => exact ⟨[], [], [], .nil, rfl⟩
      | true => cases h
  | case2 inQuote rest _ _ _ ih =>
      rw [unquote_apostrophe] at h
      obtain ⟨text, rest', rs, hreads, hrest⟩ := ih h
      cases inQuote with
      | false =>
          cases hrest
          exact ⟨[], _, _, .apostrophe hreads, rfl⟩
      | true =>
          refine ⟨'\'' :: text, rest', rs, hreads, ?_, hrest.2⟩
          rw [Text.double_cons_self, hrest.1]
          rfl
  | case3 inQuote rest hrest ih =>
      have hhead : rest.head? ≠ some '\'' := by
        cases rest with
        | nil => exact nofun
        | cons c rest =>
            intro hc
            exact hrest rest (congrArg (· :: rest) (Option.some.inj hc))
      rw [unquote_quote inQuote hhead] at h
      obtain ⟨text, rest', rs, hreads, heq⟩ := ih h
      cases inQuote with
      | true =>
          cases heq
          exact ⟨[], _, rs, hreads, rfl, hhead⟩
      | false =>
          obtain ⟨rfl, hrest'⟩ := heq
          -- two apostrophes side by side would have been read together
          cases text with
          | nil => exact absurd rfl hhead
          | cons c text =>
              by_cases hc : c = '\''
              · subst hc
                exact absurd rfl hhead
              · exact ⟨[], _, _, .quoted hc hrest' hreads, rfl⟩
  | case4 inQuote c rest _ hc _ _ _ ih =>
      rw [unquote_cons inQuote hc] at h
      obtain ⟨text, rest', rs, hreads, hrest⟩ := ih h
      cases inQuote with
      | true =>
          refine ⟨c :: text, rest', rs, hreads, ?_, hrest.2⟩
          rw [Text.double_cons_of_ne hc, hrest.1]
          rfl
      | false =>
          cases hrest
          cases halpha : c.isAlpha with
          | false => exact ⟨[], _, _, .plain hc halpha hreads, rfl⟩
          | true =>
              obtain ⟨rs, hreads⟩ := hreads.letter halpha
              exact ⟨[], _, rs, hreads, rfl⟩

/-- **A pattern is read in just the way its quotes are undone.** -/
theorem reads_iff : Reads pattern rs ↔
    (unquote false pattern).2 = true ∧ runs (unquote false pattern).1 = rs := by
  refine ⟨Reads.unquote, ?_⟩
  rintro ⟨hclosed, hruns⟩
  obtain ⟨_, rest, rs', hreads, hrest⟩ := exists_reads false pattern hclosed
  cases hrest
  rw [← hruns, hreads.unquote.2]
  exact hreads

/-! ## Elements -/

/-- The elements that runs come to.  A fraction of another width than three, six or nine is read
together with the point in front of it. -/
inductive Describes : List Run → List DateElement → Prop
  | nil : Describes [] []
  | literal {c : Char} {rs : List Run} {es : List DateElement} :
      Describes rs es → Describes (.literal c :: rs) (.literal c :: es)
  | field {c : Char} {count : Nat} {f : DateField} {rs : List Run} {es : List DateElement} :
      field? c count = some f → Describes rs es →
      Describes (.letters c count :: rs) (.field f :: es)
  | fraction {count : Nat} {rs : List Run} {es : List DateElement} :
      count ≠ 3 → count ≠ 6 → count ≠ 9 → Describes rs es →
      Describes (.literal '.' :: .letters 'S' count :: rs) (.field .fraction :: es)

variable {before after es : List DateElement} {run : Run} {f : DateField}

theorem field?_fraction_eq_none_iff : field? 'S' count = none ↔ count ≠ 3 ∧ count ≠ 6 ∧ count ≠ 9 := by
  constructor
  · intro h
    refine ⟨?_, ?_, ?_⟩
    all_goals
      rintro rfl
      cases h
  · rintro ⟨h3, h6, h9⟩
    simp [field?, h3, h6, h9]

theorem of_addRun_eq_ok (h : addRun before run = .ok after) :
    (∃ c, run = .literal c ∧ after = .literal c :: before) ∨
      (∃ c count f, run = .letters c count ∧ field? c count = some f ∧ after = .field f :: before) ∨
      ∃ count front, run = .letters 'S' count ∧ field? 'S' count = none ∧
        before = .literal '.' :: front ∧ after = .field .fraction :: front := by
  cases run with
  | literal c => exact .inl ⟨c, rfl, (Except.ok.inj h).symm⟩
  | letters c count =>
      simp only [addRun] at h
      split at h
      · next f hf => exact .inr (.inl ⟨c, count, f, rfl, hf, (Except.ok.inj h).symm⟩)
      · next hf =>
          split at h
          · next front => exact .inr (.inr ⟨count, front, rfl, hf, rfl, (Except.ok.inj h).symm⟩)
          · cases h

theorem addRun_field (h : field? c count = some f) (before : List DateElement) :
    addRun before (.letters c count) = .ok (.field f :: before) := by
  simp only [addRun, h]

theorem addRun_fraction (h : field? 'S' count = none) (before : List DateElement) :
    addRun (.literal '.' :: before) (.letters 'S' count) = .ok (.field .fraction :: before) := by
  simp only [addRun, h]

theorem Describes.addRuns (h : Describes rs es) (before : List DateElement) :
    addRuns before rs = .ok (before.reverse ++ es) := by
  induction h generalizing before with
  | nil => rw [DatePattern.addRuns, List.append_nil]
  | literal _ ih =>
      simp only [DatePattern.addRuns, addRun, ih, List.reverse_cons, List.append_assoc,
        List.singleton_append]
  | field hf _ ih =>
      simp only [DatePattern.addRuns, addRun_field hf, ih, List.reverse_cons, List.append_assoc,
        List.singleton_append]
  | fraction h3 h6 h9 _ ih =>
      have hnone := field?_fraction_eq_none_iff.mpr ⟨h3, h6, h9⟩
      have hpoint : addRun before (.literal '.') = .ok (.literal '.' :: before) := rfl
      simp only [DatePattern.addRuns, hpoint, addRun_fraction hnone, ih, List.reverse_cons,
        List.append_assoc, List.singleton_append]

/-- What comes of runs is described by them, or the first of them is a fraction that takes the
point at the end of what is there. -/
theorem describes_of_addRuns (h : addRuns before rs = .ok es) :
    (∃ tail, es = before.reverse ++ tail ∧ Describes rs tail) ∨
      ∃ front count rest tail, before = .literal '.' :: front ∧ rs = .letters 'S' count :: rest ∧
        field? 'S' count = none ∧ es = front.reverse ++ .field .fraction :: tail ∧
        Describes rest tail := by
  induction rs generalizing before with
  | nil => exact .inl ⟨[], by rw [← Except.ok.inj h, List.append_nil], .nil⟩
  | cons run rs ih =>
      rw [DatePattern.addRuns] at h
      cases hrun : addRun before run with
      | error e =>
          rw [hrun] at h
          cases h
      | ok after =>
          rw [hrun] at h
          obtain ⟨c, rfl, rfl⟩ | ⟨c, count, f, rfl, hf, rfl⟩ | ⟨count, front, rfl, hnone, rfl, rfl⟩ :=
            of_addRun_eq_ok hrun
          · obtain ⟨tail, rfl, htail⟩ | ⟨front, count, rest, tail, hfront, rfl, hnone, rfl, htail⟩ :=
              ih h
            · exact .inl ⟨_, by simp, .literal htail⟩
            · cases hfront
              obtain ⟨h3, h6, h9⟩ := field?_fraction_eq_none_iff.mp hnone
              exact .inl ⟨_, rfl, .fraction h3 h6 h9 htail⟩
          · obtain ⟨tail, rfl, htail⟩ | ⟨front, count, rest, tail, hfront, _⟩ := ih h
            · exact .inl ⟨_, by simp, .field hf htail⟩
            · cases hfront
          · obtain ⟨tail, rfl, htail⟩ | ⟨front, count, rest, tail, hfront, _⟩ := ih h
            · exact .inr ⟨front, count, rs, tail, rfl, rfl, hnone, by simp, htail⟩
            · cases hfront

/-- **The elements of runs are the described ones.** -/
theorem addRuns_eq_ok_iff : addRuns [] rs = .ok es ↔ Describes rs es := by
  constructor
  · intro h
    obtain ⟨tail, rfl, htail⟩ | ⟨front, _, _, _, hfront, _⟩ := describes_of_addRuns h
    · exact htail
    · cases hfront
  · exact fun h => h.addRuns []

/-- **The elements of a pattern are the ones that it describes.** -/
theorem elements_eq_ok_iff {pattern : String} :
    elements pattern = .ok es ↔ ∃ rs, Reads pattern.toList rs ∧ Describes rs es := by
  simp only [elements]
  constructor
  · intro h
    split at h
    · cases h
    · next found hfound =>
        cases hclosed : (unquote false pattern.toList).2 with
        | false =>
            rw [hclosed] at h
            cases h
        | true =>
            rw [hclosed] at h
            cases h
            exact ⟨_, reads_iff.mpr ⟨hclosed, rfl⟩, addRuns_eq_ok_iff.mp hfound⟩
  · rintro ⟨rs, hreads, hdescribes⟩
    obtain ⟨hclosed, hruns⟩ := hreads.unquote
    rw [hruns, addRuns_eq_ok_iff.mpr hdescribes]
    exact if_pos hclosed

/-! ## Fields -/

/-- A run of letters is a field of its own, or a fraction of any width behind a point. -/
def IsField (front : List Run) (letter : Char) (count : Nat) : Prop :=
  (field? letter count).isSome ∨ letter = 'S' ∧ front.getLast? = some (.literal '.')

/-- Every run of letters is a field, behind what `context` says is in front. -/
def Supported (context rs : List Run) : Prop :=
  ∀ front letter count back, rs = front ++ .letters letter count :: back →
    IsField (context ++ front) letter count

variable {context : List Run}

theorem supported_nil (context : List Run) : Supported context [] := by
  intro front letter count back h
  cases front <;> cases h

theorem supported_cons_iff : Supported context (run :: rs) ↔
    (∀ letter count, run = .letters letter count → IsField context letter count) ∧
      Supported (context ++ [run]) rs := by
  constructor
  · intro h
    refine ⟨fun letter count hrun => ?_, fun front letter count back hrs => ?_⟩
    · have hfield := h [] letter count rs (congrArg (· :: rs) hrun)
      rwa [List.append_nil] at hfield
    · have hfield := h (run :: front) letter count back (congrArg (run :: ·) hrs)
      rwa [List.append_assoc]
  · rintro ⟨hrun, hrs⟩ front letter count back h
    cases front with
    | nil =>
        rw [List.append_nil]
        exact hrun letter count (List.cons.inj h).1
    | cons first front =>
        obtain ⟨rfl, htail⟩ := List.cons.inj h
        have hfield := hrs front letter count back htail
        rwa [List.append_assoc] at hfield

theorem exists_addRun_letters_iff
    (hpoint : before.head? = some (.literal '.') ↔ context.getLast? = some (.literal '.')) :
    (∃ after, addRun before (.letters c count) = .ok after) ↔ IsField context c count := by
  constructor
  · rintro ⟨after, h⟩
    obtain ⟨_, hrun, _⟩ | ⟨_, _, f, hrun, hf, _⟩ | ⟨_, front, hrun, _, rfl, _⟩ := of_addRun_eq_ok h
    · cases hrun
    · cases hrun
      exact .inl (Option.isSome_iff_exists.mpr ⟨f, hf⟩)
    · cases hrun
      exact .inr ⟨rfl, hpoint.mp rfl⟩
  · rintro (hsome | ⟨rfl, hlast⟩)
    · obtain ⟨f, hf⟩ := Option.isSome_iff_exists.mp hsome
      exact ⟨_, addRun_field hf before⟩
    · obtain ⟨front, rfl⟩ := List.head?_eq_some_iff.mp (hpoint.mpr hlast)
      cases hf : field? 'S' count with
      | some f => exact ⟨_, addRun_field hf _⟩
      | none => exact ⟨_, addRun_fraction hf front⟩

theorem exists_addRuns_iff
    (hpoint : before.head? = some (.literal '.') ↔ context.getLast? = some (.literal '.')) :
    (∃ es, addRuns before rs = .ok es) ↔ Supported context rs := by
  induction rs generalizing before context with
  | nil => exact ⟨fun _ => supported_nil context, fun _ => ⟨_, rfl⟩⟩
  | cons run rs ih =>
      rw [supported_cons_iff]
      cases run with
      | literal c =>
          have hrest : (∃ es, addRuns (.literal c :: before) rs = .ok es) ↔
              Supported (context ++ [.literal c]) rs := ih (by simp)
          exact ⟨fun h => ⟨nofun, hrest.mp h⟩, fun h => hrest.mpr h.2⟩
      | letters c count =>
          rw [DatePattern.addRuns]
          cases hrun : addRun before (.letters c count) with
          | error e =>
              constructor
              · rintro ⟨_, h⟩
                cases h
              · rintro ⟨h, _⟩
                obtain ⟨after, hafter⟩ := (exists_addRun_letters_iff hpoint).mpr (h c count rfl)
                rw [hrun] at hafter
                cases hafter
          | ok after =>
              have hfield : IsField context c count :=
                (exists_addRun_letters_iff hpoint).mp ⟨after, hrun⟩
              -- a field is the last element now, and no point
              have hafter : after.head? ≠ some (.literal '.') := by
                obtain ⟨_, h, _⟩ | ⟨_, _, _, _, _, rfl⟩ | ⟨_, _, _, _, _, rfl⟩ := of_addRun_eq_ok hrun
                · cases h
                · exact nofun
                · exact nofun
              have hrest : (∃ es, addRuns after rs = .ok es) ↔
                  Supported (context ++ [.letters c count]) rs := ih (by simp [hafter])
              constructor
              · intro h
                refine ⟨?_, hrest.mp h⟩
                rintro _ _ hletters
                cases hletters
                exact hfield
              · exact fun h => hrest.mpr h.2

/-- **Every run of letters is a field** just where the runs come to elements. -/
theorem exists_describes_iff : (∃ es, Describes rs es) ↔ Supported [] rs := by
  have hstart : (∃ es, addRuns [] rs = .ok es) ↔ Supported [] rs := exists_addRuns_iff (by simp)
  simpa only [addRuns_eq_ok_iff] using hstart

end RecordFilter.DatePattern
