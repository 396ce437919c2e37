/-
# `Proofs.DateFormat.Quoting` — quoted text in date patterns

A text can be put into a pattern between apostrophes, with those of its own doubled.
The apostrophes at its beginning are then read together with the opening one, pair by
pair, until another character comes: the pairs are the same number of apostrophes, and
the one that is left over opens the stretch.  So the text says itself, with one
exception: if it consists of apostrophes, no other character comes, all of them are
pairs, and they say one apostrophe more (`quoted_text_says_itself`).

Patterns are put together like that in general: what stands before and behind keeps its
meaning, as long as no run is cut where they meet (`Reads.append`).
-/
import RecordFilter.Proofs.DateFormat.Directives

namespace RecordFilter

namespace DatePattern

variable {c : Char} {pattern front rest text : List Char} {rs ts : List Run}
  {es ds : List DateElement}

/-- A text between apostrophes, with those of its own doubled. -/
def quoted (text : List Char) : List Char :=
  '\'' :: (Text.double '\'' text ++ ['\''])

theorem quoted_append (text rest : List Char) :
    quoted text ++ rest = '\'' :: (Text.double '\'' text ++ '\'' :: rest) := by
  simp [quoted]

@[simp]
theorem getLast?_quoted (text : List Char) : (quoted text).getLast? = some '\'' := by
  show ('\'' :: Text.double '\'' text ++ ['\'']).getLast? = some '\''
  exact List.getLast?_concat

theorem quoted_cons_apostrophe (text : List Char) :
    quoted ('\'' :: text) = '\'' :: '\'' :: quoted text := rfl

theorem reads_stretch (hc : c ≠ '\'') (hrest : rest.head? ≠ some '\'') (h : Reads rest rs)
    (text : List Char) :
    Reads (quoted (c :: text) ++ rest) ((c :: text).map .literal ++ rs) := by
  rw [quoted_append]
  exact .quoted hc hrest h

/-! ## Patterns put together -/

theorem head?_ne_behind (hlast : front.getLast? = some c) (hrest : rest.head? ≠ some c)
    (hmeet : ∀ d, (front ++ rest).getLast? = some d → text.head? ≠ some d) :
    (rest ++ text).head? ≠ some c := by
  cases rest with
  | nil =>
      rw [List.append_nil] at hmeet
      exact hmeet c hlast
  | cons d rest => exact hrest

/-- Where the last character of a pattern is not the first one of another, the two are read one
behind the other. -/
theorem Reads.append (h : Reads pattern rs) (htext : Reads text ts)
    (hmeet : ∀ c, pattern.getLast? = some c → text.head? ≠ some c) :
    Reads (pattern ++ text) (rs ++ ts) := by
  -- what holds of the end of a pattern holds of the end of its rest
  have hbehind : ∀ front rest : List Char,
      (∀ c, (front ++ rest).getLast? = some c → text.head? ≠ some c) →
      ∀ c, rest.getLast? = some c → text.head? ≠ some c := by
    intro front rest hmeet c hc
    exact hmeet c (by rw [List.getLast?_append, hc, Option.some_or])
  induction h with
  | nil => exact htext
  | apostrophe _ ih => exact .apostrophe (ih (hbehind ['\'', '\''] _ hmeet))
  | @quoted c inner rest rs hc hrest _ ih =>
      rw [← quoted_append] at hmeet ⊢
      have hhead := head?_ne_behind (getLast?_quoted (c :: inner)) hrest hmeet
      have hreads := reads_stretch hc hhead (ih (hbehind _ rest hmeet)) inner
      rwa [List.append_assoc, List.append_assoc]
  | @plain c rest rs hc halpha _ ih => exact .plain hc halpha (ih (hbehind [c] rest hmeet))
  | @letters c count rest rs halpha hrest _ ih =>
      have hlast : (List.replicate (count + 1) c).getLast? = some c := by
        simp [List.getLast?_replicate]
      rw [List.append_assoc]
      exact .letters halpha (head?_ne_behind hlast hrest hmeet) (ih (hbehind _ rest hmeet))

theorem Describes.append (h : Describes rs es) (hts : Describes ts ds) :
    Describes (rs ++ ts) (es ++ ds) := by
  induction h with
  | nil => exact hts
  | literal _ ih => exact .literal ih
  | field hf _ ih => exact .field hf ih
  | fraction h3 h6 h9 _ ih => exact .fraction h3 h6 h9 ih

theorem describes_literals (text : List Char) :
    Describes (text.map .literal) (text.map .literal) := by
  induction text with
  | nil => exact .nil
  | cons c text ih => exact .literal ih

/-! ## Quoted text -/

/-- What a quoted text says. -/
def saidBy (text : List Char) : List Char :=
  if text.all (· = '\'') then '\'' :: text else text

theorem saidBy_cons_apostrophe (text : List Char) :
    saidBy ('\'' :: text) = '\'' :: saidBy text := by
  simp only [saidBy, List.all_cons, decide_true, Bool.true_and]
  split <;> rfl

theorem saidBy_cons (h : c ≠ '\'') (text : List Char) : saidBy (c :: text) = c :: text := by
  simp [saidBy, h]

/-- **A quoted text is read as what it says**, in front of anything but an apostrophe. -/
theorem reads_quoted_append (text : List Char) (hrest : rest.head? ≠ some '\'')
    (h : Reads rest ts) : Reads (quoted text ++ rest) ((saidBy text).map .literal ++ ts) := by
  induction text with
  | nil => exact .apostrophe h
  | cons c text ih =>
      by_cases hc : c = '\''
      · subst hc
        rw [quoted_cons_apostrophe, saidBy_cons_apostrophe]
        exact .apostrophe ih
      · rw [saidBy_cons hc]
        exact reads_stretch hc hrest h text

/-- Between two patterns, neither of which has an apostrophe where they meet the text, it is read as
what it says. -/
theorem reads_between (text : List Char) (h : Reads pattern rs) (hrest : Reads rest ts)
    (hlast : pattern.getLast? ≠ some '\'') (hhead : rest.head? ≠ some '\'') :
    Reads (pattern ++ (quoted text ++ rest)) (rs ++ ((saidBy text).map .literal ++ ts)) := by
  refine h.append (reads_quoted_append text hhead hrest) ?_
  rintro c hc hopen
  cases hopen
  exact hlast hc

end DatePattern

open DatePattern

theorem flatMap_directive_literals (text : List Char) :
    (text.map .literal).flatMap DateElement.directive = Text.double '%' text :=
  List.flatMap_map ..

theorem DateFormat.toList_directives (f : DateFormat) :
    f.directives.toList = f.elements.flatMap DateElement.directive :=
  String.toList_ofList

/-- A point at the end of literals goes to a fraction behind them. -/
theorem describes_fraction {count : Nat} (hcount : count ≠ 3 ∧ count ≠ 6 ∧ count ≠ 9)
    (text : List Char) :
    Describes ((text ++ ['.']).map .literal ++ [.letters 'S' count])
      (text.map .literal ++ [.field .fraction]) := by
  obtain ⟨h3, h6, h9⟩ := hcount
  rw [List.map_append, List.append_assoc]
  exact (describes_literals text).append (.fraction h3 h6 h9 .nil)

/-- **Quoted text says itself**, and one apostrophe more if it consists of apostrophes: it is a
pattern, written in directives with its percent signs doubled, and it says the same between any
two patterns that have no apostrophe where they meet it.  A fraction that is no field by itself takes
the point at the end of the text. -/
theorem quoted_text_says_itself (text : List Char) :
    (∃ f, DateFormat.ofPattern (String.ofList (quoted text)) = .ok f ∧
        f.directives.toList = Text.double '%' (saidBy text)) ∧
      (∀ before behind f g, DateFormat.ofPattern before = .ok f →
        DateFormat.ofPattern behind = .ok g →
        before.toList.getLast? ≠ some '\'' → behind.toList.head? ≠ some '\'' →
        ∃ between, DateFormat.ofPattern (before ++ (String.ofList (quoted text) ++ behind)) =
            .ok between ∧
          between.elements = f.elements ++ ((saidBy text).map .literal ++ g.elements) ∧
          between.directives.toList =
            f.directives.toList ++ (Text.double '%' (saidBy text) ++ g.directives.toList)) ∧
      ∀ before f front count, text = front ++ ['.'] → DateFormat.ofPattern before = .ok f →
        before.toList.getLast? ≠ some '\'' → count ≠ 3 ∧ count ≠ 6 ∧ count ≠ 9 → 0 < count →
        ∃ between, DateFormat.ofPattern (before ++
            (String.ofList (quoted text) ++ String.ofList (List.replicate count 'S'))) =
            .ok between ∧
          between.elements = f.elements ++ (front.map .literal ++ [.field .fraction]) ∧
          between.directives.toList =
            f.directives.toList ++ (Text.double '%' front ++ ['%', '.', 'f']) := by
  refine ⟨?_, ?_, ?_⟩
  · have hreads : Reads (quoted text ++ []) ((saidBy text).map .literal ++ []) :=
      reads_quoted_append text nofun .nil
    rw [List.append_nil, List.append_nil] at hreads
    refine ⟨⟨_, (saidBy text).map .literal⟩, DateFormat.ofPattern_eq_ok_iff.mpr ⟨rfl, _, ?_,
      describes_literals _⟩, ?_⟩
    · rwa [String.toList_ofList]
    · rw [DateFormat.toList_directives, flatMap_directive_literals]
  · intro before behind f g hf hg hlast hhead
    obtain ⟨_, rs, hreads, hdescribes⟩ := DateFormat.ofPattern_eq_ok_iff.mp hf
    obtain ⟨_, ts, hrest, hbehind⟩ := DateFormat.ofPattern_eq_ok_iff.mp hg
    have hall := reads_between text hreads hrest hlast hhead
    have htext := hdescribes.append ((describes_literals (saidBy text)).append hbehind)
    refine ⟨⟨_, f.elements ++ ((saidBy text).map .literal ++ g.elements)⟩,
      DateFormat.ofPattern_eq_ok_iff.mpr ⟨rfl, _, ?_, htext⟩, rfl, ?_⟩
    · rwa [String.toList_append, String.toList_append, String.toList_ofList]
    · rw [DateFormat.toList_directives, List.flatMap_append, List.flatMap_append,
        flatMap_directive_literals, DateFormat.toList_directives, DateFormat.toList_directives]
  · rintro before f front count rfl hf hlast hwidth hcount
    obtain ⟨_, rs, hreads, hdescribes⟩ := DateFormat.ofPattern_eq_ok_iff.mp hf
    obtain ⟨count, rfl⟩ := Nat.exists_eq_succ_of_ne_zero (Nat.pos_iff_ne_zero.mp hcount)
    have hletters : Reads (List.replicate (count + 1) 'S' ++ []) [.letters 'S' (count + 1)] :=
      .letters rfl nofun .nil
    rw [List.append_nil] at hletters
    have hsaid : saidBy (front ++ ['.']) = front ++ ['.'] := by simp [saidBy]
    have hall := reads_between (front ++ ['.']) hreads hletters hlast nofun
    rw [hsaid] at hall
    refine ⟨⟨_, f.elements ++ (front.map .literal ++ [.field .fraction])⟩,
      DateFormat.ofPattern_eq_ok_iff.mpr
        ⟨rfl, _, ?_, hdescribes.append (describes_fraction hwidth front)⟩, rfl, ?_⟩
    · rwa [String.toList_append, String.toList_append, String.toList_ofList, String.toList_ofList]
    · rw [DateFormat.toList_directives, List.flatMap_append, List.flatMap_append,
        flatMap_directive_literals, DateFormat.toList_directives]
      rfl

/-- A text that begins with an apostrophe, holds a percent sign and ends in a point: behind a day,
and in front of a month or of a fraction. -/
theorem quoted_text_says_itself_between_fields :
    quoted ['\'', '%', '.'] = "'''%.'".toList ∧
      (∃ between, DateFormat.ofPattern "dd'''%.'MM" = .ok between ∧
        between.elements = [.field .day, .literal '\'', .literal '%', .literal '.', .field .month] ∧
        between.directives.toList = "%d'%%.%m".toList) ∧
      ∃ between, DateFormat.ofPattern "dd'''%.'SS" = .ok between ∧
        between.elements = [.field .day, .literal '\'', .literal '%', .field .fraction] ∧
        between.directives.toList = "%d'%%%.f".toList := by
  have hday : DateFormat.ofPattern "dd" = .ok ⟨"dd", [.field .day]⟩ :=
    toOption_eq_some_iff.mp (by decide +kernel)
  have hmonth : DateFormat.ofPattern "MM" = .ok ⟨"MM", [.field .month]⟩ :=
    toOption_eq_some_iff.mp (by decide +kernel)
  obtain ⟨_, hbetween, hfraction⟩ := quoted_text_says_itself ['\'', '%', '.']
  exact ⟨rfl, hbetween _ _ _ _ hday hmonth (by decide) (by decide),
    hfraction _ _ ['\'', '%'] 2 rfl hday (by decide) (by decide) (by decide)⟩

/-- A quoted apostrophe says two: the four are read as two pairs. -/
theorem quoted_apostrophe_says_two :
    ∃ f, DateFormat.ofPattern (String.ofList (quoted ['\''])) = .ok f ∧
      f.directives = "''" ∧ f.directives.toList ≠ Text.double '%' ['\''] := by
  have hf : DateFormat.ofPattern (String.ofList (quoted ['\''])) =
      .ok ⟨"''''", [.literal '\'', .literal '\'']⟩ := toOption_eq_some_iff.mp (by decide +kernel)
  exact ⟨_, hf, by decide +kernel, by decide +kernel⟩

end RecordFilter
