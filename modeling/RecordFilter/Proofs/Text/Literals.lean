/-
# `Proofs.Text.Literals` — the literals of a query text

A query is read for its literals by one rule: a single quote opens a literal, two
quotes inside one stand for a quote, and a quote alone closes it.  `Text.literals` reads
a whole text by that rule and fails if it ends inside a literal.

A text written with its quotes doubled is read back as it was, whatever it holds
(`literalsFrom_textLiteral`), but for one thing: what follows must not begin with a
quote, which the closing quote would double.
-/
import RecordFilter.Predicate.Query

namespace RecordFilter.Text

/-- The literals of a text, in order; none at all if the last one is not closed.  Where a
literal is open, `inside` is what has been read of it. -/
def literalsFrom : (inside : Option (List Char)) → List Char → Option (List String)
  | none, [] => some []
  | none, c :: rest => if c = '\'' then literalsFrom (some []) rest else literalsFrom none rest
  | some _, [] => none
  | some inside, '\'' :: '\'' :: rest => literalsFrom (some (inside ++ ['\''])) rest
  | some inside, '\'' :: rest => (literalsFrom none rest).map (String.ofList inside :: ·)
  | some inside, c :: rest => literalsFrom (some (inside ++ [c])) rest

/-- The literals of a text. -/
def literals (text : String) : Option (List String) :=
  literalsFrom none text.toList

variable {inside text rest : List Char}

theorem literalsFrom_plain (h : '\'' ∉ text) (rest : List Char) :
    literalsFrom none (text ++ rest) = literalsFrom none rest := by
  induction text with
  | nil => rfl
  | cons c text ih =>
      obtain ⟨hc, htext⟩ := not_or.mp (mt List.mem_cons.mpr h)
      rw [List.cons_append, literalsFrom, if_neg (Ne.symm hc), ih htext]

theorem literalsFrom_close (h : rest.head? ≠ some '\'') :
    literalsFrom (some inside) ('\'' :: rest) =
      (literalsFrom none rest).map (String.ofList inside :: ·) := by
  rw [literalsFrom]
  rintro rest' rfl
  exact h rfl

/-- Doubled quotes are read as quotes, and everything else as it is. -/
theorem literalsFrom_double (text : List Char) : ∀ inside rest : List Char,
    literalsFrom (some inside) (double '\'' text ++ rest) =
      literalsFrom (some (inside ++ text)) rest := by
  induction text with
  | nil =>
      intro inside rest
      rw [List.append_nil]
      rfl
  | cons c text ih =>
      intro inside rest
      have hread : literalsFrom (some (inside ++ [c])) (double '\'' text ++ rest) =
          literalsFrom (some (inside ++ c :: text)) rest := by
        rw [ih (inside ++ [c]) rest, List.append_assoc, List.singleton_append]
      rw [← hread]
      by_cases hc : c = '\''
      · subst hc
        rw [double_cons_self, List.cons_append, List.cons_append, literalsFrom]
      · rw [double_cons_of_ne hc, List.cons_append, literalsFrom]
        · exact fun _ hquote _ => hc hquote
        · exact hc

/-- **A text between quotes is one literal**, and what follows is read on its own. -/
theorem literalsFrom_textLiteral (text : String) (h : rest.head? ≠ some '\'') :
    literalsFrom none ((textLiteral text).toList ++ rest) =
      (literalsFrom none rest).map (text :: ·) := by
  rw [textLiteral, String.toList_ofList, List.cons_append, List.cons_append, literalsFrom,
    if_pos rfl, List.append_assoc, literalsFrom_double, List.nil_append, List.singleton_append,
    literalsFrom_close h, String.ofList_toList]

end RecordFilter.Text
