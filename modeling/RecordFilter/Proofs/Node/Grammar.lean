/-
# `Proofs.Node.Grammar` — the grammar of filter expressions

The grammar as relations between a list of tokens and what it stands for.  No
parser is mentioned: an operator symbol is legal when it is a spelling of an
operator of the set, and a comma is a separator or part of an argument list
according to the rule that uses it.

    alternatives = conjunction, { ("," | "or"), conjunction }
    conjunction  = constraint, { (";" | "and"), constraint }
    constraint   = "(", alternatives, ")" | selector, operator, arguments
    arguments    = value | "(", value, { ",", value }, ")"
    value        = bare text | quoted text

A repetition is built from its front, one part at a time, so that a derivation
grows the way a text is read.  The node of a group is the rule's own: one flat
node for two parts or more, the part itself for one.
-/
import RecordFilter.Node
import RecordFilter.Token

namespace RecordFilter

/-! ## Operator symbols -/

theorem Operator.eq_of_mem_symbols {a b : Operator} {symbol : String}
    (ha : symbol ∈ a.symbols) (hb : symbol ∈ b.symbols) : a = b := by
  revert symbol
  cases a <;> cases b <;> first | exact fun _ _ => rfl | simp [symbols]

namespace OperatorSet

/-- `symbol` is a spelling of `op`, and `op` is in the set. -/
def Spells (ops : OperatorSet) (op : Operator) (symbol : String) : Prop :=
  op ∈ ops.toList ∧ symbol ∈ op.symbols

theorem lookup_eq_some_iff {ops : OperatorSet} {op : Operator} {symbol : String} :
    ops.lookup symbol = some op ↔ ops.Spells op symbol := by
  constructor
  · intro h
    exact ⟨List.mem_of_find?_eq_some h, by simpa using List.find?_some h⟩
  · rintro ⟨hmem, hsymbol⟩
    cases h : ops.lookup symbol with
    | none =>
        have hnot := List.find?_eq_none.mp h op hmem
        exact absurd (List.contains_iff_mem.mpr hsymbol) hnot
    | some op' =>
        have hsymbol' : symbol ∈ op'.symbols := by simpa using List.find?_some h
        rw [Operator.eq_of_mem_symbols hsymbol hsymbol']

end OperatorSet

namespace Grammar

/-! ## The rules -/

/-- What parts the members of a disjunction. -/
def PartsAny (token : Token) : Prop :=
  token = .comma ∨ token = .bare "or"

/-- What parts the members of a conjunction. -/
def PartsAll (token : Token) : Prop :=
  token = .semicolon ∨ token = .bare "and"

inductive Value : Token → String → Prop
  | bare (text : String) : Value (.bare text) text
  | quoted (text : String) : Value (.quoted text) text

theorem value_iff {t : Token} {a : String} : Value t a ↔ t.argument? = some a := by
  constructor
  · intro h
    cases h <;> rfl
  · intro h
    cases t with
    | bare _ => cases h; exact .bare _
    | quoted _ => cases h; exact .quoted _
    | _ => cases h

/-- The values of an argument list, without its parentheses. -/
inductive Values : List Token → List String → Prop
  | one {t : Token} {a : String} : Value t a → Values [t] [a]
  | more {ts : List Token} {as : List String} {sep t : Token} {a : String} :
      Values ts as → sep = .comma → Value t a → Values (ts ++ [sep] ++ [t]) (as ++ [a])

inductive Arguments : List Token → List String → Prop
  | lone {t : Token} {a : String} : Value t a → Arguments [t] [a]
  | list {ts : List Token} {as : List String} :
      Values ts as → Arguments (.openParen :: ts ++ [.closeParen]) as

theorem Arguments.length_pos {ts : List Token} {as : List String} (h : Arguments ts as) :
    0 < as.length := by
  cases h with
  | lone _ => exact Nat.one_pos
  | list hvalues =>
      cases hvalues with
      | one _ => exact Nat.one_pos
      | more _ _ _ => rw [List.length_append]; exact Nat.succ_pos _

mutual

inductive Constraint (ops : OperatorSet) : List Token → Node → Prop
  | group {ts : List Token} {ns : List Node} :
      Alternatives ops ts ns →
      Constraint ops (.openParen :: ts ++ [.closeParen]) (Node.group .any ns)
  | comparison {selector symbol : String} {op : Operator} {ts : List Token}
      {arguments : List String} :
      ops.Spells op symbol → Arguments ts arguments →
      (op.takesList = true ∨ arguments.length = 1) →
      Constraint ops (.bare selector :: .operator symbol :: ts)
        (.comparison ⟨selector, op, arguments⟩)

/-- The constraints of a conjunction, in order. -/
inductive Conjunction (ops : OperatorSet) : List Token → List Node → Prop
  | one {ts : List Token} {n : Node} : Constraint ops ts n → Conjunction ops ts [n]
  | more {ts us : List Token} {ns : List Node} {sep : Token} {n : Node} :
      Conjunction ops ts ns → PartsAll sep → Constraint ops us n →
      Conjunction ops (ts ++ [sep] ++ us) (ns ++ [n])

/-- The nodes of the conjunctions of a disjunction, in order. -/
inductive Alternatives (ops : OperatorSet) : List Token → List Node → Prop
  | one {ts : List Token} {ns : List Node} :
      Conjunction ops ts ns → Alternatives ops ts [Node.group .all ns]
  | more {ts us : List Token} {ms ns : List Node} {sep : Token} :
      Alternatives ops ts ms → PartsAny sep → Conjunction ops us ns →
      Alternatives ops (ts ++ [sep] ++ us) (ms ++ [Node.group .all ns])

end

/-- A whole expression and its tree. -/
inductive Expression (ops : OperatorSet) : List Token → Node → Prop
  | alternatives {ts : List Token} {ns : List Node} :
      Alternatives ops ts ns → Expression ops ts (Node.group .any ns)

/-- A constraint alone is an expression: groups of one leave no trace. -/
theorem Constraint.expression {ops : OperatorSet} {ts : List Token} {n : Node}
    (h : Constraint ops ts n) : Expression ops ts n :=
  .alternatives (.one (.one h))

end Grammar

end RecordFilter
