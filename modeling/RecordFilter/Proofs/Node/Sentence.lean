/-
# `Proofs.Node.Sentence` — the language of the grammar

Which token lists are expressions, with the trees left out.  How tightly a separator
binds shows in the tree only, so three rules are enough: a comparison, a group, and two
sentences with a separator between them.  The rule for the number of arguments is a
parameter:

    Sentence ops OneUnlessList ts  ⟺  ∃ n, Expression ops ts n     (`sentence_iff_expression`)

and `Sentence ops AnyNumber` is the same language without that rule.  `Viable` and `GoesOn`
speak of what tokens a sentence begins with.
-/
import RecordFilter.Proofs.Node.Grammar

namespace RecordFilter

open OperatorSet

/-! ## Operator sets -/

/-- The sets of operators that can be made: the standard one, and what is added to it. -/
inductive OperatorSet.Built : OperatorSet → Prop
  | defaults : Built .defaults
  | insert {ops : OperatorSet} (op : Operator) : Built ops → Built (ops.insert op)

theorem OperatorSet.Built.exists_spells {ops : OperatorSet} (h : ops.Built) :
    ∃ op symbol, ops.Spells op symbol := by
  refine ⟨.equal, "==", ?_, List.mem_singleton_self _⟩
  induction h with
  | defaults => exact List.mem_cons_self
  | @insert ops op _ ih =>
      unfold OperatorSet.insert
      split
      · exact ih
      · exact List.mem_append_left _ ih

namespace Grammar

/-! ## Sentences -/

/-- The tokens of an expression whose comparisons have arguments as `allows` lets them. -/
inductive Sentence (ops : OperatorSet) (allows : Operator → List String → Prop) :
    List Token → Prop
  | comparison {selector symbol : String} {op : Operator} {ts : List Token}
      {arguments : List String} :
      ops.Spells op symbol → Arguments ts arguments → allows op arguments →
      Sentence ops allows (.bare selector :: .operator symbol :: ts)
  | group {ts : List Token} :
      Sentence ops allows ts → Sentence ops allows (.openParen :: ts ++ [.closeParen])
  | joined {ts us : List Token} {sep : Token} :
      Sentence ops allows ts → PartsAll sep ∨ PartsAny sep → Sentence ops allows us →
      Sentence ops allows (ts ++ [sep] ++ us)

/-- One argument, or more where the operator takes a list. -/
def OneUnlessList (op : Operator) (arguments : List String) : Prop :=
  op.takesList = true ∨ arguments.length = 1

/-- As many arguments as there are. -/
def AnyNumber (_ : Operator) (_ : List String) : Prop :=
  True

variable {ops : OperatorSet} {allows : Operator → List String → Prop} {ts us : List Token}

theorem Sentence.anyNumber (h : Sentence ops allows ts) : Sentence ops AnyNumber ts := by
  induction h with
  | comparison hspells harguments _ => exact .comparison hspells harguments trivial
  | group _ ih => exact .group ih
  | joined _ hsep _ ih ih' => exact .joined ih hsep ih'

/-! ### From a derivation -/

mutual

theorem Constraint.sentence : ∀ {ts : List Token} {n : Node}, Constraint ops ts n →
    Sentence ops OneUnlessList ts
  | _, _, .group h => .group h.sentence
  | _, _, .comparison hspells harguments hcount => .comparison hspells harguments hcount

theorem Conjunction.sentence : ∀ {ts : List Token} {ns : List Node}, Conjunction ops ts ns →
    Sentence ops OneUnlessList ts
  | _, _, .one h => h.sentence
  | _, _, .more h hsep h' => .joined h.sentence (.inl hsep) h'.sentence

theorem Alternatives.sentence : ∀ {ts : List Token} {ns : List Node}, Alternatives ops ts ns →
    Sentence ops OneUnlessList ts
  | _, _, .one h => h.sentence
  | _, _, .more h hsep h' => .joined h.sentence (.inr hsep) h'.sentence

end

/-! ### To a derivation -/

theorem Conjunction.joined {ms : List Node} {sep : Token} (h : Conjunction ops ts ms)
    (hsep : PartsAll sep) : ∀ {us : List Token} {ns : List Node}, Conjunction ops us ns →
    Conjunction ops (ts ++ [sep] ++ us) (ms ++ ns)
  | _, _, .one hn => .more h hsep hn
  | _, _, .more hns hsep' hn => by
      have hjoined := Conjunction.more (h.joined hsep hns) hsep' hn
      simpa only [List.append_assoc] using hjoined

/-- A conjunction goes on with the last one of a disjunction. -/
theorem Alternatives.extended {ns : List Node} {sep : Token} (hsep : PartsAll sep)
    (h : Conjunction ops us ns) : ∀ {ts : List Token} {ms : List Node}, Alternatives ops ts ms →
    ∃ ms', Alternatives ops (ts ++ [sep] ++ us) ms'
  | _, _, .one hms => ⟨_, .one (hms.joined hsep h)⟩
  | _, _, .more halts hsep' hms => by
      have hjoined := Alternatives.more halts hsep' (hms.joined hsep h)
      simp only [List.append_assoc] at hjoined ⊢
      exact ⟨_, hjoined⟩

theorem Alternatives.joined {ms : List Node} {sep : Token} (h : Alternatives ops ts ms)
    (hsep : PartsAll sep ∨ PartsAny sep) : ∀ {us : List Token} {ns : List Node},
    Alternatives ops us ns → ∃ ks, Alternatives ops (ts ++ [sep] ++ us) ks
  | _, _, .one hns =>
      hsep.elim (fun hall => h.extended hall hns) fun hany => ⟨_, .more h hany hns⟩
  | _, _, .more halts hsep' hns => by
      obtain ⟨ks, hks⟩ := h.joined hsep halts
      have hjoined := Alternatives.more hks hsep' hns
      simp only [List.append_assoc] at hjoined ⊢
      exact ⟨_, hjoined⟩

theorem Sentence.alternatives (h : Sentence ops OneUnlessList ts) :
    ∃ ns, Alternatives ops ts ns := by
  induction h with
  | comparison hspells harguments hcount =>
      exact ⟨_, .one (.one (.comparison hspells harguments hcount))⟩
  | group _ ih =>
      obtain ⟨ns, hns⟩ := ih
      exact ⟨_, .one (.one (.group hns))⟩
  | joined _ hsep _ ih ih' =>
      obtain ⟨ms, hms⟩ := ih
      obtain ⟨ns, hns⟩ := ih'
      exact hms.joined hsep hns

/-- **The sentences are the token lists that have a tree.** -/
theorem sentence_iff_expression :
    Sentence ops OneUnlessList ts ↔ ∃ n, Expression ops ts n := by
  constructor
  · intro h
    obtain ⟨ns, hns⟩ := h.alternatives
    exact ⟨_, .alternatives hns⟩
  · rintro ⟨n, ⟨h⟩⟩
    exact h.sentence

/-! ## Beginnings of sentences

Whatever number of arguments a comparison has. -/

/-- The tokens begin a sentence that is longer. -/
def Viable (ops : OperatorSet) (ts : List Token) : Prop :=
  ∃ rest, rest ≠ [] ∧ Sentence ops AnyNumber (ts ++ rest)

/-- A sentence begins with `ts` and goes on with this token, or ends there if there is
none. -/
def GoesOn (ops : OperatorSet) (ts : List Token) : Option Token → Prop
  | some token => ∃ rest, Sentence ops AnyNumber (ts ++ token :: rest)
  | none => Sentence ops AnyNumber ts

theorem viable_of_sentence (hops : ops.Built) {rest : List Token}
    (h : Sentence ops AnyNumber (ts ++ rest)) : Viable ops ts := by
  obtain ⟨op, symbol, hspells⟩ := hops.exists_spells
  have hmore : Sentence ops AnyNumber [.bare "a", .operator symbol, .bare "a"] :=
    .comparison hspells (.lone (.bare "a")) trivial
  have hjoined := Sentence.joined h (.inl (.inl rfl)) hmore
  rw [List.append_assoc, List.append_assoc] at hjoined
  exact ⟨_, List.append_ne_nil_of_right_ne_nil _ (List.cons_ne_nil _ _), hjoined⟩

end Grammar

end RecordFilter
