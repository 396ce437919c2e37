/-
# `Proofs.Node.Place` — where a reader stands

What a reader will take next depends on little of what it holds: on what it expects, and on
how many groups it is inside.  That is its `Place`, and `Takes` lists the tokens that lead
from one place to another, for the language without the rule for the number of arguments.
A token leads to one place at most, so that two facts meet at the place:

    a reader that takes tokens goes through their places        (`runs_of_advance`)
    the tokens of a sentence lead from its front to its back    (`runs_of_sentence`)

Hence a token that the place does not take is in no sentence behind these tokens
(`Place.admits_of_goesOn`), and `State.Refuses` says what a reader refuses in terms of its
place.
-/
import RecordFilter.Proofs.Node.Acceptance
import RecordFilter.Proofs.Node.Sentence

namespace RecordFilter

open Grammar OperatorSet

namespace Parser

/-! ## Places -/

/-- What is expected. -/
inductive Stage where
  | constraint
  | operator
  | arguments
  | argument
  | argumentEnd
  | behind

/-- What is expected, and in how many groups. -/
structure Place where
  stage : Stage
  depth : Nat

def Phase.stage : Phase → Stage
  | .constraint => .constraint
  | .operator _ => .operator
  | .arguments _ => .arguments
  | .argument .. => .argument
  | .argumentEnd .. => .argumentEnd
  | .clauseEnd .. => .behind
  | .groupEnd => .behind

/-- The place of a reader. -/
def State.place (s : State) : Place :=
  ⟨s.phase.stage, s.outer.length⟩

namespace Place

/-- The token leads from the one place to the other. -/
inductive Takes (ops : OperatorSet) : Place → Token → Place → Prop
  | openGroup {n : Nat} : Takes ops ⟨.constraint, n⟩ .openParen ⟨.constraint, n + 1⟩
  | selector {n : Nat} {text : String} : Takes ops ⟨.constraint, n⟩ (.bare text) ⟨.operator, n⟩
  | operator {n : Nat} {op : Operator} {symbol : String} :
      ops.Spells op symbol → Takes ops ⟨.operator, n⟩ (.operator symbol) ⟨.arguments, n⟩
  | lone {n : Nat} {token : Token} {text : String} :
      Value token text → Takes ops ⟨.arguments, n⟩ token ⟨.behind, n⟩
  | openList {n : Nat} : Takes ops ⟨.arguments, n⟩ .openParen ⟨.argument, n⟩
  | argument {n : Nat} {token : Token} {text : String} :
      Value token text → Takes ops ⟨.argument, n⟩ token ⟨.argumentEnd, n⟩
  | comma {n : Nat} : Takes ops ⟨.argumentEnd, n⟩ .comma ⟨.argument, n⟩
  | closeList {n : Nat} : Takes ops ⟨.argumentEnd, n⟩ .closeParen ⟨.behind, n⟩
  | parts {n : Nat} {sep : Token} :
      PartsAll sep ∨ PartsAny sep → Takes ops ⟨.behind, n⟩ sep ⟨.constraint, n⟩
  | closeGroup {n : Nat} : Takes ops ⟨.behind, n + 1⟩ .closeParen ⟨.behind, n⟩

/-- The tokens lead from the one place to the other. -/
inductive Runs (ops : OperatorSet) : Place → List Token → Place → Prop
  | nil (p : Place) : Runs ops p [] p
  | cons {p q r : Place} {token : Token} {ts : List Token} :
      Takes ops p token q → Runs ops q ts r → Runs ops p (token :: ts) r

/-- The place takes this token, or the end of the text if there is none. -/
def Admits (ops : OperatorSet) (p : Place) : Option Token → Prop
  | some token => ∃ q, Takes ops p token q
  | none => p = ⟨.behind, 0⟩

variable {ops : OperatorSet} {p q r : Place} {token : Token} {ts us : List Token}

theorem not_parts_closeParen : ¬ (PartsAll .closeParen ∨ PartsAny .closeParen) := by
  simp [PartsAll, PartsAny]

theorem Takes.unique (h : Takes ops p token q) (h' : Takes ops p token r) : q = r := by
  cases h with
  | lone hvalue =>
      cases h' with
      | lone _ => rfl
      | openList => cases hvalue
  | openList =>
      cases h' with
      | lone hvalue => cases hvalue
      | openList => rfl
  | parts hsep =>
      cases h' with
      | parts _ => rfl
      | closeGroup => exact absurd hsep not_parts_closeParen
  | closeGroup =>
      cases h' with
      | parts hsep => exact absurd hsep not_parts_closeParen
      | closeGroup => rfl
  | _ => cases h'; rfl

theorem Runs.single (h : Takes ops p token q) : Runs ops p [token] q :=
  .cons h (.nil q)

theorem Runs.append (h : Runs ops p ts q) (h' : Runs ops q us r) : Runs ops p (ts ++ us) r := by
  induction h with
  | nil _ => exact h'
  | cons htakes _ ih => exact .cons htakes (ih h')

theorem Runs.drop (h : Runs ops p ts q) (h' : Runs ops p (ts ++ us) r) : Runs ops q us r := by
  induction h with
  | nil _ => exact h'
  | cons htakes _ ih =>
      cases h' with
      | cons htakes' hrest =>
          obtain rfl := htakes.unique htakes'
          exact ih hrest

/-! ### Sentences -/

theorem runs_of_values {n : Nat} {as : List String} (h : Values ts as) :
    Runs ops ⟨.argument, n⟩ ts ⟨.argumentEnd, n⟩ := by
  induction h with
  | one hvalue => exact .single (.argument hvalue)
  | more _ hsep hvalue ih =>
      subst hsep
      exact (ih.append (.single .comma)).append (.single (.argument hvalue))

theorem runs_of_arguments {n : Nat} {as : List String} (h : Arguments ts as) :
    Runs ops ⟨.arguments, n⟩ ts ⟨.behind, n⟩ := by
  cases h with
  | lone hvalue => exact .single (.lone hvalue)
  | list hvalues => exact .cons .openList ((runs_of_values hvalues).append (.single .closeList))

/-- **A sentence leads from its front to its back**, at any depth. -/
theorem runs_of_sentence {allows : Operator → List String → Prop}
    (h : Sentence ops allows ts) (n : Nat) : Runs ops ⟨.constraint, n⟩ ts ⟨.behind, n⟩ := by
  -- the inside of a group runs one deeper
  induction h generalizing n with
  | comparison hspells harguments _ =>
      exact .cons .selector (.cons (.operator hspells) (runs_of_arguments harguments))
  | group _ ih => exact .cons .openGroup ((ih (n + 1)).append (.single .closeGroup))
  | joined _ hsep _ ih ih' => exact ((ih n).append (.single (.parts hsep))).append (ih' n)

/-- What some sentence goes on with is admitted by the place of its beginning. -/
theorem admits_of_goesOn {found : Option Token} (h : GoesOn ops ts found)
    (hruns : Runs ops ⟨.constraint, 0⟩ ts p) : p.Admits ops found := by
  cases found with
  | none =>
      have hback : Runs ops ⟨.constraint, 0⟩ (ts ++ []) ⟨.behind, 0⟩ := by
        rw [List.append_nil]
        exact runs_of_sentence h 0
      cases hruns.drop hback with
      | nil _ => exact rfl
  | some token =>
      obtain ⟨rest, hsentence⟩ := h
      cases hruns.drop (runs_of_sentence hsentence 0) with
      | cons htakes _ => exact ⟨_, htakes⟩

end Place

/-! ## The place of a reader -/

namespace State

open Place

variable {ops : OperatorSet} {s s' : State} {token : Token} {position : Nat}
  {left : Option Token}

/-- What becomes of the constraint that a reader stands behind: it is added to its group, or
its comparison has too many arguments. -/
inductive Settles (s : State) : Prop
  | added (group : Group) : s.Behind group s.outer → Settles s
  | tooMany {clause : Clause} {arguments : List String} :
      s.phase = .clauseEnd clause arguments → clause.operator.takesList = false →
      1 < arguments.length → Settles s

theorem settles_of_behind (h : s.phase.stage = .behind) : s.Settles := by
  obtain ⟨phase, group, outer⟩ := s
  cases phase with
  | groupEnd => exact .added group rfl
  | clauseEnd clause arguments =>
      by_cases hcount : clause.operator.takesList = false ∧ 1 < arguments.length
      · exact .tooMany rfl hcount.1 hcount.2
      · refine .added (group.push (.comparison ⟨clause.selector, clause.operator, arguments⟩)) ?_
        unfold Behind settle
        dsimp only
        rw [if_neg]
        simpa using hcount
  | _ => cases h

theorem settle_tooMany {clause : Clause} {arguments : List String}
    (hphase : s.phase = .clauseEnd clause arguments) (hlist : clause.operator.takesList = false)
    (hcount : 1 < arguments.length) :
    s.settle = .error (.tooManyArguments clause.operator arguments.length clause.position) := by
  unfold settle
  rw [hphase]
  dsimp only
  rw [hlist, if_pos]
  simpa using hcount

/-! ### Tokens that are taken -/

theorem takes_of_continueGroup {group : Group} {outer : List Group}
    (h : continueGroup ⟨.groupEnd, group, outer⟩ token position = .shift s' left) :
    Takes ops ⟨.behind, outer.length⟩ token s'.place := by
  unfold continueGroup at h
  dsimp only at h
  split at h
  · next hall => cases h; exact .parts (.inl hall)
  · split at h
    · next hany => cases h; exact .parts (.inr hany)
    · split at h
      · cases h; exact .closeGroup
      · cases h
      · cases h

theorem not_takes_of_continueGroup {group : Group} {outer : List Group} {e : ParseError}
    (h : continueGroup ⟨.groupEnd, group, outer⟩ token position = .fail e) :
    (∃ expected, e = .unexpected expected (some token) position) ∧
      ¬ ∃ q, Takes ops ⟨.behind, outer.length⟩ token q := by
  unfold continueGroup at h
  dsimp only at h
  split at h
  · cases h
  · next hall =>
      split at h
      · cases h
      · next hany =>
          have hsep : ¬ (PartsAll token ∨ PartsAny token) := not_or.mpr ⟨hall, hany⟩
          split at h
          · cases h
          · next hclose =>
              cases h
              refine ⟨⟨_, rfl⟩, ?_⟩
              rintro ⟨q, htakes⟩
              cases htakes with
              | parts hparts => exact hsep hparts
              | closeGroup => exact hclose rfl
          · cases h
            refine ⟨⟨_, rfl⟩, ?_⟩
            rintro ⟨q, htakes⟩
            cases htakes with
            | parts hparts => exact hsep hparts

theorem takes_of_step_behind (hs : s.phase.stage = .behind)
    (h : s.step ops token position = .shift s' left) :
    Takes ops ⟨.behind, s.outer.length⟩ token s'.place := by
  cases settles_of_behind hs with
  | added group hbehind =>
      rw [hbehind.step] at h
      exact takes_of_continueGroup h
  | tooMany hphase hlist hcount =>
      unfold State.step at h
      rw [hphase] at h
      dsimp only at h
      rw [settle_tooMany hphase hlist hcount] at h
      cases h

/-- **A token that a reader takes leads from its place to the next one.** -/
theorem takes_of_step (h : s.step ops token position = .shift s' left) :
    Takes ops s.place token s'.place := by
  obtain ⟨phase, group, outer⟩ := s
  cases phase with
  | constraint =>
      cases token with
      | openParen => cases h; exact .openGroup
      | bare selector => cases h; exact .selector
      | _ => cases h
  | operator selector =>
      cases token with
      | operator symbol =>
          unfold State.step at h
          dsimp only at h
          split at h
          · next op hlookup => cases h; exact .operator (lookup_eq_some_iff.mp hlookup)
          · cases h
      | _ => cases h
  | arguments clause =>
      cases token with
      | openParen => cases h; exact .openList
      | bare text => cases h; exact .lone (.bare text)
      | quoted text => cases h; exact .lone (.quoted text)
      | _ => cases h
  | argument clause before =>
      cases token with
      | bare text => cases h; exact .argument (.bare text)
      | quoted text => cases h; exact .argument (.quoted text)
      | _ => cases h
  | argumentEnd clause before =>
      cases token with
      | comma => cases h; exact .comma
      | closeParen => cases h; exact .closeList
      | _ => cases h
  | clauseEnd clause arguments => exact takes_of_step_behind rfl h
  | groupEnd => exact takes_of_step_behind rfl h

theorem runs_of_advance {placed : List (Token × Nat)} (h : s.advance ops placed = some s') :
    Runs ops s.place (placed.map Prod.fst) s'.place := by
  induction placed generalizing s with
  | nil => cases h; exact .nil _
  | cons p placed ih =>
      obtain ⟨s₁, left, hstep, hrest⟩ := of_advance_cons h
      exact .cons (takes_of_step hstep) (ih hrest)

/-! ### Tokens that are refused -/

/-- Why a reader refuses what it finds at a position, a token or the end of the text. -/
inductive Refuses (ops : OperatorSet) (s : State) (found : Option Token) (position : Nat) :
    ParseError → Prop
  | unexpected (expected : Expectation) :
      ¬ s.place.Admits ops found →
      Refuses ops s found position (.unexpected expected found position)
  | unknownOperator {selector symbol : String} :
      s.phase = .operator selector → found = some (.operator symbol) →
      ops.lookup symbol = none → Refuses ops s found position (.unknownOperator symbol position)
  | tooManyArguments {clause : Clause} {arguments : List String} :
      s.phase = .clauseEnd clause arguments → clause.operator.takesList = false →
      1 < arguments.length → Refuses ops s found position
        (.tooManyArguments clause.operator arguments.length clause.position)

variable {e : ParseError}

theorem refuses_of_step_behind (hs : s.phase.stage = .behind)
    (h : s.step ops token position = .fail e) : s.Refuses ops (some token) position e := by
  cases settles_of_behind hs with
  | added group hbehind =>
      rw [hbehind.step] at h
      obtain ⟨⟨expected, rfl⟩, hnot⟩ := @not_takes_of_continueGroup ops _ _ _ _ _ h
      refine .unexpected expected ?_
      unfold place
      rw [hs]
      exact hnot
  | tooMany hphase hlist hcount =>
      unfold State.step at h
      rw [hphase] at h
      dsimp only at h
      rw [settle_tooMany hphase hlist hcount] at h
      cases h
      exact .tooManyArguments hphase hlist hcount

/-- **What a token is refused for.** -/
theorem refuses_of_step (h : s.step ops token position = .fail e) :
    s.Refuses ops (some token) position e := by
  obtain ⟨phase, group, outer⟩ := s
  cases phase with
  | constraint =>
      cases token with
      | openParen => cases h
      | bare selector => cases h
      | _ =>
          cases h
          refine .unexpected _ ?_
          rintro ⟨q, htakes⟩
          cases htakes
  | operator selector =>
      cases token with
      | operator symbol =>
          unfold State.step at h
          dsimp only at h
          split at h
          · cases h
          · next hlookup => cases h; exact .unknownOperator rfl rfl hlookup
      | _ =>
          cases h
          refine .unexpected _ ?_
          rintro ⟨q, htakes⟩
          cases htakes
  | arguments clause =>
      cases token with
      | openParen => cases h
      | bare text => cases h
      | quoted text => cases h
      | _ =>
          cases h
          refine .unexpected _ ?_
          rintro ⟨q, htakes⟩
          cases htakes with
          | lone hvalue => cases hvalue
  | argument clause before =>
      cases token with
      | bare text => cases h
      | quoted text => cases h
      | _ =>
          cases h
          refine .unexpected _ ?_
          rintro ⟨q, htakes⟩
          cases htakes with
          | argument hvalue => cases hvalue
  | argumentEnd clause before =>
      cases token with
      | comma => cases h
      | closeParen => cases h
      | _ =>
          cases h
          refine .unexpected _ ?_
          rintro ⟨q, htakes⟩
          cases htakes
  | clauseEnd clause arguments => exact refuses_of_step_behind rfl h
  | groupEnd => exact refuses_of_step_behind rfl h

theorem refuses_of_close_behind (hs : s.phase.stage = .behind)
    (h : s.close position = .error e) : s.Refuses ops none position e := by
  cases settles_of_behind hs with
  | added group hbehind =>
      rw [hbehind.close] at h
      split at h
      · cases h
      · next houter =>
          cases h
          refine .unexpected _ fun hadmits => houter ?_
          rw [List.isEmpty_iff_length_eq_zero]
          exact congrArg Place.depth hadmits
  | tooMany hphase hlist hcount =>
      unfold State.close at h
      rw [hphase] at h
      dsimp only at h
      rw [settle_tooMany hphase hlist hcount] at h
      cases h
      exact .tooManyArguments hphase hlist hcount

/-- **What the end of the text is refused for.** -/
theorem refuses_of_close (h : s.close position = .error e) : s.Refuses ops none position e := by
  obtain ⟨phase, group, outer⟩ := s
  cases phase with
  | clauseEnd clause arguments => exact refuses_of_close_behind rfl h
  | groupEnd => exact refuses_of_close_behind rfl h
  | _ =>
      cases h
      exact .unexpected _ fun hadmits => nomatch congrArg Place.stage hadmits

end State

end Parser

end RecordFilter
