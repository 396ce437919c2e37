/-
# `Proofs.Node.Acceptance` — the reader accepts exactly its grammar

## What is proved

For every text and every set of operators, reading succeeds with a tree exactly
when the whole text lexes and its tokens derive that tree:

    Node.parse text ops = .ok n  ↔
      ∃ ts, (Lexer.ofString text).ReadsAll ts ∧ Grammar.Expression ops ts n

Nothing is assumed of the set: it may be empty, or hold an operator twice.

## How the two sides meet

Between two tokens the reader is a `Parser.State`, and `State.advance` is what
the tokens behind it make of it, positions included but never looked at.

* **Soundness** is an invariant of one token.  `State.Covers ops ts s` says how
  the tokens `ts` read so far are spread over the open groups, the finished
  conjunctions and the clause at hand of `s`; `covers_step` keeps it, and at
  the end of the input it is a derivation (`close_covers`).
* **Completeness** is an induction over derivations: the tokens of a constraint
  take any state that expects one to a state behind it, with the constraint's
  node added (`advance_constraint` and its two companions).

`Parser.run` works on the list of all readings.  `State.Ends` is what a reader makes of the
readings in front of it, errors included; `run_ends` says that a run returns that, and
`accepts_iff_ends` that it is a tree when `advance` takes the tokens to where one is closed.
-/
import RecordFilter.Proofs.Node.Grammar
import RecordFilter.Proofs.Token.Stream

namespace RecordFilter

open Grammar OperatorSet

namespace Parser

/-! ## Runs of the reader -/

namespace State

/-- What tokens make of a reader; nothing, if it refuses one. -/
def advance (ops : OperatorSet) : State → List (Token × Nat) → Option State
  | s, [] => some s
  | s, (token, position) :: placed =>
      match s.step ops token position with
      | .fail _ => none
      | .shift s _ => s.advance ops placed

theorem advance_cons {ops : OperatorSet} {s s' : State} {p : Token × Nat}
    {left : Option Token} {ps : List (Token × Nat)} (h : s.step ops p.1 p.2 = .shift s' left) :
    s.advance ops (p :: ps) = s'.advance ops ps := by
  rw [advance, h]

theorem of_advance_cons {ops : OperatorSet} {s s' : State} {p : Token × Nat}
    {placed : List (Token × Nat)} (h : s.advance ops (p :: placed) = some s') :
    ∃ s₁ left, s.step ops p.1 p.2 = .shift s₁ left ∧ s₁.advance ops placed = some s' := by
  rw [advance] at h
  cases hstep : s.step ops p.1 p.2 with
  | fail e => rw [hstep] at h; cases h
  | shift s₁ left =>
      rw [hstep] at h
      exact ⟨s₁, left, rfl, h⟩

theorem advance_append {ops : OperatorSet} {s s' s'' : State} {ps qs : List (Token × Nat)}
    (h : s.advance ops ps = some s') (h' : s'.advance ops qs = some s'') :
    s.advance ops (ps ++ qs) = some s'' := by
  induction ps generalizing s with
  | nil => cases h; exact h'
  | cons p ps ih =>
      obtain ⟨s₁, left, hstep, hrest⟩ := of_advance_cons h
      exact (advance_cons hstep).trans (ih hrest)

/-! ### Behind a constraint

A clause is added to its group only when the token behind it is seen.  What
`settle` makes of a reader is the reader that has added it, and both treat the
next token and the end of the input alike. -/

/-- The reader stands behind a constraint: with the clause at hand added, it
holds `group` inside the groups `outer`. -/
def Behind (s : State) (group : Group) (outer : List Group) : Prop :=
  s.settle = .ok ⟨.groupEnd, group, outer⟩

/-- A clause that is complete has been added, or has too many arguments. -/
theorem behind_of_settle {clause : Clause} {arguments : List String} {group : Group}
    {outer : List Group} {s : State}
    (h : settle ⟨.clauseEnd clause arguments, group, outer⟩ = .ok s) :
    Behind ⟨.clauseEnd clause arguments, group, outer⟩ s.group s.outer := by
  unfold Behind
  unfold settle at h ⊢
  dsimp only at h ⊢
  split at h
  · cases h
  · next hcount => rw [if_neg hcount]; cases h; rfl

theorem Behind.step {s : State} {group : Group} {outer : List Group}
    (h : s.Behind group outer) (ops : OperatorSet) (token : Token) (position : Nat) :
    s.step ops token position = continueGroup ⟨.groupEnd, group, outer⟩ token position := by
  obtain ⟨phase, g, o⟩ := s
  cases phase with
  | clauseEnd clause arguments => unfold State.step; dsimp only; rw [h]
  | groupEnd => unfold State.step; dsimp only; rw [h]
  | _ => cases h

theorem Behind.close {s : State} {group : Group} {outer : List Group}
    (h : s.Behind group outer) (position : Nat) :
    s.close position =
      if outer.isEmpty then .ok group.node else .error (.unexpected .groupEnd none position) := by
  obtain ⟨phase, g, o⟩ := s
  cases phase with
  | clauseEnd clause arguments => unfold State.close; dsimp only; rw [h]
  | groupEnd => unfold State.close; dsimp only; rw [h]
  | _ => cases h

/-- A reader that accepts the end stands behind a constraint, in no group. -/
theorem behind_of_close {s : State} {position : Nat} {n : Node} (h : s.close position = .ok n) :
    ∃ group : Group, s.Behind group [] ∧ n = group.node := by
  obtain ⟨phase, g, o⟩ := s
  cases phase with
  | groupEnd =>
      cases o with
      | nil => cases h; exact ⟨g, rfl, rfl⟩
      | cons _ _ => cases h
  | clauseEnd clause arguments =>
      unfold State.close at h
      dsimp only at h
      split at h
      · cases h
      · next s' hs' =>
          have hbehind := behind_of_settle hs'
          split at h
          · next hnil =>
              cases h
              rw [List.isEmpty_iff.mp hnil] at hbehind
              exact ⟨s'.group, hbehind, rfl⟩
          · cases h
  | _ => cases h

end State

/-! ## Soundness -/

/-- What has been read of a repetition when another part must follow: nothing
yet, or parts and a separator. -/
inductive Before {α : Type} (Parts : List Token → List α → Prop) (Sep : Token → Prop) :
    List Token → List α → Prop
  | nothing : Before Parts Sep [] []
  | parts {ts : List Token} {xs : List α} {sep : Token} :
      Parts ts xs → Sep sep → Before Parts Sep (ts ++ [sep]) xs

section
variable {ops : OperatorSet} {ts us : List Token}

theorem Before.value {as : List String} {t : Token} {a : String}
    (h : Before Values (· = .comma) ts as) (ht : Value t a) :
    Values (ts ++ [t]) (as ++ [a]) := by
  cases h with
  | nothing => exact .one ht
  | parts hts hsep => exact .more hts hsep ht

theorem Before.constraint {ns : List Node} {n : Node}
    (h : Before (Conjunction ops) PartsAll ts ns) (hu : Constraint ops us n) :
    Conjunction ops (ts ++ us) (ns ++ [n]) := by
  cases h with
  | nothing => exact .one hu
  | parts hts hsep => exact .more hts hsep hu

theorem Before.conjunction {ms ns : List Node}
    (h : Before (Alternatives ops) PartsAny ts ms) (hu : Conjunction ops us ns) :
    Alternatives ops (ts ++ us) (ms ++ [Node.group .all ns]) := by
  cases h with
  | nothing => exact .one hu
  | parts hts hsep => exact .more hts hsep hu

end

/-! ### Groups -/

namespace Group

/-- `ts` is what has been read of a group when a constraint must follow. -/
inductive Open (ops : OperatorSet) : List Token → Group → Prop
  | mk {ts us : List Token} {g : Group} :
      Before (Alternatives ops) PartsAny ts g.alternatives.reverse →
      Before (Conjunction ops) PartsAll us g.conjuncts.reverse → Open ops (ts ++ us) g

/-- `ts` is what has been read of a group behind a constraint. -/
inductive Full (ops : OperatorSet) : List Token → Group → Prop
  | mk {ts us : List Token} {g : Group} :
      Before (Alternatives ops) PartsAny ts g.alternatives.reverse →
      Conjunction ops us g.conjuncts.reverse → Full ops (ts ++ us) g

section
variable {ops : OperatorSet} {ts us : List Token} {g : Group}

theorem open_empty : Open ops [] .empty :=
  @Open.mk ops [] [] .empty .nothing .nothing

theorem Open.push {n : Node} (h : Open ops ts g) (hn : Constraint ops us n) :
    Full ops (ts ++ us) (g.push n) := by
  cases h with
  | mk hany hall =>
      rw [List.append_assoc]
      refine .mk hany ?_
      show Conjunction ops _ (n :: g.conjuncts).reverse
      rw [List.reverse_cons]
      exact hall.constraint hn

theorem Full.alternatives (h : Full ops ts g) :
    Alternatives ops ts g.endConjunction.alternatives.reverse := by
  cases h with
  | mk hany hall =>
      show Alternatives ops _ (Node.group .all g.conjuncts.reverse :: g.alternatives).reverse
      rw [List.reverse_cons]
      exact hany.conjunction hall

theorem Full.openAll {sep : Token} (h : Full ops ts g) (hsep : PartsAll sep) :
    Open ops (ts ++ [sep]) g := by
  cases h with
  | mk hany hall =>
      rw [List.append_assoc]
      exact .mk hany (.parts hall hsep)

theorem Full.openAny {sep : Token} (h : Full ops ts g) (hsep : PartsAny sep) :
    Open ops (ts ++ [sep]) g.endConjunction := by
  have hopen : Open ops (ts ++ [sep] ++ []) g.endConjunction :=
    .mk (.parts h.alternatives hsep) .nothing
  rwa [List.append_nil] at hopen

theorem Full.constraint (h : Full ops ts g) :
    Constraint ops (.openParen :: ts ++ [.closeParen]) g.node :=
  .group h.alternatives

end
end Group

/-! ### Readers -/

/-- `ts` is what has been read of the groups around the open one, up to the
parenthesis that opens it. -/
inductive Around (ops : OperatorSet) : List Token → List Group → Prop
  | nil : Around ops [] []
  | cons {ts us : List Token} {outer : List Group} {g : Group} :
      Around ops ts outer → g.Open ops us → Around ops (ts ++ us ++ [.openParen]) (g :: outer)

/-- A clause up to its operator. -/
def Clause.Head (ops : OperatorSet) (ts : List Token) (clause : Clause) : Prop :=
  ∃ symbol, ops.Spells clause.operator symbol ∧
    ts = [.bare clause.selector, .operator symbol]

/-- `ts` is what has been read of the clause at hand. -/
inductive Phase.Begun (ops : OperatorSet) : List Token → Phase → Prop
  | constraint : Begun ops [] .constraint
  | operator (selector : String) : Begun ops [.bare selector] (.operator selector)
  | arguments {ts : List Token} {clause : Clause} :
      clause.Head ops ts → Begun ops ts (.arguments clause)
  | argument {ts us : List Token} {clause : Clause} {before : List String} :
      clause.Head ops ts → Before Values (· = .comma) us before.reverse →
      Begun ops (ts ++ .openParen :: us) (.argument clause before)
  | argumentEnd {ts us : List Token} {clause : Clause} {before : List String} :
      clause.Head ops ts → Values us before.reverse →
      Begun ops (ts ++ .openParen :: us) (.argumentEnd clause before)
  | clauseEnd {ts us : List Token} {clause : Clause} {arguments : List String} :
      clause.Head ops ts → Arguments us arguments →
      Begun ops (ts ++ us) (.clauseEnd clause arguments)

namespace State

/-- `ts` is what a reader has read to come to this state. -/
inductive Covers (ops : OperatorSet) : List Token → State → Prop
  | within {ts us vs : List Token} {s : State} :
      Around ops ts s.outer → s.group.Open ops us → s.phase.Begun ops vs →
      Covers ops (ts ++ us ++ vs) s
  | behind {ts us : List Token} {group : Group} {outer : List Group} :
      Around ops ts outer → group.Full ops us →
      Covers ops (ts ++ us) ⟨.groupEnd, group, outer⟩

section
variable {ops : OperatorSet} {ts : List Token}

theorem covers_initial : Covers ops [] initial :=
  @Covers.within ops [] [] [] initial .nil Group.open_empty .constraint

/-- A reader behind a constraint has read the groups around and the open group
up to it: the clause at hand is complete, and has as many arguments as its
operator allows. -/
theorem Covers.full {s : State} {group : Group} {outer : List Group}
    (h : s.Covers ops ts) (hs : s.Behind group outer) :
    ∃ us vs, ts = us ++ vs ∧ Around ops us outer ∧ group.Full ops vs := by
  cases h with
  | behind hout hfull => cases hs; exact ⟨_, _, rfl, hout, hfull⟩
  | @within us vs ws s hout hopen hbegun =>
      obtain ⟨phase, g, o⟩ := s
      cases hbegun with
      | @clauseEnd head rest clause arguments hhead hargs =>
          unfold Behind settle at hs
          dsimp only at hs
          split at hs
          · cases hs
          · next hcount =>
              cases hs
              obtain ⟨symbol, hspells, rfl⟩ := hhead
              refine ⟨us, vs ++ _, List.append_assoc _ _ _, hout, hopen.push ?_⟩
              refine .comparison hspells hargs ?_
              cases hlist : clause.operator.takesList with
              | true => exact .inl rfl
              | false =>
                  have hpos : 0 < arguments.length := hargs.length_pos
                  simp only [hlist, Bool.not_false, Bool.true_and, decide_eq_true_eq] at hcount
                  exact .inr (by omega)
      | _ => cases hs

theorem covers_continueGroup {us vs : List Token} {group : Group} {outer : List Group}
    {token : Token} {position : Nat} {s : State} {left : Option Token}
    (hout : Around ops us outer) (hfull : group.Full ops vs)
    (h : continueGroup ⟨.groupEnd, group, outer⟩ token position = .shift s left) :
    s.Covers ops (us ++ vs ++ [token]) := by
  unfold continueGroup at h
  dsimp only at h
  split at h
  · next hall =>
      cases h
      have hcovers := @Covers.within ops us (vs ++ [token]) [] ⟨.constraint, group, outer⟩
        hout (hfull.openAll hall) .constraint
      rwa [List.append_nil, ← List.append_assoc] at hcovers
  · split at h
    · next hany =>
        cases h
        have hcovers := @Covers.within ops us (vs ++ [token]) []
          ⟨.constraint, group.endConjunction, outer⟩ hout (hfull.openAny hany) .constraint
        rwa [List.append_nil, ← List.append_assoc] at hcovers
    · split at h
      · next around outer' _ _ =>
          cases h
          cases hout with
          | @cons ts' us' _ _ hout' hopen =>
              have hcovers : Covers ops _ ⟨.groupEnd, around.push group.node, outer'⟩ :=
                .behind hout' (hopen.push hfull.constraint)
              simpa only [List.append_assoc, List.cons_append, List.nil_append] using hcovers
      · cases h
      · cases h

theorem Covers.goto {us vs ws : List Token} {group : Group} {outer : List Group} {phase : Phase}
    {token : Token} (hout : Around ops us outer) (hopen : group.Open ops vs)
    (hbegun : phase.Begun ops (ws ++ [token])) :
    Covers ops (us ++ vs ++ ws ++ [token]) ⟨phase, group, outer⟩ := by
  rw [List.append_assoc (us ++ vs)]
  exact .within hout hopen hbegun

/-- **Soundness of one token.**  What a reader has read, and the token that it
takes, is what it has read in its next state. -/
theorem covers_step {s s' : State} {token : Token} {position : Nat} {left : Option Token}
    (hs : s.Covers ops ts) (h : s.step ops token position = .shift s' left) :
    s'.Covers ops (ts ++ [token]) := by
  cases hs with
  | behind hout hfull => exact covers_continueGroup hout hfull h
  | @within us vs ws s hout hopen hbegun =>
      obtain ⟨phase, group, outer⟩ := s
      cases hbegun with
      | constraint =>
          cases token with
          | openParen =>
              cases h
              have hcovers := @Covers.within ops (us ++ vs ++ [.openParen]) [] []
                ⟨.constraint, .empty, group :: outer⟩ (.cons hout hopen) Group.open_empty
                .constraint
              simpa only [List.append_nil] using hcovers
          | bare selector => cases h; exact .goto hout hopen (.operator selector)
          | _ => cases h
      | operator selector =>
          cases token with
          | operator symbol =>
              unfold State.step at h
              dsimp only at h
              split at h
              · next op hlookup =>
                  cases h
                  exact .goto hout hopen (.arguments ⟨symbol, lookup_eq_some_iff.mp hlookup, rfl⟩)
              · cases h
          | _ => cases h
      | arguments hhead =>
          cases token with
          | openParen => cases h; exact .goto hout hopen (.argument hhead .nothing)
          | bare text => cases h; exact .goto hout hopen (.clauseEnd hhead (.lone (.bare text)))
          | quoted text => cases h; exact .goto hout hopen (.clauseEnd hhead (.lone (.quoted text)))
          | _ => cases h
      | @argument head rest clause before hhead hbefore =>
          unfold State.step at h
          dsimp only at h
          split at h
          · next text htext =>
              cases h
              have hvalues := hbefore.value (value_iff.mpr htext)
              rw [← List.reverse_cons] at hvalues
              refine .goto hout hopen ?_
              rw [List.append_assoc, List.cons_append]
              exact .argumentEnd hhead hvalues
          · cases h
      | @argumentEnd head rest clause before hhead hvalues =>
          cases token with
          | comma =>
              cases h
              refine .goto hout hopen ?_
              rw [List.append_assoc, List.cons_append]
              exact .argument hhead (.parts hvalues rfl)
          | closeParen =>
              cases h
              refine .goto hout hopen ?_
              rw [List.append_assoc]
              exact .clauseEnd hhead (.list hvalues)
          | _ => cases h
      | @clauseEnd head rest clause arguments hhead hargs =>
          have hcovers := @Covers.within ops us vs _ ⟨.clauseEnd clause arguments, group, outer⟩
            hout hopen (.clauseEnd hhead hargs)
          unfold State.step at h
          dsimp only at h
          split at h
          · next s₁ hs₁ =>
              -- the token is seen by the reader that has added the clause
              have hbehind := behind_of_settle hs₁
              have heq : s₁ = ⟨.groupEnd, s₁.group, s₁.outer⟩ :=
                Except.ok.inj (hs₁.symm.trans hbehind)
              obtain ⟨us', vs', hts, hout', hfull⟩ := hcovers.full hbehind
              rw [hts]
              rw [heq] at h
              exact covers_continueGroup hout' hfull h
          · cases h

theorem covers_advance {s s' : State} {placed : List (Token × Nat)} (hs : s.Covers ops ts)
    (h : s.advance ops placed = some s') : s'.Covers ops (ts ++ placed.map Prod.fst) := by
  induction placed generalizing s ts with
  | nil => cases h; rw [List.map_nil, List.append_nil]; exact hs
  | cons p placed ih =>
      obtain ⟨s₁, left, hstep, hrest⟩ := of_advance_cons h
      have hcovers := ih (covers_step hs hstep) hrest
      rwa [List.append_assoc] at hcovers

theorem covers_close {s : State} {position : Nat} {n : Node} (hs : s.Covers ops ts)
    (h : s.close position = .ok n) : Expression ops ts n := by
  obtain ⟨group, hbehind, rfl⟩ := behind_of_close h
  obtain ⟨us, vs, rfl, hout, hfull⟩ := hs.full hbehind
  cases hout with
  | nil => exact .alternatives hfull.alternatives

end
end State

/-! ## Completeness

Positions are in a state only to be told in a message, so the lemmas hold of
the tokens at any positions: `placed` is a list of tokens with positions, of
which the tokens are those of a derivation. -/

namespace State

section
variable {ops : OperatorSet}

theorem step_argument {t : Token} {a : String} (h : Value t a) (position : Nat) (clause : Clause)
    (before : List String) (group : Group) (outer : List Group) :
    step ops ⟨.argument clause before, group, outer⟩ t position =
      .shift ⟨.argumentEnd clause (a :: before), group, outer⟩ none := by
  unfold State.step
  dsimp only
  rw [value_iff.mp h]

theorem advance_values {ts : List Token} {as : List String} (h : Values ts as) :
    ∀ {placed : List (Token × Nat)}, placed.map Prod.fst = ts →
    ∀ (clause : Clause) (group : Group) (outer : List Group),
      advance ops ⟨.argument clause [], group, outer⟩ placed =
        some ⟨.argumentEnd clause as.reverse, group, outer⟩ := by
  induction h with
  | one hvalue =>
      intro placed hplaced clause group outer
      obtain ⟨p, rfl, rfl⟩ := List.map_eq_singleton_iff.mp hplaced
      exact advance_cons (step_argument hvalue p.2 clause [] group outer)
  | @more ts as sep t a _ hsep hvalue ih =>
      intro placed hplaced clause group outer
      obtain ⟨front, last, rfl, hfront, hlast⟩ := List.map_eq_append_iff.mp hplaced
      obtain ⟨ps, comma, rfl, hps, hcomma⟩ := List.map_eq_append_iff.mp hfront
      obtain ⟨p, rfl, rfl⟩ := List.map_eq_singleton_iff.mp hlast
      obtain ⟨q, rfl, rfl⟩ := List.map_eq_singleton_iff.mp hcomma
      rw [List.reverse_append]
      refine advance_append (advance_append (ih hps clause group outer) ?_)
        (advance_cons (step_argument hvalue p.2 clause as.reverse group outer))
      obtain ⟨token, position⟩ := q
      cases hsep
      rfl

theorem advance_arguments {ts : List Token} {as : List String} (h : Arguments ts as)
    {placed : List (Token × Nat)} (hplaced : placed.map Prod.fst = ts)
    (clause : Clause) (group : Group) (outer : List Group) :
    advance ops ⟨.arguments clause, group, outer⟩ placed =
      some ⟨.clauseEnd clause as, group, outer⟩ := by
  cases h with
  | lone hvalue =>
      obtain ⟨p, rfl, rfl⟩ := List.map_eq_singleton_iff.mp hplaced
      obtain ⟨token, position⟩ := p
      cases hvalue <;> rfl
  | @list ts _ hvalues =>
      obtain ⟨front, last, rfl, hfront, hlast⟩ := List.map_eq_append_iff.mp hplaced
      obtain ⟨⟨q, _⟩, ps, rfl, hq, hps⟩ := List.map_eq_cons_iff.mp hfront
      obtain ⟨⟨p, _⟩, rfl, hp⟩ := List.map_eq_singleton_iff.mp hlast
      cases hq
      cases hp
      have hinside := @advance_values ops _ _ hvalues _ hps clause group outer
      rw [List.cons_append]
      refine (advance_cons rfl).trans (advance_append hinside ?_)
      show some _ = some _
      rw [List.reverse_reverse]

theorem behind_clauseEnd {clause : Clause} {arguments : List String}
    (h : clause.operator.takesList = true ∨ arguments.length = 1) (group : Group)
    (outer : List Group) :
    Behind ⟨.clauseEnd clause arguments, group, outer⟩
      (group.push (.comparison ⟨clause.selector, clause.operator, arguments⟩)) outer := by
  unfold Behind settle
  dsimp only
  rw [if_neg]
  rcases h with h | h <;> simp [h]

theorem step_operator {op : Operator} {symbol : String} (h : ops.Spells op symbol)
    (position : Nat) (selector : String) (group : Group) (outer : List Group) :
    step ops ⟨.operator selector, group, outer⟩ (.operator symbol) position =
      .shift ⟨.arguments ⟨selector, op, position⟩, group, outer⟩ (some (.operator symbol)) := by
  unfold State.step
  dsimp only
  rw [lookup_eq_some_iff.mpr h]

theorem Behind.step_all {s : State} {group : Group} {outer : List Group} {token : Token}
    (h : s.Behind group outer) (hall : PartsAll token) (position : Nat) :
    s.step ops token position = .shift ⟨.constraint, group, outer⟩ (some token) := by
  rw [h.step]
  exact if_pos hall

theorem Behind.step_any {s : State} {group : Group} {outer : List Group} {token : Token}
    (h : s.Behind group outer) (hany : PartsAny token) (position : Nat) :
    s.step ops token position =
      .shift ⟨.constraint, group.endConjunction, outer⟩ (some token) := by
  have hall : ¬ PartsAll token := by
    rcases hany with rfl | rfl <;> simp [PartsAll]
  rw [h.step]
  exact (if_neg hall).trans (if_pos hany)

theorem Behind.step_close {s : State} {group around : Group} {outer : List Group}
    (h : s.Behind group (around :: outer)) (position : Nat) :
    s.step ops .closeParen position =
      .shift ⟨.groupEnd, around.push group.node, outer⟩ (some .closeParen) := by
  rw [h.step]
  rfl

/-! ### Derivations

One statement for each kind of part: its tokens take a reader that expects a
constraint to one behind it, with the part added to the open group. -/

mutual

theorem advance_constraint : ∀ {ts : List Token} {n : Node}, Constraint ops ts n →
    ∀ {placed : List (Token × Nat)}, placed.map Prod.fst = ts →
    ∀ (group : Group) (outer : List Group),
      ∃ s, advance ops ⟨.constraint, group, outer⟩ placed = some s ∧
        s.Behind (group.push n) outer
  | _, _, @Constraint.group _ _ ns halts, placed, hplaced, group, outer => by
      obtain ⟨front, last, rfl, hfront, hlast⟩ := List.map_eq_append_iff.mp hplaced
      obtain ⟨⟨q, _⟩, ps, rfl, hq, hps⟩ := List.map_eq_cons_iff.mp hfront
      obtain ⟨⟨p, position⟩, rfl, hp⟩ := List.map_eq_singleton_iff.mp hlast
      cases hq
      cases hp
      obtain ⟨s, inside, hadvance, hbehind, hnodes⟩ :=
        advance_alternatives halts hps (group :: outer)
      have hnode : inside.node = Node.group .any ns := by
        rw [Group.node, hnodes, List.reverse_reverse]
      refine ⟨⟨.groupEnd, group.push inside.node, outer⟩, ?_, by rw [hnode]; rfl⟩
      rw [List.cons_append]
      exact (advance_cons rfl).trans
        (advance_append hadvance (advance_cons (hbehind.step_close position)))
  | _, _, @Constraint.comparison _ selector _ op _ _ hspells hargs hcount, placed, hplaced,
      group, outer => by
      obtain ⟨⟨q, _⟩, _, rfl, hq, htail⟩ := List.map_eq_cons_iff.mp hplaced
      obtain ⟨⟨p, position⟩, rest, rfl, hp, hrest⟩ := List.map_eq_cons_iff.mp htail
      cases hq
      cases hp
      refine ⟨_, ?_, @behind_clauseEnd ⟨selector, op, position⟩ _ hcount group outer⟩
      refine (advance_cons rfl).trans ?_
      exact (advance_cons (step_operator hspells position selector group outer)).trans
        (advance_arguments hargs hrest _ group outer)

theorem advance_conjunction : ∀ {ts : List Token} {ns : List Node}, Conjunction ops ts ns →
    ∀ {placed : List (Token × Nat)}, placed.map Prod.fst = ts →
    ∀ (alternatives : List Node) (outer : List Group),
      ∃ s, advance ops ⟨.constraint, ⟨alternatives, []⟩, outer⟩ placed = some s ∧
        s.Behind ⟨alternatives, ns.reverse⟩ outer
  | _, _, .one h, placed, hplaced, alternatives, outer =>
      advance_constraint h hplaced ⟨alternatives, []⟩ outer
  | _, _, @Conjunction.more _ _ _ ns _ _ hts hsep hn, placed, hplaced, alternatives, outer => by
      obtain ⟨front, last, rfl, hfront, hlast⟩ := List.map_eq_append_iff.mp hplaced
      obtain ⟨ps, sep, rfl, hps, hq⟩ := List.map_eq_append_iff.mp hfront
      obtain ⟨⟨q, position⟩, rfl, rfl⟩ := List.map_eq_singleton_iff.mp hq
      obtain ⟨s, hs, hbehind⟩ := advance_conjunction hts hps alternatives outer
      obtain ⟨s', hs', hbehind'⟩ := advance_constraint hn hlast ⟨alternatives, ns.reverse⟩ outer
      refine ⟨s', ?_, by rw [List.reverse_append]; exact hbehind'⟩
      refine advance_append (advance_append hs ?_) hs'
      exact advance_cons (hbehind.step_all hsep position)

theorem advance_alternatives : ∀ {ts : List Token} {ns : List Node}, Alternatives ops ts ns →
    ∀ {placed : List (Token × Nat)}, placed.map Prod.fst = ts →
    ∀ (outer : List Group),
      ∃ s group, advance ops ⟨.constraint, .empty, outer⟩ placed = some s ∧
        s.Behind group outer ∧ group.endConjunction.alternatives = ns.reverse
  | _, _, @Alternatives.one _ _ ns h, placed, hplaced, outer => by
      obtain ⟨s, hs, hbehind⟩ := advance_conjunction h hplaced [] outer
      refine ⟨s, _, hs, hbehind, ?_⟩
      show [Node.group .all ns.reverse.reverse] = _
      rw [List.reverse_reverse]
      rfl
  | _, _, @Alternatives.more _ _ _ ms ns _ hts hsep hns, placed, hplaced, outer => by
      obtain ⟨front, last, rfl, hfront, hlast⟩ := List.map_eq_append_iff.mp hplaced
      obtain ⟨ps, sep, rfl, hps, hq⟩ := List.map_eq_append_iff.mp hfront
      obtain ⟨⟨q, position⟩, rfl, rfl⟩ := List.map_eq_singleton_iff.mp hq
      obtain ⟨s, group, hs, hbehind, hnodes⟩ := advance_alternatives hts hps outer
      obtain ⟨s', hs', hbehind'⟩ := advance_conjunction hns hlast ms.reverse outer
      refine ⟨s', _, ?_, hbehind', ?_⟩
      · refine advance_append (advance_append hs ?_) hs'
        rw [← hnodes]
        exact advance_cons (hbehind.step_any hsep position)
      · show Node.group .all ns.reverse.reverse :: ms.reverse = _
        rw [List.reverse_reverse, List.reverse_append]
        rfl

end

end
end State

/-! ## From the list of readings to the tokens -/

namespace State

/-- What the reader makes of the readings that are left: it stops at a fault, at the end of
the text and at a token that it refuses, and goes on behind a token that it takes. -/
inductive Ends (ops : OperatorSet) : State → Lexer → Except ParseError Node → Prop
  | fault {s : State} {l : Lexer} {e : LexError} :
      l.next.1.outcome = .error e → Ends ops s l (.error (.lex e))
  | close {s : State} {l : Lexer} :
      l.next.1.outcome = .ok none → Ends ops s l (s.close l.next.1.start)
  | refuse {s : State} {l : Lexer} {token : Token} {e : ParseError} :
      l.next.1.outcome = .ok (some token) → s.step ops token l.next.1.start = .fail e →
      Ends ops s l (.error e)
  | shift {s s' : State} {l : Lexer} {token : Token} {left : Option Token}
      {outcome : Except ParseError Node} :
      l.next.1.outcome = .ok (some token) →
      s.step ops token l.next.1.start = .shift s' left → Ends ops s' l.next.2 outcome →
      Ends ops s l outcome

/-- The tokens that `l` yields up to the end of its text take the reader `s`
to the tree `n`. -/
def Accepts (ops : OperatorSet) (s : State) (l : Lexer) (n : Node) : Prop :=
  ∃ placed l' s', l.Yields placed l' ∧ l'.next.1.outcome = .ok none ∧
    s.advance ops placed = some s' ∧ s'.close l'.next.1.start = .ok n

variable {ops : OperatorSet} {s : State} {l : Lexer} {n : Node}

theorem Ends.unique {outcome outcome' : Except ParseError Node} (h : s.Ends ops l outcome)
    (h' : s.Ends ops l outcome') : outcome = outcome' := by
  induction h generalizing outcome' with
  | fault hout =>
      cases h' with
      | fault hout' => rw [hout] at hout'; cases hout'; rfl
      | _ hout' => rw [hout] at hout'; cases hout'
  | close hout =>
      cases h' with
      | close _ => rfl
      | _ hout' => rw [hout] at hout'; cases hout'
  | refuse hout hstep =>
      cases h' with
      | refuse hout' hstep' =>
          rw [hout] at hout'
          cases hout'
          rw [hstep] at hstep'
          cases hstep'
          rfl
      | shift hout' hstep' _ =>
          rw [hout] at hout'
          cases hout'
          rw [hstep] at hstep'
          cases hstep'
      | _ hout' => rw [hout] at hout'; cases hout'
  | shift hout hstep _ ih =>
      cases h' with
      | shift hout' hstep' hrest =>
          rw [hout] at hout'
          cases hout'
          rw [hstep] at hstep'
          cases hstep'
          exact ih hrest
      | refuse hout' hstep' =>
          rw [hout] at hout'
          cases hout'
          rw [hstep] at hstep'
          cases hstep'
      | _ hout' => rw [hout] at hout'; cases hout'

theorem accepts_iff_ends : s.Accepts ops l n ↔ s.Ends ops l (.ok n) := by
  constructor
  · rintro ⟨placed, l', s', hyields, hend, hadvance, hclose⟩
    induction hyields generalizing s with
    | refl l =>
        cases hadvance
        rw [← hclose]
        exact .close hend
    | step hnext _ ih =>
        obtain ⟨s₁, left, hstep, hrest⟩ := of_advance_cons hadvance
        exact .shift hnext hstep (ih hend hrest hclose)
  · intro h
    generalize houtcome : Except.ok n = outcome at h
    induction h with
    | fault _ => cases houtcome
    | @close s l hend => exact ⟨[], l, s, .refl l, hend, rfl, houtcome.symm⟩
    | refuse _ _ => cases houtcome
    | shift hnext hstep _ ih =>
        obtain ⟨placed, l', s', hyields, hend, hadvance, hclose⟩ := ih houtcome
        exact ⟨_, l', s', .step hnext hyields, hend, (advance_cons hstep).trans hadvance, hclose⟩

end State

theorem run_fail {p : Parser} {s : State} {token : Token} {position : Nat} {e : ParseError}
    (h : s.step p.operators token position = .fail e) (readings : List Lexer.Reading) :
    (p.run s token position readings).1 = .error e := by
  cases readings with
  | nil => rw [run, h]; rfl
  | cons reading upcoming => rw [run, h]; rfl

/-- **What a run over all readings of a lexer returns**, the first one being a token. -/
theorem run_ends (p : Parser) {l : Lexer} {s : State} {token : Token}
    (htoken : l.next.1.outcome = .ok (some token)) (hending : p.ending = l.next.2.feed.2) :
    s.Ends p.operators l (p.run s token l.next.1.start l.next.2.feed.1).1 := by
  -- on the text that is left, which the token has made shorter
  induction hlen : l.rest.length using Nat.strongRecOn generalizing l s token with
  | ind len ih =>
      cases hstep : s.step p.operators token l.next.1.start with
      | fail e =>
          rw [run_fail hstep]
          exact .refuse htoken hstep
      | shift s₁ left =>
          refine .shift htoken hstep ?_
          by_cases hlt : l.next.2.next.2.rest.length < l.next.2.rest.length
          · rw [Lexer.feed_of_lt hlt] at hending ⊢
            rw [run, hstep]
            dsimp only
            cases hout : l.next.2.next.1.outcome with
            | error e => exact .fault hout
            | ok t =>
                cases t with
                | none => exact .close hout
                | some t => exact ih _ (hlen ▸ (Lexer.next_ok htoken).1) hout hending rfl
          · rw [Lexer.feed_of_not_lt hlt] at hending ⊢
            rw [run, hstep]
            dsimp only
            rw [hending]
            cases hout : l.next.2.next.1.outcome with
            | error e => exact .fault hout
            | ok t =>
                cases t with
                | none => exact .close hout
                | some t => exact absurd (Lexer.next_ok hout).1 hlt

theorem parse_of_end {text : String} {ops : OperatorSet}
    (h : (Lexer.ofString text).next.1.outcome = .ok none) :
    Node.parse text ops = .error .empty := by
  unfold Node.parse ofString
  generalize Lexer.ofString text = l at h ⊢
  by_cases hlt : l.next.2.rest.length < l.rest.length
  · rw [Lexer.feed_of_lt hlt]
    dsimp only
    rw [h]
    rfl
  · rw [Lexer.feed_of_not_lt hlt]
    dsimp only
    rw [h]
    rfl

/-- **What reading a text returns** where the lexer finds a token or a fault. -/
theorem parse_ends {text : String} {ops : OperatorSet}
    (h : (Lexer.ofString text).next.1.outcome ≠ .ok none) :
    State.initial.Ends ops (Lexer.ofString text) (Node.parse text ops) := by
  unfold Node.parse ofString
  generalize Lexer.ofString text = l at h ⊢
  by_cases hlt : l.next.2.rest.length < l.rest.length
  · rw [Lexer.feed_of_lt hlt]
    dsimp only
    cases hout : l.next.1.outcome with
    | error e => exact .fault hout
    | ok t =>
        cases t with
        | none => exact absurd hout h
        | some t =>
            exact run_ends ⟨ops, some t, l.next.1.start, l.next.2.feed.1, l.next.2.feed.2⟩ hout rfl
  · rw [Lexer.feed_of_not_lt hlt]
    dsimp only
    cases hout : l.next.1.outcome with
    | error e => exact .fault hout
    | ok t =>
        cases t with
        | none => exact absurd hout h
        | some t => exact absurd (Lexer.next_ok hout).1 hlt

theorem parse_eq_ok_iff_accepts {text : String} {ops : OperatorSet} {n : Node} :
    Node.parse text ops = .ok n ↔ State.initial.Accepts ops (Lexer.ofString text) n := by
  rw [State.accepts_iff_ends]
  by_cases hend : (Lexer.ofString text).next.1.outcome = .ok none
  · rw [parse_of_end hend]
    constructor
    · intro h
      cases h
    · intro h
      cases h.unique (.close hend)
  · have hends := @parse_ends text ops hend
    exact ⟨fun h => h ▸ hends, hends.unique⟩

theorem State.Accepts.expression {ops : OperatorSet} {l : Lexer} {n : Node}
    (h : State.initial.Accepts ops l n) : ∃ ts, l.ReadsAll ts ∧ Expression ops ts n := by
  obtain ⟨placed, l', s, hyields, hend, hadvance, hclose⟩ := h
  have hcovers := State.covers_advance State.covers_initial hadvance
  exact ⟨_, ⟨placed, l', hyields, hend, rfl⟩, State.covers_close hcovers hclose⟩

theorem accepts_of_expression {ops : OperatorSet} {l : Lexer} {ts : List Token} {n : Node}
    (hreads : l.ReadsAll ts) (h : Expression ops ts n) : State.initial.Accepts ops l n := by
  obtain ⟨placed, l', hyields, hend, hts⟩ := hreads
  obtain ⟨halts⟩ := h
  obtain ⟨s, group, hadvance, hbehind, hnodes⟩ := State.advance_alternatives halts hts []
  refine ⟨placed, l', s, hyields, hend, hadvance, ?_⟩
  rw [hbehind.close]
  show Except.ok (Node.group .any group.endConjunction.alternatives.reverse) = _
  rw [hnodes, List.reverse_reverse]

end Parser

theorem Node.expression_of_parse {text : String} {ops : OperatorSet} {n : Node}
    (h : Node.parse text ops = .ok n) :
    ∃ ts, (Lexer.ofString text).ReadsAll ts ∧ Expression ops ts n :=
  (Parser.parse_eq_ok_iff_accepts.mp h).expression

theorem Node.parse_of_expression {text : String} {ops : OperatorSet} {ts : List Token} {n : Node}
    (hreads : (Lexer.ofString text).ReadsAll ts) (h : Expression ops ts n) :
    Node.parse text ops = .ok n :=
  Parser.parse_eq_ok_iff_accepts.mpr (Parser.accepts_of_expression hreads h)

/-! ## The theorem -/

/-- **Reading accepts exactly the grammar, and builds the tree of the
derivation.** -/
theorem parse_eq_ok_iff_expression (text : String) (ops : OperatorSet) (n : Node) :
    Node.parse text ops = .ok n ↔
      ∃ ts, (Lexer.ofString text).ReadsAll ts ∧ Expression ops ts n :=
  ⟨Node.expression_of_parse, fun ⟨_, hreads, h⟩ => Node.parse_of_expression hreads h⟩

end RecordFilter
