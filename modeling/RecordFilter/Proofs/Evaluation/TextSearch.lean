/-
# `Proofs.Evaluation.TextSearch` — what a query for a text finds

A query `name=="..."` goes through five layers: the argument is read between its
quotes, its stars become wildcards, it is lower-cased, read as a pattern, and matched
with the lower-cased text of the record.  Together they come to this: the lower-cased
argument is a pattern in which `*` and `%` stand for any text and `_` for any one
character (`Wildcard.ofArgument`), and the lower-cased text has to fit it.

    what the query says of a record                            (`answer?_nameQuery`)
    which arguments find which texts                           (`textQuery_matches_iff`)
    when a query finds a text by a part of it                  (`wildcardQuery_finds`)

Argument and text are lower-cased apart.  A capital sigma is lower-cased by the letters
next to it, and the argument may lack those that it has in the text; nothing else can
make a part of a text other than it is alone.
-/
import RecordFilter.Compiler
import RecordFilter.Proofs.Evaluation.Truth
import RecordFilter.Proofs.Like
import RecordFilter.Proofs.Node.RoundTrip
import RecordFilter.Proofs.Text.Lower

namespace RecordFilter

/-! ## Arguments as patterns -/

/-- What a character of a lower-cased argument stands for. -/
def Wildcard.ofArgument (c : Char) : Wildcard :=
  if c = '*' ∨ c = '%' then .any else if c = '_' then .one else .exactly c

theorem Wildcard.ofArgument_of_not_isMark {c : Char} (h : Text.isMark c = false) :
    ofArgument c = .exactly c := by
  have hnone : ¬ (c = '*' ∨ c = '%' ∨ c = '_') := fun hc => by
    rw [Text.isMark_iff.mpr hc] at h
    cases h
  rw [ofArgument, if_neg fun hc => hnone (hc.imp_right .inl),
    if_neg fun hc => hnone (.inr (.inr hc))]

theorem Wildcard.map_ofArgument {text : List Char} (h : ∀ c ∈ text, Text.isMark c = false) :
    text.map ofArgument = text.map .exactly :=
  List.map_congr_left fun c hc => ofArgument_of_not_isMark (h c hc)

theorem LikePattern.part_star (c : Char) :
    part (if c = '*' then '%' else c) = Wildcard.ofArgument c := by
  by_cases hc : Text.isMark c = true
  · rcases Text.isMark_iff.mp hc with rfl | rfl | rfl <;> rfl
  · rw [Bool.not_eq_true] at hc
    have hstar : c ≠ '*' := by
      rintro rfl
      cases hc
    rw [Wildcard.ofArgument_of_not_isMark hc, if_neg hstar]
    unfold part
    split
    · cases hc
    · cases hc
    · rfl

namespace Condition

/-- **The parts of an argument's pattern** are the wildcards of the lower-cased
argument. -/
theorem parts_likePattern (s : String) :
    (likePattern s).toList.map LikePattern.part =
      (Text.lowerChars s.toList).map Wildcard.ofArgument := by
  have hmark : ∀ c, Text.isMark (if c = '*' then '%' else c) = Text.isMark c := by
    intro c
    split
    · rename_i hc
      rw [hc]
      rfl
    · rfl
  have hplain : ∀ c, Text.isMark c = false → (if c = '*' then '%' else c) = c := by
    intro c hc
    refine if_neg ?_
    rintro rfl
    cases hc
  rw [likePattern, Text.lower, String.toList_ofList, String.toList_ofList,
    Text.lowerChars_map hmark hplain, List.map_map]
  exact List.map_congr_left fun c _ => LikePattern.part_star c

theorem matchesLower_likePattern_iff {s t : String} :
    (LikePattern.ofText (likePattern s)).matchesLower t = true ↔
      LikePattern.Fits ((Text.lowerChars s.toList).map Wildcard.ofArgument)
        (Text.lowerChars t.toList) := by
  rw [LikePattern.matchesLower, LikePattern.matchesText_iff, LikePattern.ofText, parts_likePattern]

end Condition

/-! ## The query -/

/-- The query that compares the property `name` to an argument between quotes. -/
def nameQuery (quote : Char) (body : List Char) : String :=
  "name==" ++ String.ofList (quote :: (body ++ [quote]))

/-- The record whose `name` is this text. -/
def Json.named (t : String) : Json :=
  .object [("name", .string t)]

/-- What the query compiles to. -/
def Predicate.nameLike (s : String) : Predicate :=
  .test ⟨[⟨"name", none⟩], .string⟩ (.like (Condition.likePattern s) false)

/-- What a query says of a record, run with an engine; nothing where it is no filter, or one
that cannot be run. -/
def Compiler.answer? (c : Compiler) (engine : PatternEngine) (e : Entity) (query : String)
    (record : Json) : Option Bool :=
  (c.compile e (some query)).toOption.join.bind fun f =>
    (engine.evaluator f).toOption.map (·.isMatch record)

variable {engine : PatternEngine} {c : Compiler} {e : Entity} {quote : Char} {body : List Char}
  {s t : String}

theorem parse_nameQuery (hop : .equal ∈ c.operators.toList) (hquote : Token.IsQuote quote)
    (hbody : Token.Quotes quote body s.toList) :
    c.parse (nameQuery quote body) = .ok (.comparison ⟨"name", .equal, [s]⟩) := by
  have htext : (nameQuery quote body).toList =
      "name".toList ++ (Operator.equal.symbol.toList ++ quote :: (body ++ quote :: [])) := by
    have hquoted : (String.ofList (quote :: (body ++ [quote]))).toList =
        quote :: (body ++ [quote]) := String.toList_ofList
    rw [nameQuery, String.toList_append, hquoted]
    rfl
  have hname : Lexer.Passes (nameQuery quote body).toList [.bare "name"]
      (Operator.equal.symbol.toList ++ quote :: (body ++ quote :: [])) := by
    have hunreserved : ∀ ch ∈ "name".toList, Token.isUnreserved ch = true :=
      List.all_eq_true.mp rfl
    rw [htext]
    exact Lexer.passes_bare (List.cons_ne_nil _ _) hunreserved (Token.breaks_cons rfl _)
  have hquoted := Lexer.passes_quoted hquote hbody []
  rw [String.ofList_toList] at hquoted
  have hpasses := (hname.trans (Lexer.passes_operator .equal _)).trans hquoted
  have hderived : Grammar.Constraint c.operators
      [.bare "name", .operator Operator.equal.symbol, .quoted s]
      (.comparison ⟨"name", .equal, [s]⟩) :=
    .comparison ⟨hop, List.mem_cons_self⟩ (.lone (.quoted s)) (.inr rfl)
  rw [Compiler.parse, Node.parse_of_expression hpasses.readsAll hderived.expression]
  rfl

theorem compile_nameQuery (hop : .equal ∈ c.operators.toList)
    (hname : e.attribute? "name" = some (.basic .string)) (hquote : Token.IsQuote quote)
    (hbody : Token.Quotes quote body s.toList) :
    c.compile e (some (nameQuery quote body)) = .ok (some (.ofPredicate (.nameLike s))) := by
  have hne : nameQuery quote body ≠ "" := by
    intro h
    have htext := congrArg String.toList h
    rw [nameQuery, String.toList_append] at htext
    cases htext
  have hresolve : e.resolve "name" = .ok ⟨[⟨"name", none⟩], .string⟩ := by
    have hdotted : Text.dotted "name" = ["name"] := by decide +kernel
    rw [Entity.resolve, hdotted, Entity.walk, if_neg (by decide), hname]
  rw [Compiler.compile, if_neg hne, parse_nameQuery hop hquote hbody]
  show Except.map _ (c.compileNode e (.comparison ⟨"name", .equal, [s]⟩)) = _
  rw [Compiler.compileNode, Compiler.compileComparison, hresolve]
  rfl

/-! ## Running it -/

namespace Predicate

theorem eval_nameLike {table : PatternTable} {prepared : LikePattern}
    (h : table.lookup (Condition.likePattern s) = some prepared) :
    (nameLike s).eval table (.named t) [] = some (prepared.matchesLower t) := by
  have hread : ResolvedPath.read ⟨[⟨"name", none⟩], .string⟩ (.named t) [] = some (.string t) := rfl
  rw [nameLike, eval, hread]
  simp only [Condition.eval, Option.bind_some, Json.textOf, PatternTable.like, h, Option.map_some,
    Bool.bne_false]

theorem matches_nameLike_iff (hruns : (nameLike s).Runs engine) :
    (nameLike s).Matches engine (.named t) ↔
      LikePattern.Fits ((Text.lowerChars s.toList).map Wildcard.ofArgument)
        (Text.lowerChars t.toList) := by
  obtain ⟨ev, hev⟩ := hruns
  obtain ⟨table, hprepared, _⟩ := evaluator_eq_ok_iff.mp hev
  have hserves : table.Serves (nameLike s).patterns := PatternTable.serves_of_prepare hprepared
  -- nothing is joined, so the one row is the empty one
  have hrows : Row.ofRecord (.named t) (nameLike s).joins = [[]] := rfl
  rw [matches_iff ⟨ev, hev⟩ hserves, hrows]
  simp only [List.mem_singleton, exists_eq_left, eval_nameLike (hserves _ List.mem_cons_self),
    Option.some.injEq, Condition.matchesLower_likePattern_iff]

end Predicate

theorem Compiler.answer?_eq {query : String} {f : Filter} (record : Json)
    (h : c.compile e (some query) = .ok (some f)) :
    c.answer? engine e query record = (engine.evaluator f).toOption.map (·.isMatch record) := by
  rw [answer?, h]
  rfl

/-- **What the query says of a name**, if its pattern is accepted: whether the lower-cased
text of the name fits the lower-cased argument. -/
theorem answer?_nameQuery (hop : .equal ∈ c.operators.toList)
    (hname : e.attribute? "name" = some (.basic .string)) (hquote : Token.IsQuote quote)
    (hbody : Token.Quotes quote body s.toList)
    (haccepts : engine.Accepts (Condition.likePattern s)) (t : String) :
    ∃ found, c.answer? engine e (nameQuery quote body) (.named t) = some found ∧
      (found = true ↔ LikePattern.Fits ((Text.lowerChars s.toList).map Wildcard.ofArgument)
        (Text.lowerChars t.toList)) := by
  obtain ⟨ev, hev⟩ : (Predicate.nameLike s).Runs engine :=
    (Predicate.runs_iff_of_pattern rfl).mpr haccepts
  refine ⟨ev.isMatch (.named t), ?_, ?_⟩
  · rw [Compiler.answer?_eq _ (compile_nameQuery hop hname hquote hbody), hev]
    rfl
  · rw [← Predicate.matches_nameLike_iff ⟨ev, hev⟩]
    constructor
    · exact fun hmatch => ⟨ev, hev, hmatch⟩
    · rintro ⟨ev', hev', hmatch⟩
      rw [hev] at hev'
      cases hev'
      exact hmatch

/-- An argument that is a part without marks, with marks in front of it or behind it. -/
theorem answer?_part {p : String} {front back : List Char} (hop : .equal ∈ c.operators.toList)
    (hname : e.attribute? "name" = some (.basic .string)) (hquote : Token.IsQuote quote)
    (hbody : Token.Quotes quote body s.toList) (hs : s.toList = front ++ (p.toList ++ back))
    (hp : ∀ ch ∈ p.toList, Text.isMark ch = false) (hfront : ∀ w ∈ front, Text.isMark w = true)
    (hback : ∀ w ∈ back, Text.isMark w = true)
    (haccepts : engine.Accepts (Condition.likePattern s)) (t : String) :
    ∃ found, c.answer? engine e (nameQuery quote body) (.named t) = some found ∧
      (found = true ↔ LikePattern.Fits (front.map Wildcard.ofArgument ++
        ((Text.lowerChars p.toList).map .exactly ++ back.map Wildcard.ofArgument))
        (Text.lowerChars t.toList)) := by
  obtain ⟨found, hanswer, hfound⟩ := answer?_nameQuery hop hname hquote hbody haccepts t
  rw [hs, Text.lowerChars_between hfront hback, List.map_append, List.map_append,
    Wildcard.map_ofArgument (Text.isMark_lowerChars hp)] at hfound
  exact ⟨found, hanswer, hfound⟩

/-- **Which arguments find which texts.**  A query for a text is a filter, whatever the
argument and however it is written between quotes.  If the engine takes its pattern, it
finds the names whose lower-cased text fits the lower-cased argument, in which `*` and `%`
stand for any text, `_` for any one character, and every other character for itself; so an
argument without marks finds the names that are equal to it in lower case.  If the engine
refuses its pattern, it cannot be run. -/
theorem textQuery_matches_iff (engine : PatternEngine) (c : Compiler) (e : Entity) (quote : Char)
    (body : List Char) (s t : String) (hop : .equal ∈ c.operators.toList)
    (hname : e.attribute? "name" = some (.basic .string)) (hquote : Token.IsQuote quote)
    (hbody : Token.Quotes quote body s.toList) :
    (∃ f, c.compile e (some (nameQuery quote body)) = .ok (some f)) ∧
    (engine.Accepts (Condition.likePattern s) →
      ∃ found, c.answer? engine e (nameQuery quote body) (.named t) = some found ∧
        (found = true ↔ LikePattern.Fits ((Text.lowerChars s.toList).map Wildcard.ofArgument)
          (Text.lowerChars t.toList)) ∧
        ((∀ ch ∈ s.toList, Text.isMark ch = false) →
          (found = true ↔ Text.lower s = Text.lower t))) ∧
    (¬ engine.Accepts (Condition.likePattern s) →
      c.answer? engine e (nameQuery quote body) (.named t) = none) := by
  have hcompile := compile_nameQuery hop hname hquote hbody
  refine ⟨⟨_, hcompile⟩, fun haccepts => ?_, fun hrefuses => ?_⟩
  · obtain ⟨found, hanswer, hfound⟩ := answer?_nameQuery hop hname hquote hbody haccepts t
    refine ⟨found, hanswer, hfound, fun hplain => ?_⟩
    rw [hfound, Wildcard.map_ofArgument (Text.isMark_lowerChars hplain),
      LikePattern.fits_letters_iff]
    exact String.ofList_inj.symm
  · have hstuck : ¬ (Predicate.nameLike s).Runs engine :=
      (Predicate.runs_iff_of_pattern rfl).not.mpr hrefuses
    rw [Compiler.answer?_eq _ hcompile, Predicate.evaluator_of_not_runs hstuck]
    rfl

/-- An argument with an escape and both kinds of wildcards. -/
theorem textQuery_matches_its_on :
    Compiler.standard.answer? .lenient ⟨"E", [("name", .basic .string)]⟩ "name=='it\\'s_*'"
      (.named "IT'S ON") = some true := by
  have hbody : Token.Quotes '\'' "it\\'s_*".toList "it's_*".toList :=
    .plain (by decide) (by decide) (.plain (by decide) (by decide) (.escaped
      (.plain (by decide) (by decide) (.plain (by decide) (by decide)
        (.plain (by decide) (by decide) .nil)))))
  have hmatches := (textQuery_matches_iff .lenient .standard ⟨"E", [("name", .basic .string)]⟩
    '\'' "it\\'s_*".toList "it's_*" "IT'S ON" (by decide) rfl (.inr rfl) hbody).2.1
  obtain ⟨found, hanswer, hfound, _⟩ := hmatches (PatternEngine.lenient_accepts _)
  have hlower : (Text.lowerChars "it's_*".toList).map Wildcard.ofArgument =
      ("it's".toList.map .exactly ++ [.one, .any]) := by decide +kernel
  have htext : Text.lowerChars "IT'S ON".toList = "it's on".toList := by decide +kernel
  have hfits : LikePattern.Fits ("it's".toList.map .exactly ++ [.one, .any]) "it's on".toList :=
    LikePattern.fits_map_exactly_iff.mpr ⟨" on".toList, rfl,
      LikePattern.fits_one_iff.mpr ⟨' ', "on".toList, rfl, LikePattern.fits_any _⟩⟩
  rw [hlower, htext] at hfound
  rw [hfound.mpr hfits] at hanswer
  exact hanswer

/-- An argument without a star can find what is not equal to it: `_` is a wildcard too,
and so is `%`. -/
theorem textQuery_finds_unequal :
    '*' ∉ "a_c".toList ∧ Text.lower "a_c" ≠ Text.lower "abc" ∧
      Compiler.standard.answer? .lenient ⟨"E", [("name", .basic .string)]⟩ "name=='a_c'"
        (.named "abc") = some true ∧
      '*' ∉ "a%".toList ∧ Text.lower "a%" ≠ Text.lower "abc" ∧
      Compiler.standard.answer? .lenient ⟨"E", [("name", .basic .string)]⟩ "name=='a%'"
        (.named "abc") = some true := by
  decide +kernel

/-- **When a query finds a text by a part of it.**  Let a part without marks be wanted
between stars, in front of one, or behind one, and let the engine take the pattern of that.
The first query finds the part wherever in a text it keeps its sigmas, that is, where its
capital sigmas are lower-cased as in the part alone; the other two find it at the front or
at the end of a text if and only if it keeps them there. -/
theorem wildcardQuery_finds (engine : PatternEngine) (c : Compiler) (e : Entity) (quote : Char)
    (body : List Char) (a p b : String) (hop : .equal ∈ c.operators.toList)
    (hname : e.attribute? "name" = some (.basic .string)) (hquote : Token.IsQuote quote)
    (hp : ∀ ch ∈ p.toList, Text.isMark ch = false) :
    (Token.Quotes quote body ("*" ++ p ++ "*").toList →
      engine.Accepts (Condition.likePattern ("*" ++ p ++ "*")) →
      ∃ found, c.answer? engine e (nameQuery quote body) (.named (a ++ p ++ b)) = some found ∧
        (Text.KeepsSigmas a.toList.reverse b.toList p.toList → found = true)) ∧
    (Token.Quotes quote body (p ++ "*").toList →
      engine.Accepts (Condition.likePattern (p ++ "*")) →
      ∃ found, c.answer? engine e (nameQuery quote body) (.named (p ++ b)) = some found ∧
        (found = true ↔ Text.KeepsSigmas [] b.toList p.toList)) ∧
    (Token.Quotes quote body ("*" ++ p).toList →
      engine.Accepts (Condition.likePattern ("*" ++ p)) →
      ∃ found, c.answer? engine e (nameQuery quote body) (.named (a ++ p)) = some found ∧
        (found = true ↔ Text.KeepsSigmas a.toList.reverse [] p.toList)) := by
  have hnone : ∀ w ∈ ([] : List Char), Text.isMark w = true := fun _ hw => nomatch hw
  have hstar : ∀ w ∈ ['*'], Text.isMark w = true := List.forall_mem_singleton.mpr rfl
  refine ⟨fun hbody haccepts => ?_, fun hbody haccepts => ?_, fun hbody haccepts => ?_⟩
  · have hs : ("*" ++ p ++ "*").toList = ['*'] ++ (p.toList ++ ['*']) := by
      rw [String.toList_append, String.toList_append, List.append_assoc]
      rfl
    obtain ⟨found, hanswer, hfound⟩ := answer?_part hop hname hquote hbody hs hp hstar hstar
      haccepts (a ++ p ++ b)
    refine ⟨found, hanswer, fun hkeeps => hfound.mpr (LikePattern.fits_infix_iff.mpr ?_)⟩
    rw [String.toList_append, String.toList_append, List.append_assoc]
    exact hkeeps.infix
  · have hs : (p ++ "*").toList = [] ++ (p.toList ++ ['*']) := String.toList_append
    obtain ⟨found, hanswer, hfound⟩ := answer?_part hop hname hquote hbody hs hp hnone hstar
      haccepts (p ++ b)
    refine ⟨found, hanswer, hfound.trans (LikePattern.fits_prefix_iff.trans ?_)⟩
    rw [String.toList_append]
    exact Text.lowerChars_prefix_iff
  · have hs : ("*" ++ p).toList = ['*'] ++ (p.toList ++ []) := by
      rw [String.toList_append, List.append_nil]
      rfl
    obtain ⟨found, hanswer, hfound⟩ := answer?_part hop hname hquote hbody hs hp hstar hnone
      haccepts (a ++ p)
    rw [List.map_nil, List.append_nil] at hfound
    refine ⟨found, hanswer, hfound.trans (LikePattern.fits_suffix_iff.trans ?_)⟩
    rw [String.toList_append]
    exact Text.lowerChars_suffix_iff

/-- The sigma at the end of a word is the same letter in the word alone. -/
theorem wildcardQuery_finds_last_word :
    Compiler.standard.answer? .lenient ⟨"E", [("name", .basic .string)]⟩ "name=='*ΕΝΑΣ'"
      (.named "ΟΔΟΣ ΕΝΑΣ") = some true := by
  have hbody : Token.Quotes '\'' "*ΕΝΑΣ".toList ("*" ++ "ΕΝΑΣ").toList :=
    .plain (by decide) (by decide) (.plain (by decide) (by decide) (.plain (by decide) (by decide)
      (.plain (by decide) (by decide) (.plain (by decide) (by decide) .nil))))
  have hkeeps : Text.KeepsSigmas "ΟΔΟΣ ".toList.reverse [] "ΕΝΑΣ".toList :=
    Text.lowerWithin_eq_lowerChars_iff.mp (by decide +kernel)
  obtain ⟨found, hanswer, hfound⟩ := (wildcardQuery_finds .lenient .standard
    ⟨"E", [("name", .basic .string)]⟩ '\'' "*ΕΝΑΣ".toList "ΟΔΟΣ " "ΕΝΑΣ" "" (by decide) rfl
    (.inr rfl) (Text.any_isMark_iff.mp rfl)).2.2 hbody (PatternEngine.lenient_accepts _)
  rw [hfound.mpr hkeeps] at hanswer
  exact hanswer

/-- A capital sigma at the end of a word is lower-cased to another letter than the same
sigma in an argument without the letters before it, or with none of those behind it: the
query misses the part that was copied from the text. -/
theorem wildcardQuery_misses_final_sigma :
    (∀ ch ∈ "Σ".toList, Text.isMark ch = false) ∧ "ΟΔΟΣ" = "ΟΔΟ" ++ "Σ" ++ "" ∧
      Compiler.standard.answer? .lenient ⟨"E", [("name", .basic .string)]⟩ "name=='*Σ*'"
        (.named "ΟΔΟΣ") = some false ∧
      Compiler.standard.answer? .lenient ⟨"E", [("name", .basic .string)]⟩ "name=='*Σ'"
        (.named "ΟΔΟΣ") = some false ∧
      (∀ ch ∈ "ΟΔΟΣ".toList, Text.isMark ch = false) ∧ "ΟΔΟΣΑ" = "ΟΔΟΣ" ++ "Α" ∧
      Compiler.standard.answer? .lenient ⟨"E", [("name", .basic .string)]⟩ "name=='ΟΔΟΣ*'"
        (.named "ΟΔΟΣΑ") = some false := by
  have hend : Compiler.standard.answer? .lenient ⟨"E", [("name", .basic .string)]⟩ "name=='*Σ*'"
      (.named "ΟΔΟΣ") = some false := by decide +kernel
  have hlast : Compiler.standard.answer? .lenient ⟨"E", [("name", .basic .string)]⟩ "name=='*Σ'"
      (.named "ΟΔΟΣ") = some false := by decide +kernel
  have hfront : Compiler.standard.answer? .lenient ⟨"E", [("name", .basic .string)]⟩ "name=='ΟΔΟΣ*'"
      (.named "ΟΔΟΣΑ") = some false := by decide +kernel
  exact ⟨Text.any_isMark_iff.mp rfl, rfl, hend, hlast, Text.any_isMark_iff.mp rfl, rfl, hfront⟩

end RecordFilter
