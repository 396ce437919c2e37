/-
# `Proofs.Compiler.Literals` — arguments stay inside their literals

A compiled filter is written as a query, with the values that its conditions compare with
inside it.  Whoever reads the query by the rule of quotes reads these values and nothing
else between quotes, in the order in which the conditions stand, and comes to the end
outside of them (`compiled_literals`).  No argument can end its literal, whatever quotes it
holds, and no name can begin one: a path is spelled as a selector is.

Two filters of one shape are one query then, but for what stands between quotes, and for
numbers and truth values, which stand bare.
-/
import RecordFilter.Proofs.Compiler.Filters
import RecordFilter.Proofs.Compiler.Typing
import RecordFilter.Proofs.Predicate.Pieces

namespace RecordFilter

mutual

theorem Predicate.literals_pieces : ∀ p : Predicate,
    Piece.literals p.pieces = p.tests.flatMap fun test => test.2.literals
  | .all operands => by
      rw [pieces, tests, Piece.literals_group, Predicate.literals_piecesList operands]
  | .any operands => by
      rw [pieces, tests, Piece.literals_group, Predicate.literals_piecesList operands]
  | .not operand => Predicate.literals_pieces operand
  | .test path condition => by
      rw [pieces, tests, List.flatMap_singleton, condition.literals_pieces]

theorem Predicate.literals_piecesList : ∀ operands : List Predicate,
    (Predicate.piecesList operands).flatMap Piece.literals =
      (Predicate.testsList operands).flatMap fun test => test.2.literals
  | [] => rfl
  | operand :: operands => by
      rw [Predicate.piecesList, Predicate.testsList, List.flatMap_cons, List.flatMap_append,
        Predicate.literals_pieces operand, Predicate.literals_piecesList operands]

end

namespace Compiler

variable {c : Compiler} {e : Entity} {query : Option String} {f : Filter}

theorem unquoted_of_compile (h : c.compile e query = .ok (some f)) :
    ∀ path ∈ f.predicate.paths, path.Lacks '\'' :=
  fun path hpath => (spelled_of_compile h path hpath).lacks rfl

end Compiler

/-- **Arguments stay inside their literals.**  The query of a compiled filter, and that of
the distinct one, is scanned to the values of its conditions, in the order in which they
stand, and to its end.  It is put together from pieces, of which the code holds no quote;
and the query of another filter of the same shape, compiled from any other arguments, is
put together from the same code, and differs in literals and bare values only. -/
theorem compiled_literals (c : Compiler) (e : Entity) (query : Option String) (f : Filter)
    (h : c.compile e query = .ok (some f)) :
    Text.literals f.render = some (f.predicate.tests.flatMap fun test => test.2.literals) ∧
    Text.literals f.asDistinct.render = Text.literals f.render ∧
    (Piece.renderAll f.pieces = f.render ∧ Text.literals f.render = some (Piece.literals f.pieces) ∧
      ∀ text, Piece.code text ∈ f.pieces → '\'' ∉ text.toList) ∧
    ∀ c' e' query' f', Compiler.compile c' e' query' = .ok (some f') →
      f.predicate.Alike f'.predicate →
        Piece.renderAll f'.pieces = f'.render ∧ List.Forall₂ Piece.Alike f.pieces f'.pieces := by
  have hunquoted := Compiler.unquoted_of_compile h
  have hrender : Text.literals f.render = some (Piece.literals f.pieces) :=
    Filter.literals_render hunquoted
  have hdistinct : Text.literals f.asDistinct.render = some (Piece.literals f.asDistinct.pieces) :=
    Filter.literals_render hunquoted
  refine ⟨?_, ?_, ⟨f.renderAll_pieces, hrender, (Filter.contained_pieces hunquoted).code_plain⟩, ?_⟩
  · rw [hrender, ← Predicate.literals_pieces]
    rfl
  · rw [hrender, hdistinct]
    rfl
  · intro c' e' query' f' h' halike
    have hplain := (Compiler.resolvedIn_of_compile h).1
    have hplain' := (Compiler.resolvedIn_of_compile h').1
    have hsame : f'.distinct = f.distinct := by
      rw [hplain, hplain']
      rfl
    exact ⟨f'.renderAll_pieces, Filter.alike_pieces hsame halike⟩

/-- An argument that would end its literal and go on behind it, and one that is a quote;
and a query of the same shape with other values. -/
theorem compiled_literals_quotes :
    ∃ f f',
      Compiler.standard.compile
          ⟨"E", [("name", .basic .string), ("tags", .basic .list), ("age", .basic .integer),
            ("born", .basic .date)]⟩
          (some "name==\"' or ''='\",tags=='\\'';age=in=(1,2);born=ge='2020-01-02 00:00:00.000'") =
        .ok (some f) ∧
      Compiler.standard.compile
          ⟨"E", [("name", .basic .string), ("tags", .basic .list), ("age", .basic .integer),
            ("born", .basic .date)]⟩
          (some "name==x,tags=='';age=in=(-7,0);born=ge='1999-12-31 23:59:59.999'") =
        .ok (some f') ∧
      Text.literals f.render = some ["' or ''='", "", "'", "2020-01-02"] ∧
      List.Forall₂ Piece.Alike f.pieces f'.pieces := by
  have hparse : Compiler.standard.parse
      "name==\"' or ''='\",tags=='\\'';age=in=(1,2);born=ge='2020-01-02 00:00:00.000'" =
      .ok (.any [.comparison ⟨"name", .equal, ["' or ''='"]⟩,
        .all [.comparison ⟨"tags", .equal, ["'"]⟩, .comparison ⟨"age", .isIn, ["1", "2"]⟩,
          .comparison ⟨"born", .greaterOrEqual, ["2020-01-02 00:00:00.000"]⟩]]) :=
    toOption_eq_some_iff.mp (by decide +kernel)
  have hparse' : Compiler.standard.parse
      "name==x,tags=='';age=in=(-7,0);born=ge='1999-12-31 23:59:59.999'" =
      .ok (.any [.comparison ⟨"name", .equal, ["x"]⟩,
        .all [.comparison ⟨"tags", .equal, [""]⟩, .comparison ⟨"age", .isIn, ["-7", "0"]⟩,
          .comparison ⟨"born", .greaterOrEqual, ["1999-12-31 23:59:59.999"]⟩]]) :=
    toOption_eq_some_iff.mp (by decide +kernel)
  have hcompile : Compiler.standard.compile
      ⟨"E", [("name", .basic .string), ("tags", .basic .list), ("age", .basic .integer),
        ("born", .basic .date)]⟩
      (some "name==\"' or ''='\",tags=='\\'';age=in=(1,2);born=ge='2020-01-02 00:00:00.000'") =
      .ok (some (.ofPredicate (.any [
        .test ⟨[⟨"name", none⟩], .string⟩ (.like "' or ''='" false),
        .all [.test ⟨[⟨"tags", none⟩], .list⟩ (.joinedLike "'"),
          .test ⟨[⟨"age", none⟩], .integer⟩ (.isIn [.int .integer 1, .int .integer 2]),
          .test ⟨[⟨"born", none⟩], .date⟩ (.compare .greaterOrEqual (.date ⟨2020, 1, 2⟩))]]))) := by
    rw [Compiler.compile, if_neg (by decide), hparse]
    rfl
  have hcompile' : Compiler.standard.compile
      ⟨"E", [("name", .basic .string), ("tags", .basic .list), ("age", .basic .integer),
        ("born", .basic .date)]⟩
      (some "name==x,tags=='';age=in=(-7,0);born=ge='1999-12-31 23:59:59.999'") =
      .ok (some (.ofPredicate (.any [
        .test ⟨[⟨"name", none⟩], .string⟩ (.like "x" false),
        .all [.test ⟨[⟨"tags", none⟩], .list⟩ (.joinedLike ""),
          .test ⟨[⟨"age", none⟩], .integer⟩ (.isIn [.int .integer (-7), .int .integer 0]),
          .test ⟨[⟨"born", none⟩], .date⟩ (.compare .greaterOrEqual (.date ⟨1999, 12, 31⟩))]]))) := by
    rw [Compiler.compile, if_neg (by decide), hparse']
    rfl
  obtain ⟨hliterals, -, -, halike⟩ := compiled_literals _ _ _ _ hcompile
  refine ⟨_, _, hcompile, hcompile', hliterals.trans ?_, (halike _ _ _ _ hcompile' ?_).2⟩
  · decide +kernel
  · refine .any (.cons (.test _ (.like _ _ false)) (.cons (.all ?_) .nil))
    have hages : List.Forall₂ Value.SameVariant [.int .integer 1, .int .integer 2]
        [.int .integer (-7), .int .integer 0] :=
      .cons (.int .integer 1 (-7)) (.cons (.int .integer 2 0) .nil)
    refine .cons (.test _ (.joinedLike _ _)) (.cons (.test _ (.isIn hages)) (.cons ?_ .nil))
    exact .test _ (.compare .greaterOrEqual (.date _ _))

end RecordFilter
