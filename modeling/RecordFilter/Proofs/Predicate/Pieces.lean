/-
# `Proofs.Predicate.Pieces` — what a query text is put together from

The text of a predicate is a row of pieces: code, which is keywords, paths and signs;
literals, which are texts between quotes; and the numbers and truth values that stand
bare.  `Predicate.pieces` says which, and the text is the pieces one after another
(`renderAll_pieces`).

| | |
| :-- | :-- |
| contained | scanned with anything behind them, pieces give their literals (`Predicate.contained_pieces`) |
| alike | predicates that differ in values of the same variants have pieces that differ in literals and bare values (`Predicate.alike_pieces`) |

A literal can be scanned only if no quote follows it, so what is put behind pieces must
not begin with a quote.  That is why `Contained` speaks of both ends: every part of a
query begins with code, and a literal stands alone nowhere.
-/
import Mathlib.Data.List.Forall2
import RecordFilter.Proofs.Path.Labels
import RecordFilter.Proofs.Predicate.Plan
import RecordFilter.Proofs.Text.Digits
import RecordFilter.Proofs.Text.Literals

namespace RecordFilter

/-! ## Pieces -/

/-- A piece of a query. -/
inductive Piece where
  | code (text : String)
  /-- a text between quotes -/
  | literal (text : String)
  /-- a bare number -/
  | number (n : Int)
  /-- a bare truth value -/
  | truth (b : Bool)

namespace Piece

def render : Piece → String
  | code text => text
  | literal text => textLiteral text
  | number n => toString n
  | truth b => if b then "true" else "false"

/-- Pieces one after another. -/
def renderAll (pieces : List Piece) : String :=
  String.join (pieces.map render)

/-- The texts between quotes. -/
def literals : List Piece → List String
  | [] => []
  | literal text :: pieces => text :: literals pieces
  | _ :: pieces => literals pieces

/-- Several rows of pieces, with code between them. -/
def separated (separator : String) (rows : List (List Piece)) : List Piece :=
  [code separator].intercalate rows

/-- The same between parentheses. -/
def group (separator : String) (rows : List (List Piece)) : List Piece :=
  code "(" :: (separated separator rows ++ [code ")"])

variable {ps qs : List Piece}

theorem renderAll_cons (p : Piece) (ps : List Piece) :
    renderAll (p :: ps) = p.render ++ renderAll ps := by
  rw [renderAll, List.map_cons, String.join_cons, renderAll]

@[simp]
theorem renderAll_append (ps qs : List Piece) :
    renderAll (ps ++ qs) = renderAll ps ++ renderAll qs := by
  rw [renderAll, List.map_append, String.join_append, renderAll, renderAll]

theorem renderAll_singleton (p : Piece) : renderAll [p] = p.render := by
  rw [renderAll_cons]
  exact String.append_empty

@[simp]
theorem literals_append (ps qs : List Piece) : literals (ps ++ qs) = literals ps ++ literals qs := by
  induction ps with
  | nil => rfl
  | cons p ps ih =>
      cases p with
      | literal text => exact congrArg (text :: ·) ih
      | _ => exact ih

theorem separated_cons {row row' : List Piece} {separator : String} {rows : List (List Piece)} :
    separated separator (row :: row' :: rows) =
      row ++ code separator :: separated separator (row' :: rows) := by
  rw [separated, List.intercalate_cons_cons, List.append_assoc, List.singleton_append, separated]

theorem renderAll_separated (separator : String) (rows : List (List Piece)) :
    renderAll (separated separator rows) = separator.intercalate (rows.map renderAll) := by
  induction rows with
  | nil => rfl
  | cons row rows ih =>
      cases rows with
      | nil =>
          rw [separated, List.intercalate_singleton, List.map_singleton, String.intercalate_singleton]
      | cons row' rows =>
          rw [separated_cons, renderAll_append, renderAll_cons, ih, List.map_cons, List.map_cons,
            List.map_cons, String.intercalate_cons_cons, String.append_assoc]
          rfl

@[simp]
theorem literals_separated (separator : String) (rows : List (List Piece)) :
    literals (separated separator rows) = rows.flatMap literals := by
  induction rows with
  | nil => rfl
  | cons row rows ih =>
      cases rows with
      | nil =>
          rw [separated, List.intercalate_singleton, List.flatMap_singleton]
      | cons row' rows =>
          rw [separated_cons, literals_append, List.flatMap_cons, ← ih]
          rfl

theorem renderAll_group (separator : String) (rows : List (List Piece)) :
    renderAll (group separator rows) = "(" ++ separator.intercalate (rows.map renderAll) ++ ")" := by
  rw [group, renderAll_cons, renderAll_append, renderAll_separated, renderAll_singleton,
    String.append_assoc]
  rfl

@[simp]
theorem literals_group (separator : String) (rows : List (List Piece)) :
    literals (group separator rows) = rows.flatMap literals := by
  have happend := literals_append (separated separator rows) [code ")"]
  rw [literals_separated] at happend
  exact happend.trans (List.append_nil _)

/-! ## Scanning -/

/-- Quotes stand around literals and inside them, and nowhere else: the code holds none.
Scanning the pieces gives their literals, with whatever behind them that begins with no
quote; and they begin with none themselves. -/
structure Contained (ps : List Piece) : Prop where
  code_plain : ∀ text : String, code text ∈ ps → '\'' ∉ text.toList
  scan : ∀ rest : List Char, rest.head? ≠ some '\'' →
    Text.literalsFrom none ((renderAll ps).toList ++ rest) =
      (Text.literalsFrom none rest).map (literals ps ++ ·)
  start : (renderAll ps).toList.head? ≠ some '\''

/-- What begins with no quote, behind what begins with none. -/
theorem head?_append_ne {text rest : List Char} (htext : text.head? ≠ some '\'')
    (hrest : rest.head? ≠ some '\'') : (text ++ rest).head? ≠ some '\'' := by
  cases text with
  | nil => exact hrest
  | cons c text => exact htext

theorem head?_ne_of_notMem {text : List Char} (h : '\'' ∉ text) : text.head? ≠ some '\'' :=
  fun hhead => h (List.mem_of_head? hhead)

theorem Contained.append (hps : Contained ps) (hqs : Contained qs) : Contained (ps ++ qs) where
  code_plain text htext := by
    rcases List.mem_append.mp htext with htext | htext
    · exact hps.code_plain text htext
    · exact hqs.code_plain text htext
  scan rest hrest := by
    rw [renderAll_append, String.toList_append, List.append_assoc,
      hps.scan _ (head?_append_ne hqs.start hrest), hqs.scan rest hrest, Option.map_map,
      literals_append]
    simp only [Function.comp_def, List.append_assoc]
  start := by
    rw [renderAll_append, String.toList_append]
    exact head?_append_ne hps.start hqs.start

theorem contained_nil : Contained [] where
  code_plain _ htext := nomatch htext
  scan rest _ := by
    show Text.literalsFrom none rest = (Text.literalsFrom none rest).map fun found => found
    rw [Option.map_id']
  start := by decide

theorem contained_singleton {p : Piece} (hplain : '\'' ∉ p.render.toList)
    (hliterals : literals [p] = []) : Contained [p] where
  code_plain text htext := by
    rw [← List.eq_of_mem_singleton htext] at hplain
    exact hplain
  scan rest hrest := by
    rw [renderAll_singleton, Text.literalsFrom_plain hplain, hliterals]
    exact contained_nil.scan rest hrest
  start := by
    rw [renderAll_singleton]
    exact head?_ne_of_notMem hplain

theorem contained_code {text : String} (h : '\'' ∉ text.toList) : Contained [code text] :=
  contained_singleton h rfl

theorem contained_literal {opening : String} (hne : opening ≠ "") (h : '\'' ∉ opening.toList)
    (text : String) : Contained [code opening, literal text] where
  code_plain text' htext := by
    rcases List.mem_cons.mp htext with htext | htext
    · cases htext
      exact h
    · cases List.eq_of_mem_singleton htext
  scan rest hrest := by
    rw [renderAll_cons, renderAll_singleton, String.toList_append, List.append_assoc]
    exact (Text.literalsFrom_plain h _).trans (Text.literalsFrom_textLiteral text hrest)
  start := by
    rw [renderAll_cons, String.toList_append]
    show (opening.toList ++ _).head? ≠ _
    cases hopening : opening.toList with
    | nil => exact absurd (String.toList_eq_nil_iff.mp hopening) hne
    | cons c rest =>
        rw [hopening] at h
        exact (head?_ne_of_notMem h : (c :: rest).head? ≠ some '\'')

theorem quote_notMem_append {text text' : String} (h : '\'' ∉ text.toList)
    (h' : '\'' ∉ text'.toList) : '\'' ∉ (text ++ text').toList := by
  rw [String.toList_append]
  exact List.not_mem_append h h'

theorem quote_notMem_number (n : Int) : '\'' ∉ (toString n).toList := by
  have hdigits : ∀ n : Nat, '\'' ∉ n.repr.toList := by
    intro n h
    rw [Nat.toList_repr] at h
    exact absurd ((Text.writes_toDigits n).isDigit _ h) (by decide)
  cases n with
  | ofNat n => exact hdigits n
  | negSucc n =>
      have hminus : '\'' ∉ ("-" ++ (n + 1).repr).toList :=
        quote_notMem_append (by decide) (hdigits (n + 1))
      exact hminus

theorem contained_number (n : Int) : Contained [number n] :=
  contained_singleton (quote_notMem_number n) rfl

theorem contained_truth (b : Bool) : Contained [truth b] :=
  contained_singleton (by cases b <;> decide) rfl

theorem Contained.separated {separator : String} {rows : List (List Piece)}
    (hseparator : '\'' ∉ separator.toList) (h : ∀ row ∈ rows, Contained row) :
    Contained (separated separator rows) := by
  induction rows with
  | nil => exact contained_nil
  | cons row rows ih =>
      obtain ⟨hrow, hrows⟩ := List.forall_mem_cons.mp h
      cases rows with
      | nil =>
          rw [Piece.separated, List.intercalate_singleton]
          exact hrow
      | cons row' rows =>
          rw [separated_cons]
          exact hrow.append ((contained_code hseparator).append (ih hrows))

theorem Contained.group {separator : String} {rows : List (List Piece)}
    (hseparator : '\'' ∉ separator.toList) (h : ∀ row ∈ rows, Contained row) :
    Contained (group separator rows) := by
  have hopen : Contained [code "("] := contained_code (by decide)
  have hclose : Contained [code ")"] := contained_code (by decide)
  exact hopen.append ((Contained.separated hseparator h).append hclose)

/-! ## Likeness -/

/-- Pieces that may differ inside a literal, or in the bare value that they are. -/
inductive Alike : Piece → Piece → Prop
  | code (text : String) : Alike (code text) (code text)
  | literal (text text' : String) : Alike (literal text) (literal text')
  | number (n n' : Int) : Alike (number n) (number n')
  | truth (b b' : Bool) : Alike (truth b) (truth b')

theorem Alike.separated (separator : String) {rows rows' : List (List Piece)}
    (h : List.Forall₂ (List.Forall₂ Alike) rows rows') :
    List.Forall₂ Alike (separated separator rows) (separated separator rows') := by
  induction h with
  | nil => exact .nil
  | cons hrow hrows ih =>
      cases hrows with
      | nil =>
          rw [Piece.separated, Piece.separated, List.intercalate_singleton,
            List.intercalate_singleton]
          exact hrow
      | cons _ _ =>
          rw [separated_cons, separated_cons]
          exact List.rel_append hrow (.cons (.code separator) ih)

theorem Alike.group (separator : String) {rows rows' : List (List Piece)}
    (h : List.Forall₂ (List.Forall₂ Alike) rows rows') :
    List.Forall₂ Alike (group separator rows) (group separator rows') :=
  .cons (.code "(") (List.rel_append (Alike.separated separator h) (.cons (.code ")") .nil))

end Piece

/-! ## Values -/

namespace Value

/-- A value in a query. -/
def piece : Value → Piece
  | null => .code "null"
  | int _ n => .number n
  | boolean b => .truth b
  | date d => .literal d.text
  | dateTime m => .literal m.text
  | text s => .literal s

/-- Several values: the first behind an opening, the others behind commas. -/
def piecesBehind (opening : String) : List Value → List Piece
  | [] => [.code opening]
  | v :: vs => .code opening :: v.piece :: vs.flatMap fun w => [.code ", ", w.piece]

/-- Two values of one variant. -/
inductive SameVariant : Value → Value → Prop
  | null : SameVariant .null .null
  | int (w : Width) (n n' : Int) : SameVariant (.int w n) (.int w n')
  | boolean (b b' : Bool) : SameVariant (.boolean b) (.boolean b')
  | date (d d' : Date) : SameVariant (.date d) (.date d')
  | dateTime (m m' : DateTime) : SameVariant (.dateTime m) (.dateTime m')
  | text (s s' : String) : SameVariant (.text s) (.text s')

/-- What of a value stands between quotes. -/
def literals (v : Value) : List String :=
  match v with
  | null | int .. | boolean _ => []
  | date _ | dateTime _ | text _ => [v.render]

theorem render_piece (v : Value) : v.piece.render = v.literal := by
  cases v <;> rfl

@[simp]
theorem literals_piece (v : Value) : Piece.literals [v.piece] = v.literals := by
  cases v <;> rfl

theorem SameVariant.alike_piece {v v' : Value} (h : v.SameVariant v') : v.piece.Alike v'.piece := by
  cases h with
  | null => exact .code _
  | int w n n' => exact .number n n'
  | boolean b b' => exact .truth b b'
  | date d d' => exact .literal _ _
  | dateTime m m' => exact .literal _ _
  | text s s' => exact .literal s s'

theorem contained_piece {opening : String} (hne : opening ≠ "") (h : '\'' ∉ opening.toList)
    (v : Value) : Piece.Contained [.code opening, v.piece] := by
  cases v with
  | null => exact (Piece.contained_code h).append (Piece.contained_code (by decide))
  | int w n => exact (Piece.contained_code h).append (Piece.contained_number n)
  | boolean b => exact (Piece.contained_code h).append (Piece.contained_truth b)
  | date d => exact Piece.contained_literal hne h d.text
  | dateTime m => exact Piece.contained_literal hne h m.text
  | text s => exact Piece.contained_literal hne h s

theorem render_piecesBehind (opening : String) (vs : List Value) :
    Piece.renderAll (piecesBehind opening vs) = opening ++ ", ".intercalate (vs.map literal) := by
  cases vs with
  | nil => exact (Piece.renderAll_singleton _).trans String.append_empty.symm
  | cons v vs =>
      rw [piecesBehind, Piece.renderAll_cons, Piece.renderAll_cons, render_piece]
      refine congrArg (opening ++ ·) ?_
      induction vs generalizing v with
      | nil => exact String.append_empty
      | cons w vs ih =>
          rw [List.flatMap_cons, List.cons_append, Piece.renderAll_cons, List.singleton_append,
            Piece.renderAll_cons, render_piece, ih, List.map_cons, List.map_cons, List.map_cons,
            String.intercalate_cons_cons, String.append_assoc]
          rfl

@[simp]
theorem literals_piecesBehind (opening : String) (vs : List Value) :
    Piece.literals (piecesBehind opening vs) = vs.flatMap literals := by
  cases vs with
  | nil => rfl
  | cons v vs =>
      have hrest : Piece.literals (vs.flatMap fun w => [.code ", ", w.piece]) =
          vs.flatMap literals := by
        induction vs with
        | nil => rfl
        | cons w vs ih =>
            rw [List.flatMap_cons, List.flatMap_cons, Piece.literals_append, ih, ← literals_piece]
            rfl
      have hfirst := Piece.literals_append [v.piece] (vs.flatMap fun w => [.code ", ", w.piece])
      rw [hrest, literals_piece] at hfirst
      exact hfirst

theorem contained_piecesBehind {opening : String} (hne : opening ≠ "")
    (h : '\'' ∉ opening.toList) (vs : List Value) :
    Piece.Contained (piecesBehind opening vs) := by
  cases vs with
  | nil => exact Piece.contained_code h
  | cons v vs =>
      have hrest : Piece.Contained (vs.flatMap fun w => [.code ", ", w.piece]) := by
        induction vs with
        | nil => exact Piece.contained_nil
        | cons w vs ih => exact (contained_piece (by decide) (by decide) w).append ih
      exact (contained_piece hne h v).append hrest

theorem alike_piecesBehind (opening : String) {vs vs' : List Value}
    (h : List.Forall₂ SameVariant vs vs') :
    List.Forall₂ Piece.Alike (piecesBehind opening vs) (piecesBehind opening vs') := by
  cases h with
  | nil => exact .cons (.code opening) .nil
  | cons hv hvs =>
      refine .cons (.code opening) (.cons hv.alike_piece ?_)
      exact List.rel_flatMap hvs fun _ _ hw => .cons (.code _) (.cons hw.alike_piece .nil)

end Value

/-! ## Conditions -/

namespace Condition

/-- A condition on a path. -/
def pieces (path : String) : Condition → List Piece
  | isNull => [.code path, .code " is null"]
  | isNotNull => [.code path, .code " is not null"]
  | isEmpty => [.code path, .code " is empty"]
  | isNotEmpty => [.code path, .code " is not empty"]
  | equal value => [.code path, .code " = ", value.piece]
  | notEqual value => [.code path, .code " <> ", value.piece]
  | like pattern negated =>
    [.code "lower(", .code path, .code ") ", .code (if negated then "not like " else "like "),
      .literal pattern]
  | joinedLike pattern =>
    [.code "lower(array_to_string(", .code path, .code ", ", .literal "", .code ")) like ",
      .literal pattern]
  | compare relation value =>
    [.code path, .code " ", .code relation.symbol, .code " ", value.piece]
  | compareText relation text =>
    [.code path, .code " ", .code relation.symbol, .code " ", .literal text]
  | isIn values => .code path :: (Value.piecesBehind " in (" values ++ [.code ")"])

/-- What of a condition stands between quotes. -/
def literals : Condition → List String
  | isNull | isNotNull | isEmpty | isNotEmpty => []
  | equal value | notEqual value | compare _ value => value.literals
  | like pattern _ => [pattern]
  | joinedLike pattern => ["", pattern]
  | compareText _ text => [text]
  | isIn values => values.flatMap Value.literals

/-- Two conditions with the same operator, on values of the same variants. -/
inductive Alike : Condition → Condition → Prop
  | isNull : Alike .isNull .isNull
  | isNotNull : Alike .isNotNull .isNotNull
  | isEmpty : Alike .isEmpty .isEmpty
  | isNotEmpty : Alike .isNotEmpty .isNotEmpty
  | equal {v v' : Value} : v.SameVariant v' → Alike (.equal v) (.equal v')
  | notEqual {v v' : Value} : v.SameVariant v' → Alike (.notEqual v) (.notEqual v')
  | like (pattern pattern' : String) (negated : Bool) :
      Alike (.like pattern negated) (.like pattern' negated)
  | joinedLike (pattern pattern' : String) : Alike (.joinedLike pattern) (.joinedLike pattern')
  | compare (relation : Relation) {v v' : Value} :
      v.SameVariant v' → Alike (.compare relation v) (.compare relation v')
  | compareText (relation : Relation) (text text' : String) :
      Alike (.compareText relation text) (.compareText relation text')
  | isIn {vs vs' : List Value} :
      List.Forall₂ Value.SameVariant vs vs' → Alike (.isIn vs) (.isIn vs')

variable {path : String}

-- `String.append_empty` is not used here: it is tried on every text, which takes long
theorem render_pieces (path : String) (condition : Condition) :
    Piece.renderAll (condition.pieces path) = condition.render path := by
  cases condition with
  | isNull => rw [pieces, Piece.renderAll_cons, Piece.renderAll_singleton]; rfl
  | isNotNull => rw [pieces, Piece.renderAll_cons, Piece.renderAll_singleton]; rfl
  | isEmpty => rw [pieces, Piece.renderAll_cons, Piece.renderAll_singleton]; rfl
  | isNotEmpty => rw [pieces, Piece.renderAll_cons, Piece.renderAll_singleton]; rfl
  | equal value =>
      rw [pieces, Piece.renderAll_cons, Piece.renderAll_cons, Piece.renderAll_singleton,
        value.render_piece, ← String.append_assoc]
      rfl
  | notEqual value =>
      rw [pieces, Piece.renderAll_cons, Piece.renderAll_cons, Piece.renderAll_singleton,
        value.render_piece, ← String.append_assoc]
      rfl
  | like pattern negated =>
      rw [pieces, Piece.renderAll_cons, Piece.renderAll_cons, Piece.renderAll_cons,
        Piece.renderAll_cons, Piece.renderAll_singleton, ← String.append_assoc,
        ← String.append_assoc, ← String.append_assoc]
      rfl
  | joinedLike pattern =>
      have hempty : ", " ++ textLiteral "" ++ ")) like " = ", '')) like " := rfl
      have hrender := congrArg
        (fun text => "lower(array_to_string(" ++ path ++ text ++ textLiteral pattern) hempty
      refine Eq.trans ?_ hrender
      rw [pieces, Piece.renderAll_cons, Piece.renderAll_cons, Piece.renderAll_cons,
        Piece.renderAll_cons, Piece.renderAll_cons, Piece.renderAll_singleton,
        ← String.append_assoc, ← String.append_assoc, ← String.append_assoc, ← String.append_assoc,
        ← String.append_assoc, ← String.append_assoc]
      rfl
  | compare relation value =>
      rw [pieces, Piece.renderAll_cons, Piece.renderAll_cons, Piece.renderAll_cons,
        Piece.renderAll_cons, Piece.renderAll_singleton, value.render_piece,
        ← String.append_assoc, ← String.append_assoc, ← String.append_assoc]
      rfl
  | compareText relation text =>
      rw [pieces, Piece.renderAll_cons, Piece.renderAll_cons, Piece.renderAll_cons,
        Piece.renderAll_cons, Piece.renderAll_singleton, ← String.append_assoc,
        ← String.append_assoc, ← String.append_assoc]
      rfl
  | isIn values =>
      rw [pieces, Piece.renderAll_cons, Piece.renderAll_append, Piece.renderAll_singleton,
        Value.render_piecesBehind, ← String.append_assoc, ← String.append_assoc]
      rfl

@[simp]
theorem literals_pieces (path : String) (condition : Condition) :
    Piece.literals (condition.pieces path) = condition.literals := by
  cases condition with
  | equal value => exact value.literals_piece
  | notEqual value => exact value.literals_piece
  | compare relation value => exact value.literals_piece
  | isIn values => simp [pieces, literals, Piece.literals]
  | _ => rfl

theorem contained_symbol (relation : Relation) :
    Piece.Contained [.code " ", .code relation.symbol] := by
  have hblank : Piece.Contained [.code " "] := Piece.contained_code (by decide)
  refine hblank.append (Piece.contained_code ?_)
  cases relation <;> decide

/-- **A condition contains its values**, if its path is written without quotes. -/
theorem contained_pieces (h : '\'' ∉ path.toList) (condition : Condition) :
    Piece.Contained (condition.pieces path) := by
  have hpath : Piece.Contained [.code path] := Piece.contained_code h
  cases condition with
  | isNull => exact hpath.append (Piece.contained_code (by decide))
  | isNotNull => exact hpath.append (Piece.contained_code (by decide))
  | isEmpty => exact hpath.append (Piece.contained_code (by decide))
  | isNotEmpty => exact hpath.append (Piece.contained_code (by decide))
  | equal value => exact hpath.append (value.contained_piece (by decide) (by decide))
  | notEqual value => exact hpath.append (value.contained_piece (by decide) (by decide))
  | like pattern negated =>
      have hopen : Piece.Contained [.code "lower("] := Piece.contained_code (by decide)
      have hclose : Piece.Contained [.code ") "] := Piece.contained_code (by decide)
      refine hopen.append (hpath.append (hclose.append (Piece.contained_literal ?_ ?_ pattern)))
      · cases negated <;> decide
      · cases negated <;> decide
  | joinedLike pattern =>
      have hopen : Piece.Contained [.code "lower(array_to_string("] :=
        Piece.contained_code (by decide)
      have hdelimiter : Piece.Contained [.code ", ", .literal ""] :=
        Piece.contained_literal (by decide) (by decide) ""
      have hpattern : Piece.Contained [.code ")) like ", .literal pattern] :=
        Piece.contained_literal (by decide) (by decide) pattern
      exact hopen.append (hpath.append (hdelimiter.append hpattern))
  | compare relation value =>
      have hvalue : Piece.Contained [.code " ", value.piece] :=
        value.contained_piece (by decide) (by decide)
      exact hpath.append ((contained_symbol relation).append hvalue)
  | compareText relation text =>
      have htext : Piece.Contained [.code " ", .literal text] :=
        Piece.contained_literal (by decide) (by decide) text
      exact hpath.append ((contained_symbol relation).append htext)
  | isIn values =>
      have hvalues : Piece.Contained (Value.piecesBehind " in (" values) :=
        Value.contained_piecesBehind (by decide) (by decide) values
      exact hpath.append (hvalues.append (Piece.contained_code (by decide)))

theorem Alike.alike_pieces {condition condition' : Condition} (h : condition.Alike condition')
    (path : String) :
    List.Forall₂ Piece.Alike (condition.pieces path) (condition'.pieces path) := by
  cases h with
  | isNull => exact .cons (.code _) (.cons (.code _) .nil)
  | isNotNull => exact .cons (.code _) (.cons (.code _) .nil)
  | isEmpty => exact .cons (.code _) (.cons (.code _) .nil)
  | isNotEmpty => exact .cons (.code _) (.cons (.code _) .nil)
  | equal hv => exact .cons (.code _) (.cons (.code _) (.cons hv.alike_piece .nil))
  | notEqual hv => exact .cons (.code _) (.cons (.code _) (.cons hv.alike_piece .nil))
  | like pattern pattern' negated =>
      refine .cons (.code _) (.cons (.code _) (.cons (.code _) (.cons (.code _) ?_)))
      exact .cons (.literal pattern pattern') .nil
  | joinedLike pattern pattern' =>
      refine .cons (.code _) (.cons (.code _) (.cons (.code _) (.cons (.literal _ _) ?_)))
      exact .cons (.code _) (.cons (.literal pattern pattern') .nil)
  | compare relation hv =>
      refine .cons (.code _) (.cons (.code _) (.cons (.code _) (.cons (.code _) ?_)))
      exact .cons hv.alike_piece .nil
  | compareText relation text text' =>
      refine .cons (.code _) (.cons (.code _) (.cons (.code _) (.cons (.code _) ?_)))
      exact .cons (.literal text text') .nil
  | isIn hvs =>
      refine .cons (.code path) (List.rel_append (Value.alike_piecesBehind _ hvs) ?_)
      exact .cons (.code _) .nil

end Condition

/-! ## Predicates -/

namespace Predicate

mutual

/-- The predicate as it stands behind `where`. -/
def pieces : Predicate → List Piece
  | all operands => Piece.group " and " (piecesList operands)
  | any operands => Piece.group " or " (piecesList operands)
  | not operand => .code "not " :: operand.pieces
  | test path condition => condition.pieces path.render

def piecesList : List Predicate → List (List Piece)
  | [] => []
  | operand :: operands => operand.pieces :: piecesList operands

end

mutual

/-- Two predicates of one shape: with the same operators on the same paths, and with
values of the same variants. -/
inductive Alike : Predicate → Predicate → Prop
  | all {ps qs : List Predicate} : AlikeAll ps qs → Alike (.all ps) (.all qs)
  | any {ps qs : List Predicate} : AlikeAll ps qs → Alike (.any ps) (.any qs)
  | not {p q : Predicate} : Alike p q → Alike (.not p) (.not q)
  | test (path : ResolvedPath) {condition condition' : Condition} :
      condition.Alike condition' → Alike (.test path condition) (.test path condition')

inductive AlikeAll : List Predicate → List Predicate → Prop
  | nil : AlikeAll [] []
  | cons {p q : Predicate} {ps qs : List Predicate} :
      Alike p q → AlikeAll ps qs → AlikeAll (p :: ps) (q :: qs)

end

mutual

/-- **The text of a predicate is its pieces.** -/
theorem renderAll_pieces : ∀ p : Predicate, Piece.renderAll p.pieces = p.render
  | .all operands => by
      rw [pieces, render, Piece.renderAll_group, map_renderAll_piecesList operands]
  | .any operands => by
      rw [pieces, render, Piece.renderAll_group, map_renderAll_piecesList operands]
  | .not operand => by
      rw [pieces, render, Piece.renderAll_cons, renderAll_pieces operand]
      rfl
  | .test path condition => condition.render_pieces path.render

theorem map_renderAll_piecesList : ∀ operands : List Predicate,
    (piecesList operands).map Piece.renderAll = renderList operands
  | [] => rfl
  | operand :: operands => by
      rw [piecesList, renderList, List.map_cons, renderAll_pieces operand,
        map_renderAll_piecesList operands]

end

mutual

/-- **A predicate contains its values**, if its paths are written without quotes. -/
theorem contained_pieces : ∀ {p : Predicate}, (∀ path ∈ p.paths, '\'' ∉ path.render.toList) →
    Piece.Contained p.pieces
  | .all operands, h => .group (by decide) (contained_piecesList h)
  | .any operands, h => .group (by decide) (contained_piecesList h)
  | .not operand, h => by
      have hopen : Piece.Contained [.code "not "] := Piece.contained_code (by decide)
      exact hopen.append (contained_pieces h)
  | .test path condition, h => condition.contained_pieces (h path List.mem_cons_self)

theorem contained_piecesList : ∀ {operands : List Predicate},
    (∀ path ∈ pathsList operands, '\'' ∉ path.render.toList) →
    ∀ row ∈ piecesList operands, Piece.Contained row
  | [], _ => fun _ hrow => nomatch hrow
  | operand :: operands, h => by
      obtain ⟨hfirst, hrest⟩ := List.forall_mem_append.mp h
      exact List.forall_mem_cons.mpr ⟨contained_pieces hfirst, contained_piecesList hrest⟩

end

mutual

/-- **Predicates of one shape differ in literals and bare values only.** -/
theorem Alike.alike_pieces : ∀ {p q : Predicate}, p.Alike q →
    List.Forall₂ Piece.Alike p.pieces q.pieces
  | _, _, .all h => Piece.Alike.group " and " h.alike_piecesList
  | _, _, .any h => Piece.Alike.group " or " h.alike_piecesList
  | _, _, .not h => .cons (.code _) h.alike_pieces
  | _, _, .test path h => h.alike_pieces path.render

theorem AlikeAll.alike_piecesList : ∀ {ps qs : List Predicate}, AlikeAll ps qs →
    List.Forall₂ (List.Forall₂ Piece.Alike) (piecesList ps) (piecesList qs)
  | _, _, .nil => .nil
  | _, _, .cons h hs => .cons h.alike_pieces hs.alike_piecesList

end

mutual

theorem Alike.paths_eq : ∀ {p q : Predicate}, p.Alike q → q.paths = p.paths
  | _, _, .all h => h.pathsList_eq
  | _, _, .any h => h.pathsList_eq
  | _, _, .not h => h.paths_eq
  | _, _, .test _ _ => rfl

theorem AlikeAll.pathsList_eq : ∀ {ps qs : List Predicate}, AlikeAll ps qs →
    pathsList qs = pathsList ps
  | _, _, .nil => rfl
  | _, _, .cons h hs => by
      rw [pathsList, pathsList, h.paths_eq, hs.pathsList_eq]

end

end Predicate

/-! ## Filters -/

namespace ResolvedPath

variable {p : ResolvedPath} {j : Join}

theorem Lacks.render (h : p.Lacks '\'') : '\'' ∉ p.render.toList := by
  cases hsource : p.source with
  | none =>
      rw [ResolvedPath.render, hsource]
      exact h.accessor
  | some a =>
      rw [ResolvedPath.render, hsource]
      have hquoted : '\'' ∉ ("\"" ++ a.label ++ "\".").toList :=
        Piece.quote_notMem_append
          (Piece.quote_notMem_append (by decide) (h.source hsource)) (by decide)
      exact Piece.quote_notMem_append hquoted h.accessor

theorem Lacks.join_render (h : p.Lacks '\'') (hj : j ∈ p.joins) : '\'' ∉ j.render.toList := by
  have hstart : '\'' ∉ ("left join \"" ++ j.start ++ "\".").toList :=
    Piece.quote_notMem_append
      (Piece.quote_notMem_append (by decide) (h.start (by decide) hj)) (by decide)
  have hread : '\'' ∉ ("left join \"" ++ j.start ++ "\"." ++ Text.joinDots j.attributes ++
      " as \"").toList :=
    Piece.quote_notMem_append (Piece.quote_notMem_append hstart (h.attributes hj)) (by decide)
  exact Piece.quote_notMem_append (Piece.quote_notMem_append hread (h.target hj)) (by decide)

end ResolvedPath

namespace Filter

/-- The query in front of its conditions. -/
def opening (distinct : Bool) (joins : List Join) : String :=
  "select " ++ (if distinct then "distinct " else "") ++ Alias.root ++ " from " ++ Alias.root ++
    String.join (joins.map fun j => " " ++ j.render) ++ " where "

/-- The whole query. -/
def pieces (f : Filter) : List Piece :=
  .code (opening f.distinct f.joins) :: f.predicate.pieces

variable {f f' : Filter}

/-- **The text of a filter is its pieces.** -/
theorem renderAll_pieces (f : Filter) : Piece.renderAll f.pieces = f.render := by
  rw [pieces, Piece.renderAll_cons, f.predicate.renderAll_pieces]
  rfl

theorem quote_notMem_opening (h : ∀ path ∈ f.predicate.paths, path.Lacks '\'') :
    '\'' ∉ (opening f.distinct f.joins).toList := by
  have hjoins : '\'' ∉ (String.join (f.joins.map fun j => " " ++ j.render)).toList := by
    rw [String.toList_join]
    intro hquote
    obtain ⟨text, htext, hquote⟩ := List.mem_flatMap.mp hquote
    obtain ⟨j, hj, rfl⟩ := List.mem_map.mp htext
    obtain ⟨path, hpath, hjp⟩ := Join.mem_of_mem_plan hj
    exact Piece.quote_notMem_append (by decide) ((h path hpath).join_render hjp) hquote
  have hdistinct : '\'' ∉ (if f.distinct then "distinct " else "").toList := by
    cases f.distinct <;> decide
  have hselect : '\'' ∉ ("select " ++ (if f.distinct then "distinct " else "")).toList :=
    Piece.quote_notMem_append (by decide) hdistinct
  have hfrom : '\'' ∉ ("select " ++ (if f.distinct then "distinct " else "") ++ Alias.root ++
      " from " ++ Alias.root).toList :=
    Piece.quote_notMem_append (Piece.quote_notMem_append
      (Piece.quote_notMem_append hselect (by decide)) (by decide)) (by decide)
  exact Piece.quote_notMem_append (Piece.quote_notMem_append hfrom hjoins)
    (by decide)

/-- **A query contains its values**, if no name in it holds a quote. -/
theorem contained_pieces (h : ∀ path ∈ f.predicate.paths, path.Lacks '\'') :
    Piece.Contained f.pieces := by
  have hopening : Piece.Contained [.code (opening f.distinct f.joins)] :=
    Piece.contained_code (quote_notMem_opening h)
  exact hopening.append (Predicate.contained_pieces fun path hpath => (h path hpath).render)

/-- The text of a filter whose paths have no quotes is scanned to the literals of its pieces, and to
its end. -/
theorem literals_render (h : ∀ path ∈ f.predicate.paths, path.Lacks '\'') :
    Text.literals f.render = some (Piece.literals f.pieces) := by
  have hscan := (contained_pieces h).scan [] (by decide)
  rw [List.append_nil] at hscan
  rw [← renderAll_pieces, Text.literals]
  exact hscan.trans (congrArg some (List.append_nil _))

theorem alike_pieces (hdistinct : f'.distinct = f.distinct) (h : f.predicate.Alike f'.predicate) :
    List.Forall₂ Piece.Alike f.pieces f'.pieces := by
  have hjoins : f'.joins = f.joins := congrArg Join.plan h.paths_eq
  rw [pieces, pieces, hdistinct, hjoins]
  exact .cons (.code _) h.alike_pieces

end Filter

end RecordFilter
