/-
# Predicates as queries

The text of a predicate as it would stand behind `where`, and of a whole filter with its joins.
Texts stand between single quotes, with each quote inside written twice.
-/
import RecordFilter.Predicate

namespace RecordFilter

/-- A text between single quotes, with each quote in it written twice. -/
def textLiteral (text : String) : String :=
  String.ofList ('\'' :: Text.double '\'' text.toList ++ ['\''])

/-- A value in a query: numbers, truth values and null bare, all else as text. -/
def Value.literal (v : Value) : String :=
  match v with
  | .null | .int .. | .boolean _ => v.render
  | .date _ | .dateTime _ | .text _ => textLiteral v.render

/-- A condition on a path. -/
def Condition.render (path : String) : Condition → String
  | isNull => path ++ " is null"
  | isNotNull => path ++ " is not null"
  | isEmpty => path ++ " is empty"
  | isNotEmpty => path ++ " is not empty"
  | equal value => path ++ " = " ++ value.literal
  | notEqual value => path ++ " <> " ++ value.literal
  | like pattern negated =>
    "lower(" ++ path ++ ") " ++ (if negated then "not like " else "like ") ++ textLiteral pattern
  | joinedLike pattern => "lower(array_to_string(" ++ path ++ ", '')) like " ++ textLiteral pattern
  | compare relation value => path ++ " " ++ relation.symbol ++ " " ++ value.literal
  | compareText relation text => path ++ " " ++ relation.symbol ++ " " ++ textLiteral text
  | isIn values => path ++ " in (" ++ ", ".intercalate (values.map Value.literal) ++ ")"

namespace Predicate

mutual

/-- The predicate as it stands behind `where`. -/
def render : Predicate → String
  | all operands => "(" ++ " and ".intercalate (renderList operands) ++ ")"
  | any operands => "(" ++ " or ".intercalate (renderList operands) ++ ")"
  | not operand => "not " ++ operand.render
  | test path condition => condition.render path.render

def renderList : List Predicate → List String
  | [] => []
  | operand :: operands => operand.render :: renderList operands

end

end Predicate

/-- The whole query of a filter. -/
def Filter.render (f : Filter) : String :=
  "select " ++ (if f.distinct then "distinct " else "") ++ Alias.root ++ " from " ++ Alias.root ++
    String.join (f.joins.map fun j => " " ++ j.render) ++ " where " ++ f.predicate.render

end RecordFilter
