/-
# Writing filter expressions

The text of a filter expression: groups in parentheses, arguments quoted where they need it.
-/
import RecordFilter.Node
import RecordFilter.Token.Lexer

namespace RecordFilter

/-- An argument between double quotes, with a backslash before each quote and backslash. -/
def Comparison.quoteArgument (text : List Char) : List Char :=
  '"' :: text.flatMap (fun c => if c = '\\' ∨ c = '"' then ['\\', c] else [c]) ++ ['"']

/-- The text of an argument: bare if it is a non-empty run of unreserved characters. -/
def Comparison.renderArgument (text : String) : String :=
  if !text.isEmpty && text.toList.all Token.isUnreserved then text
  else String.ofList (Comparison.quoteArgument text.toList)

/-- The text of a clause. A lone argument stands without parentheses unless the operator takes a
list. -/
def Comparison.render (clause : Comparison) : String :=
  clause.selector ++ clause.operator.symbol ++
    match clause.arguments with
    | [argument] =>
      if clause.operator.takesList then "(" ++ Comparison.renderArgument argument ++ ")"
      else Comparison.renderArgument argument
    | arguments => "(" ++ ",".intercalate (arguments.map Comparison.renderArgument) ++ ")"

namespace Node

mutual

/-- The text of a filter expression. -/
def render : Node → String
  | all children => "(" ++ ";".intercalate (renderList children) ++ ")"
  | any children => "(" ++ ",".intercalate (renderList children) ++ ")"
  | comparison clause => clause.render

def renderList : List Node → List String
  | [] => []
  | child :: children => child.render :: renderList children

end

end Node

end RecordFilter
