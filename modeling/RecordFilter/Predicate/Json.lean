/-
# Predicates as JSON

Predicates and joins as JSON. A path is written as its dotted text.
-/
import RecordFilter.Predicate
import RecordFilter.Schema.Json

namespace RecordFilter

def Relation.name : Relation → String
  | greater => "greater"
  | greaterOrEqual => "greater_or_equal"
  | less => "less"
  | lessOrEqual => "less_or_equal"

/-- The object of a condition: its name, the path, and what else it says. -/
def Condition.toJson (path : String) (condition : Condition) : Json :=
  let object (op : String) (rest : List (String × Json)) : Json :=
    .object (("op", .string op) :: ("path", .string path) :: rest)
  match condition with
  | isNull => object "is_null" []
  | isNotNull => object "is_not_null" []
  | isEmpty => object "is_empty" []
  | isNotEmpty => object "is_not_empty" []
  | equal value => object "equal" [("value", value.toJson)]
  | notEqual value => object "not_equal" [("value", value.toJson)]
  | like pattern negated =>
    object "like" [("pattern", .string pattern), ("negated", .bool negated)]
  | joinedLike pattern => object "joined_like" [("pattern", .string pattern)]
  | compare relation value =>
    object "compare" [("comparison", .string relation.name), ("value", value.toJson)]
  | compareText relation text =>
    object "compare_text" [("comparison", .string relation.name), ("value", .string text)]
  | isIn values => object "in" [("values", .array (values.map Value.toJson))]

namespace Predicate

mutual

def toJson : Predicate → Json
  | all operands => .object [("op", .string "and"), ("operands", .array (toJsonList operands))]
  | any operands => .object [("op", .string "or"), ("operands", .array (toJsonList operands))]
  | not operand => .object [("op", .string "not"), ("operand", operand.toJson)]
  | test path condition => condition.toJson path.property

def toJsonList : List Predicate → List Json
  | [] => []
  | operand :: operands => operand.toJson :: toJsonList operands

end

end Predicate

def Join.toJson (j : Join) : Json :=
  .object [
    ("alias", .string j.target.label),
    ("parent", (j.parent.map fun a => Json.string a.label).getD .null),
    ("attributes", .array (j.attributes.map .string)),
    ("cardinality", .string j.cardinality.name)]

end RecordFilter
