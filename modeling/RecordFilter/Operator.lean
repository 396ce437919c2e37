/-
# Comparison operators

The ten operators with their spellings, and the sets of them that a parser accepts. A set keeps the
order in which operators were added, and no operator is in it twice.
-/

namespace RecordFilter

/-- The comparison operators. The first eight are standard; `isNull` and `isEmpty` are known to a
parser only when added to its set. -/
inductive Operator where
  | equal
  | notEqual
  | greaterThan
  | greaterOrEqual
  | lessThan
  | lessOrEqual
  | isIn
  | isNotIn
  | isNull
  | isEmpty
deriving DecidableEq, Inhabited

namespace Operator

/-- Every spelling of an operator, the canonical one first. -/
def symbols : Operator → List String
  | equal => ["=="]
  | notEqual => ["!="]
  | greaterThan => ["=gt=", ">"]
  | greaterOrEqual => ["=ge=", ">="]
  | lessThan => ["=lt=", "<"]
  | lessOrEqual => ["=le=", "<="]
  | isIn => ["=in="]
  | isNotIn => ["=out="]
  | isNull => ["=isnull="]
  | isEmpty => ["=isempty="]

/-- The canonical spelling. -/
def symbol : Operator → String
  | equal => "=="
  | notEqual => "!="
  | greaterThan => "=gt="
  | greaterOrEqual => "=ge="
  | lessThan => "=lt="
  | lessOrEqual => "=le="
  | isIn => "=in="
  | isNotIn => "=out="
  | isNull => "=isnull="
  | isEmpty => "=isempty="

/-- Whether more than one argument is allowed. -/
def takesList : Operator → Bool
  | isIn | isNotIn => true
  | _ => false

end Operator

/-- The operators that a parser accepts, in the order in which they were added. -/
structure OperatorSet where
  toList : List Operator
deriving DecidableEq

namespace OperatorSet

/-- The eight standard operators. -/
def defaults : OperatorSet :=
  ⟨[.equal, .notEqual, .greaterThan, .greaterOrEqual, .lessThan, .lessOrEqual, .isIn, .isNotIn]⟩

def contains (set : OperatorSet) (op : Operator) : Bool :=
  set.toList.contains op

/-- Adds an operator at the end unless it is there. -/
def insert (set : OperatorSet) (op : Operator) : OperatorSet :=
  if set.contains op then set else ⟨set.toList ++ [op]⟩

/-- The standard operators, `=isnull=` and `=isempty=`. -/
def extended : OperatorSet :=
  (defaults.insert .isNull).insert .isEmpty

/-- The operator of the set that is spelled `symbol`. -/
def lookup (set : OperatorSet) (symbol : String) : Option Operator :=
  set.toList.find? (·.symbols.contains symbol)

end OperatorSet

end RecordFilter
