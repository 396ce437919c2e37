/-
# Predicates

A predicate asks for conditions on the values of resolved paths. The joins it needs are those of its
paths, each made once; a filter adds whether a record is kept once or as often as it matches.
-/
import RecordFilter.Path
import RecordFilter.Value

namespace RecordFilter

/-- An ordered comparison. -/
inductive Relation where
  | greater
  | greaterOrEqual
  | less
  | lessOrEqual
deriving DecidableEq, Inhabited

namespace Relation

def symbol : Relation → String
  | greater => ">"
  | greaterOrEqual => ">="
  | less => "<"
  | lessOrEqual => "<="

/-- Whether a value that compares like this to an argument stands in the relation to it. -/
def accepts : Relation → Ordering → Bool
  | greater, o => o == .gt
  | greaterOrEqual, o => o != .lt
  | less, o => o == .lt
  | lessOrEqual, o => o != .gt

end Relation

/-- What is asked of the value of one path. -/
inductive Condition where
  | isNull
  | isNotNull
  | isEmpty
  | isNotEmpty
  | equal (value : Value)
  | notEqual (value : Value)
  /-- the text of the value in lower case matches a pattern, or does not -/
  | like (pattern : String) (negated : Bool)
  /-- the texts of a collection's elements, put together, match a pattern in lower case -/
  | joinedLike (pattern : String)
  /-- comparison by value -/
  | compare (relation : Relation) (value : Value)
  /-- comparison as text -/
  | compareText (relation : Relation) (text : String)
  | isIn (values : List Value)
deriving DecidableEq, Inhabited

/-- A predicate over an entity. -/
inductive Predicate where
  | all (operands : List Predicate)
  | any (operands : List Predicate)
  | not (operand : Predicate)
  | test (path : ResolvedPath) (condition : Condition)
deriving Inhabited

namespace Predicate

mutual

/-- The paths that a predicate reads, from left to right. -/
def paths : Predicate → List ResolvedPath
  | all operands => pathsList operands
  | any operands => pathsList operands
  | not operand => operand.paths
  | test path _ => [path]

def pathsList : List Predicate → List ResolvedPath
  | [] => []
  | operand :: operands => operand.paths ++ pathsList operands

end

end Predicate

/-! ## Join plans -/

namespace Join

/-- The order in which joins are made: fewer names first, and joins of equally many by their text.
-/
def before (a b : Join) : Ordering :=
  (Ord.compare a.depth b.depth).then (Text.compareText a.target.label b.target.label)

/-- Puts a join into a plan, unless its alias is there. -/
def insert (j : Join) : List Join → List Join
  | [] => [j]
  | k :: plan =>
    if j.target = k.target then k :: plan
    else if j.before k = .lt then j :: k :: plan
    else k :: insert j plan

/-- The joins of several paths, each alias once, parents before the joins that start from them. -/
def plan (paths : List ResolvedPath) : List Join :=
  (paths.flatMap (·.joins)).foldl (fun plan j => j.insert plan) []

end Join

/-- The joins that a predicate needs. -/
def Predicate.joins (p : Predicate) : List Join :=
  Join.plan p.paths

/-! ## Filters -/

/-- A predicate, and whether a record is to be kept once or as often as it matches. -/
structure Filter where
  predicate : Predicate
  distinct : Bool
deriving Inhabited

namespace Filter

def ofPredicate (p : Predicate) : Filter :=
  ⟨p, false⟩

/-- The same filter, keeping each record at most once. -/
def asDistinct (f : Filter) : Filter :=
  { f with distinct := true }

def joins (f : Filter) : List Join :=
  f.predicate.joins

end Filter

end RecordFilter
