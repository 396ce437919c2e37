/-
# The compiler

Compiling filter expressions: every comparison becomes a condition on a resolved path.
-/
import RecordFilter.Node.Parser
import RecordFilter.Predicate
import RecordFilter.Settings
import RecordFilter.Text.Lower
import RecordFilter.Value.Coercion

namespace RecordFilter

/-! ## Errors -/

/-- Why a comparison cannot be compiled though its path and its arguments are in order. -/
inductive CompilationFault where
  | noArgument (operator : Operator)
  /-- the argument of `=isnull=` or `=isempty=` is neither `true` nor `false` -/
  | notAFlag (argument : String)
  /-- `=isempty=` on something that has no elements -/
  | notACollection (operator : Operator) (type : ValueType)
deriving DecidableEq

def CompilationFault.message : CompilationFault → String
  | noArgument operator => "operator '" ++ operator.symbol ++ "' needs an argument"
  | notAFlag argument => "expected 'true' or 'false', got '" ++ argument ++ "'"
  | notACollection operator type =>
    "'" ++ operator.symbol ++ "' needs a collection, found " ++ type.describe

/-- Why there is no filter. -/
inductive Error where
  | malformed (error : ParseError)
  | unknownProperty (error : UnknownProperty)
  | coercion (error : CoercionError)
  | compilation (property : String) (fault : CompilationFault)
  | datePattern (pattern : String) (fault : PatternFault)
deriving DecidableEq

namespace Error

def message : Error → String
  | malformed error => "malformed filter expression: " ++ error.message
  | unknownProperty error => error.message
  | coercion error => error.message
  | compilation property fault =>
    "cannot compile condition on '" ++ property ++ "': " ++ fault.message
  | datePattern pattern fault =>
    "invalid date format pattern '" ++ pattern ++ "': " ++ fault.message

/-- Whether the text of the filter is to blame, and not the settings. -/
def isClientError : Error → Bool
  | datePattern .. => false
  | _ => true

end Error

/-! ## Conditions -/

/-- The pattern of an argument: stars become wildcards, and letters are lower-cased. -/
def Condition.likePattern (text : String) : String :=
  Text.lower (String.ofList (text.toList.map fun c => if c = '*' then '%' else c))

/-- The condition of `==`. Lists are searched as text whatever the argument is. -/
def Condition.equalTo (type : ValueType) (argument : Value) : Condition :=
  if type = .list then .joinedLike (Condition.likePattern argument.render)
  else match argument with
    | .null => .isNull
    | .text text => .like (Condition.likePattern text) false
    | .date _ | .dateTime _ | .int .. | .boolean _ => .equal argument

/-- The condition of `!=`. -/
def Condition.notEqualTo (argument : Value) : Condition :=
  match argument with
  | .null => .isNotNull
  | .text text => .like (Condition.likePattern text) true
  | .date _ | .dateTime _ | .int .. | .boolean _ => .notEqual argument

/-- The condition of an ordered comparison. Only dates compare by value; all else compares as
text. -/
def Condition.ordered (relation : Relation) (argument : Value) : Condition :=
  match argument with
  | .date _ | .dateTime _ => .compare relation argument
  | .null | .text _ | .int .. | .boolean _ => .compareText relation argument.render

/-- The argument of `=isnull=` and `=isempty=` as a truth value. -/
def ResolvedPath.flag (path : ResolvedPath) (argument : Value) : Except Error Bool :=
  let refuse : Except Error Bool :=
    .error (.compilation path.property (.notAFlag argument.render))
  match argument with
  | .text text =>
    if Text.sameIgnoringCase text "true" then .ok true
    else if Text.sameIgnoringCase text "false" then .ok false
    else refuse
  | _ => refuse

/-- The predicate of an operator on a path, given its first argument and all of them. -/
def Predicate.ofOperator (selector : String) (path : ResolvedPath) (first : Value)
    (values : List Value) (operator : Operator) : Except Error Predicate :=
  let test (condition : Condition) : Except Error Predicate := .ok (.test path condition)
  match operator with
  | .equal => test (Condition.equalTo path.type first)
  | .notEqual => test (Condition.notEqualTo first)
  | .greaterThan => test (Condition.ordered .greater first)
  | .greaterOrEqual => test (Condition.ordered .greaterOrEqual first)
  | .lessThan => test (Condition.ordered .less first)
  | .lessOrEqual => test (Condition.ordered .lessOrEqual first)
  | .isIn => test (.isIn values)
  | .isNotIn => .ok (.not (.test path (.isIn values)))
  | .isNull => do
    if ← ResolvedPath.flag path first then test .isNull else test .isNotNull
  | .isEmpty => do
    if !path.isCollection then
      .error (.compilation selector (.notACollection operator path.type))
    else if ← ResolvedPath.flag path first then test .isEmpty
    else test .isNotEmpty

/-! ## Compilers -/

/-- What a compiler goes by. -/
structure Compiler where
  /-- how date and date-time arguments are read -/
  dateFormat : DateFormat
  /-- the operators accepted in a filter expression -/
  operators : OperatorSet

namespace Compiler

/-- The compiler with the standard date format and all operators. -/
def standard : Compiler :=
  ⟨.standard, .extended⟩

/-- The same compiler with dates of another pattern. -/
def withDatePattern (c : Compiler) (pattern : String) : Except Error Compiler :=
  match DateFormat.ofPattern pattern with
  | .ok format => .ok { c with dateFormat := format }
  | .error fault => .error (.datePattern pattern fault)

/-- The compiler of given settings. -/
def ofSettings (s : Settings) : Except Error Compiler :=
  standard.withDatePattern s.datePattern

/-- Reads a filter expression without compiling it. -/
def parse (c : Compiler) (query : String) : Except Error Node :=
  (Node.parse query c.operators).mapError .malformed

/-- Compiles one comparison: its path is resolved, then its arguments are read, then the operator
chooses the condition. -/
def compileComparison (c : Compiler) (e : Entity) (clause : Comparison) : Except Error Predicate :=
  match e.resolve clause.selector with
  | .error error => .error (.unknownProperty error)
  | .ok path =>
    match path.type.coerceArguments clause.operator clause.arguments c.dateFormat with
    | .error error => .error (.coercion error)
    | .ok [] => .error (.compilation clause.selector (.noArgument clause.operator))
    | .ok (first :: rest) =>
      Predicate.ofOperator clause.selector path first (first :: rest) clause.operator

mutual

/-- Compiles a tree. The first comparison that fails, from the left, is the one that is told. -/
def compileNode (c : Compiler) (e : Entity) : Node → Except Error Predicate
  | .all children => (c.compileNodes e children).map .all
  | .any children => (c.compileNodes e children).map .any
  | .comparison clause => c.compileComparison e clause

def compileNodes (c : Compiler) (e : Entity) : List Node → Except Error (List Predicate)
  | [] => .ok []
  | child :: children =>
    match c.compileNode e child with
    | .error error => .error error
    | .ok operand => (c.compileNodes e children).map (operand :: ·)

end

/-- Compiles a filter expression. No text, and the empty one, stand for no filter. -/
def compile (c : Compiler) (e : Entity) (query : Option String) : Except Error (Option Filter) :=
  match query with
  | none => .ok none
  | some query =>
    if query = "" then .ok none
    else match c.parse query with
      | .error error => .error error
      | .ok node => (c.compileNode e node).map fun p => some (.ofPredicate p)

/-- Compiles a filter expression to a filter that keeps each record at most once. -/
def compileDistinct (c : Compiler) (e : Entity) (query : Option String) :
    Except Error (Option Filter) :=
  (c.compile e query).map fun f => f.map Filter.asDistinct

end Compiler

end RecordFilter
