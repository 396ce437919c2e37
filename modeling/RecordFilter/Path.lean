/-
# Property paths

A dotted path is walked through an entity, name by name. A resolved path is the sequence of its
segments. All else follows from them: a relation with further segments behind it is reached through
a join, whose alias is the path up to it; the segments between one relation and the next are read
inside the same value.
-/
import RecordFilter.Schema
import RecordFilter.Text.Basic

namespace RecordFilter

/-- A segment of a path: a name, and how it leads on. A plain value leads nowhere. -/
structure Segment where
  name : String
  link : Option Link
deriving DecidableEq

/-- What a joined entity is called: the names on the way to it from the root. -/
abbrev Alias := List String

/-- A left outer join to a related entity. -/
structure Join where
  /-- the entity it leads to, by the name that a query gives it -/
  target : Alias
  /-- the entity it starts from; none for the root -/
  parent : Option Alias
  /-- the names read from there to reach the relation -/
  attributes : List String
  cardinality : Cardinality
deriving DecidableEq

/-- How many names an alias has. A join's parent always has fewer. -/
def Join.depth (j : Join) : Nat :=
  j.target.length

/-- A path through an entity, and the type of the value it ends on. -/
structure ResolvedPath where
  segments : List Segment
  type : ValueType
deriving DecidableEq

namespace ResolvedPath

/-- The names of the segments. -/
def names (p : ResolvedPath) : List String :=
  p.segments.map (·.name)

/-- The dotted path as it was written. -/
def property (p : ResolvedPath) : String :=
  Text.joinDots p.names

/-- The joins of the segments behind the names `before`, of which the last ones, `pending`, are read
from the entity `parent`. -/
def joinsFrom (parent : Option Alias) (before pending : List String) : List Segment → List Join
  | [] => []
  | [_] => []
  | segment :: segments =>
    let here := before ++ [segment.name]
    match segment.link with
    | some (.relation cardinality) =>
      ⟨here, parent, pending ++ [segment.name], cardinality⟩ ::
        joinsFrom (some here) here [] segments
    | _ => joinsFrom parent here (pending ++ [segment.name]) segments

/-- The joins that must be made before the value can be read, the outermost first. -/
def joins (p : ResolvedPath) : List Join :=
  joinsFrom none [] [] p.segments

/-- The names that are read from the last joined entity, when `pending` are to be read already. -/
def accessorFrom (pending : List String) : List Segment → List String
  | [] => pending
  | [segment] => pending ++ [segment.name]
  | segment :: segments =>
    match segment.link with
    | some (.relation _) => accessorFrom [] segments
    | _ => accessorFrom (pending ++ [segment.name]) segments

/-- The names to read from `source` to the value. -/
def accessor (p : ResolvedPath) : List String :=
  accessorFrom [] p.segments

/-- The joined entity that the value is read from; none for the root. -/
def source (p : ResolvedPath) : Option Alias :=
  p.joins.getLast?.map (·.target)

/-- Whether the path ends on a list or on a relation to many. -/
def isCollection (p : ResolvedPath) : Bool :=
  p.type == .list || p.segments.getLast?.any (·.link == some (.relation .toMany))

end ResolvedPath

/-! ## Resolution -/

/-- Why a path does not lead through an entity: the first name that does not, and what it was looked
up on. -/
structure UnknownProperty where
  property : String
  segment : String
  entity : String
deriving DecidableEq

def UnknownProperty.message (u : UnknownProperty) : String :=
  "unknown property '" ++ u.segment ++ "' in '" ++ u.property ++ "' on " ++ u.entity

namespace Entity

/-- The error for the name `segment` of a path, looked up on `entity`. -/
def unknown (property segment entity : String) : Except UnknownProperty ResolvedPath :=
  .error ⟨property, segment, entity⟩

/-- The path with one more segment in front. -/
def behind (segment : Segment) (p : ResolvedPath) : ResolvedPath :=
  { p with segments := segment :: p.segments }

/-- Walks names through an entity. -/
def walk (property : String) (e : Entity) : List String → Except UnknownProperty ResolvedPath
  | [] => .ok ⟨[], .entity⟩
  | name :: names =>
    if name = "" then unknown property name e.name
    else match e.attribute? name with
      | none => unknown property name e.name
      | some (.basic type) =>
        match names with
        | [] => .ok ⟨[⟨name, none⟩], type⟩
        | next :: _ =>
          unknown property next (type.describe ++ " value " ++ e.name ++ "." ++ name)
      | some (.link link target attributes) =>
        (walk property ⟨target, attributes⟩ names).map (behind ⟨name, some link⟩)

/-- Resolves a dotted path. -/
def resolve (e : Entity) (property : String) : Except UnknownProperty ResolvedPath :=
  walk property e (Text.dotted property)

end Entity

/-! ## Texts -/

/-- The name of an alias in a query. -/
def Alias.label (a : Alias) : String :=
  Text.joinDots a

/-- The name of the entity that a query starts from. -/
def Alias.root : String := "root"

def Join.render (j : Join) : String :=
  "left join \"" ++ (j.parent.map Alias.label).getD Alias.root ++ "\"." ++
    Text.joinDots j.attributes ++ " as \"" ++ j.target.label ++ "\""

def ResolvedPath.render (p : ResolvedPath) : String :=
  match p.source with
  | some a => "\"" ++ a.label ++ "\"." ++ Text.joinDots p.accessor
  | none => Text.joinDots p.accessor

end RecordFilter
