/-
# Entities

Entities and their attributes: what a property path is walked against. An entity is described here
down to its last attribute, so none leads back to where it stands. Walking a path only ever asks an
entity for the attribute of a name (`Entity.attribute?`); descriptions that answer this in another
way, such as entities that refer to each other, are left out.
-/
import RecordFilter.Json
import RecordFilter.Text.Quoted

namespace RecordFilter

/-- The type of a property's values. It decides how an argument is read. -/
inductive ValueType where
  /-- an integer of 32 bits -/
  | integer
  /-- an integer of 64 bits -/
  | long
  /-- an integer of 8 bits -/
  | byte
  | boolean
  | date
  | dateTime
  | string
  /-- a collection of plain values -/
  | list
  /-- a related entity or an embedded value -/
  | entity
  /-- anything else, compared as text -/
  | other
deriving DecidableEq, Inhabited

/-- How a type is named in messages. -/
def ValueType.describe : ValueType → String
  | integer => "integer"
  | long => "long"
  | byte => "byte"
  | boolean => "boolean"
  | date => "date"
  | dateTime => "date-time"
  | string => "string"
  | list => "list"
  | entity => "entity"
  | other => "other"

/-- Whether a relation leads to one entity or to any number of them. -/
inductive Cardinality where
  | toOne
  | toMany
deriving DecidableEq, Inhabited

/-- How an attribute with attributes of its own is reached: inside its owner, or as an entity of its
own through a join. -/
inductive Link where
  | embedded
  | relation (cardinality : Cardinality)
deriving DecidableEq, Inhabited

/-- An attribute: a plain value, or a link to an entity of the given name and attributes. -/
inductive Attribute where
  | basic (type : ValueType)
  | link (link : Link) (entity : String) (attributes : List (String × Attribute))
deriving Inhabited

/-- An entity, described as a whole: its name in messages, and its attributes by name. -/
structure Entity where
  name : String
  attributes : List (String × Attribute)
deriving Inhabited

namespace Entity

/-- An entity without attributes. -/
def empty (name : String) : Entity :=
  ⟨name, []⟩

/-- The attribute of a name. -/
def attribute? (e : Entity) (name : String) : Option Attribute :=
  e.attributes.lookup name

/-- Attributes with one more: in the place of the one of that name, or else at the end. -/
def putAttribute (name : String) (a : Attribute) :
    List (String × Attribute) → List (String × Attribute)
  | [] => [(name, a)]
  | (other, old) :: rest =>
    if other = name then (name, a) :: rest else (other, old) :: putAttribute name a rest

/-- The entity with an attribute added, or replaced where it has one of that name. -/
def insert (e : Entity) (name : String) (a : Attribute) : Entity :=
  { e with attributes := putAttribute name a e.attributes }

end Entity

/-- The attribute that links to `target`. -/
def Attribute.to (link : Link) (target : Entity) : Attribute :=
  .link link target.name target.attributes

/-- What an attribute is, on one line. -/
def Attribute.describe : Attribute → String
  | basic type =>
    "Basic(" ++
      (match type with
        | .integer => "Integer"
        | .long => "Long"
        | .byte => "Byte"
        | .boolean => "Boolean"
        | .date => "Date"
        | .dateTime => "DateTime"
        | .string => "String"
        | .list => "List"
        | .entity => "Entity"
        | .other => "Other") ++ ")"
  | link .embedded entity _ => "Embedded(" ++ Text.quoted entity ++ ")"
  | link (.relation cardinality) entity _ =>
    "Relation \x7b cardinality: " ++
      (match cardinality with
        | .toOne => "ToOne"
        | .toMany => "ToMany") ++ ", target: " ++ Text.quoted entity ++ " \x7d"

end RecordFilter
