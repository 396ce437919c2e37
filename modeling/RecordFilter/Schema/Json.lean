/-
# Entities as JSON

An entity is an object of `name` and `attributes`, an attribute an object whose `kind` says what
else it holds. Either may also be written as an array of its parts in order. The outermost entity is
read from the document itself, part by part in the order of the text; an attribute's parts are read
whole before any of them is used, so everything inside an attribute is read from values.
-/
import RecordFilter.Schema
import RecordFilter.Json.Reader

namespace RecordFilter

open Json (Document DataError ReadError Fault)

/-! ## Writing -/

def ValueType.name : ValueType → String
  | integer => "integer"
  | long => "long"
  | byte => "byte"
  | boolean => "boolean"
  | date => "date"
  | dateTime => "date_time"
  | string => "string"
  | list => "list"
  | entity => "entity"
  | other => "other"

def Cardinality.name : Cardinality → String
  | toOne => "to_one"
  | toMany => "to_many"

/-- The `kind` of a link, and the name of the field that holds its entity. -/
def Link.tags : Link → String × String
  | embedded => ("embedded", "schema")
  | relation cardinality => (cardinality.name, "target")

/-- The object of an entity whose attributes are given as fields. -/
def Entity.object (name : String) (attributes : List (String × Json)) : Json :=
  .object [("name", .string name), ("attributes", .object attributes)]

mutual

def Attribute.toJson : Attribute → Json
  | .basic type => .object [("kind", .string "basic"), ("type", .string type.name)]
  | .link link entity attributes =>
    .object [("kind", .string link.tags.1),
      (link.tags.2, Entity.object entity (Entity.attributesToJson attributes))]

def Entity.attributesToJson : List (String × Attribute) → List (String × Json)
  | [] => []
  | (name, a) :: rest => (name, a.toJson) :: Entity.attributesToJson rest

end

def Entity.toJson (e : Entity) : Json :=
  Entity.object e.name (Entity.attributesToJson e.attributes)

/-! ## Reading names -/

def ValueType.all : List ValueType :=
  [.integer, .long, .byte, .boolean, .date, .dateTime, .string, .list, .entity, .other]

def ValueType.ofName (name : String) : Except DataError ValueType :=
  match ValueType.all.find? (·.name == name) with
  | some type => .ok type
  | none => .error (.unknownVariant name (ValueType.all.map (·.name)))

/-- What the `kind` of an attribute says: nothing for a plain value, or how its entity is reached.
-/
abbrev Kind := Option Link

/-- Every kind with its name and the name that messages give it. -/
def Kind.all : List (String × String × Kind) := [
  ("basic", "Basic", none),
  ("embedded", "Embedded", some .embedded),
  ("to_one", "ToOne", some (.relation .toOne)),
  ("to_many", "ToMany", some (.relation .toMany))]

def Kind.ofName (name : String) : Except DataError Kind :=
  match Kind.all.find? (·.1 == name) with
  | some (_, _, kind) => .ok kind
  | none => .error (.unknownVariant name (Kind.all.map (·.1)))

/-- The description of an attribute's parts in messages. -/
def Kind.describe (kind : Kind) : String :=
  match Kind.all.find? (·.2.2 == kind) with
  | some (_, title, _) => "struct variant AttributeDef::" ++ title ++ " with 1 element"
  | none => ""

/-- The kind given in a document. -/
def Kind.ofDocument : Document → Except ReadError Kind
  | .string (some name) => (Kind.ofName name).mapError .data
  | d => .error (d.mismatch "variant identifier")

/-- The kind given in a value: by name, or by its place in the list of kinds. -/
def Kind.ofJson : Json → Except DataError Kind
  | .string name => Kind.ofName name
  | .number (.integer n) =>
    if n < 0 then .error ((Json.number (.integer n)).mismatch "variant identifier")
    else match Kind.all[n.toNat]? with
      | some (_, _, kind) => .ok kind
      | none =>
        .error (.invalidValue (Json.number (.integer n)).describe "variant index 0 <= i < 4")
  | value => .error (value.mismatch "variant identifier")

/-- The type given in a value: by name, or as an object with the name for its only field, which then
holds nothing. -/
def ValueType.ofJson : Json → Except DataError ValueType
  | .string name => ofName name
  | .object [(name, content)] =>
    match ofName name, content with
    | .error e, _ => .error e
    | .ok type, .null | .ok type, .object [] => .ok type
    | .ok _, content => .error (content.mismatch "unit")
  | .object _ => .error (.invalidValue "map" "map with a single key")
  | value => .error (value.mismatch "string or map")

/-! ## Reading values -/

/-- What messages call an entity as a whole. -/
def Entity.parts : String := "struct EntitySchema with 2 elements"

/-- The `kind` among the fields of an attribute. -/
def Kind.ofFields : Option Kind → List (String × Json) → Except DataError Kind
  | none, [] => .error (.missingField "kind")
  | some kind, [] => .ok kind
  | found, (name, value) :: fields =>
    if name = "kind" then
      match found with
      | some _ => .error (.duplicateField "kind")
      | none => match Kind.ofJson value with
        | .ok kind => Kind.ofFields (some kind) fields
        | .error e => .error e
    else Kind.ofFields found fields

/-- The type among the fields of a plain attribute. -/
def ValueType.ofFields : Option ValueType → List (String × Json) → Except DataError ValueType
  | none, [] => .error (.missingField "type")
  | some type, [] => .ok type
  | found, (name, value) :: fields =>
    if name = "type" then
      match found with
      | some _ => .error (.duplicateField "type")
      | none => match ValueType.ofJson value with
        | .ok type => ValueType.ofFields (some type) fields
        | .error e => .error e
    else ValueType.ofFields found fields

/-- The text of a value that should be a string. -/
def Json.asText : Json → Except DataError String
  | .string s => .ok s
  | value => .error (value.mismatch "a string")

mutual

/-- The entity given in a value. -/
def Entity.ofJson : Json → Except DataError Entity
  | .array [] => .error (.invalidLength 0 Entity.parts)
  | .array [name] => (Json.asText name).map (⟨·, []⟩)
  | .array (name :: attributes :: rest) =>
    match Json.asText name with
    | .error e => .error e
    | .ok name =>
      match Entity.attributesOfJson attributes with
      | .error e => .error e
      | .ok attributes =>
        if rest.isEmpty then .ok ⟨name, attributes⟩ else .error (DataError.tooMany 2 rest.length)
  | .object fields => Entity.ofJsonFields none none fields
  | value => .error (value.mismatch "struct EntitySchema")

/-- The entity given in fields, of which `name` and `attributes` may have been read. -/
def Entity.ofJsonFields (name : Option String) (attributes : Option (List (String × Attribute))) :
    List (String × Json) → Except DataError Entity
  | [] =>
    match name with
    | some name => .ok ⟨name, attributes.getD []⟩
    | none => .error (.missingField "name")
  | (field, value) :: fields =>
    if field = "name" then
      match name with
      | some _ => .error (.duplicateField "name")
      | none => match Json.asText value with
        | .ok name => Entity.ofJsonFields (some name) attributes fields
        | .error e => .error e
    else if field = "attributes" then
      match attributes with
      | some _ => .error (.duplicateField "attributes")
      | none => match Entity.attributesOfJson value with
        | .ok attributes => Entity.ofJsonFields name (some attributes) fields
        | .error e => .error e
    else Entity.ofJsonFields name attributes fields

def Entity.attributesOfJson : Json → Except DataError (List (String × Attribute))
  | .object fields => Entity.attributesOfFields [] fields
  | value => .error (value.mismatch "a map")

/-- The attributes given in fields, behind those in `before`; of several of one name the last
counts. -/
def Entity.attributesOfFields (before : List (String × Attribute)) :
    List (String × Json) → Except DataError (List (String × Attribute))
  | [] => .ok before
  | (name, value) :: fields =>
    match Attribute.ofJson value with
    | .ok a => Entity.attributesOfFields (Entity.putAttribute name a before) fields
    | .error e => .error e

def Attribute.ofJson : Json → Except DataError Attribute
  | .object fields =>
    match Kind.ofFields none fields with
    | .ok none => (ValueType.ofFields none fields).map .basic
    | .ok (some via) => Attribute.linkOfFields via none fields
    | .error e => .error e
  | .array [] => .error (.missingField "kind")
  | .array (kind :: parts) =>
    match Kind.ofJson kind with
    | .ok kind => Attribute.ofParts kind parts
    | .error e => .error e
  | value => .error (value.mismatch "internally tagged enum AttributeDef")

/-- The entity among the fields of a link. -/
def Attribute.linkOfFields (link : Link) (found : Option Entity) :
    List (String × Json) → Except DataError Attribute
  | [] =>
    match found with
    | some target => .ok (.to link target)
    | none => .error (.missingField link.tags.2)
  | (name, value) :: fields =>
    if name = link.tags.2 then
      match found with
      | some _ => .error (.duplicateField link.tags.2)
      | none => match Entity.ofJson value with
        | .ok target => Attribute.linkOfFields link (some target) fields
        | .error e => .error e
    else Attribute.linkOfFields link found fields

/-- The attribute of a kind, given in an array of its other parts. -/
def Attribute.ofParts (kind : Kind) : List Json → Except DataError Attribute
  | [] => .error (.invalidLength 0 (Kind.describe kind))
  | part :: rest =>
    let made : Except DataError Attribute := match kind with
      | none => (ValueType.ofJson part).map .basic
      | some via => (Entity.ofJson part).map (.to via)
    match made with
    | .ok a => if rest.isEmpty then .ok a else .error (DataError.tooMany 1 rest.length)
    | .error e => .error e

end

/-- The attribute of a kind, given in its other fields. -/
def Attribute.ofFields (kind : Kind) (fields : List (String × Json)) : Except DataError Attribute :=
  match kind with
  | none => (ValueType.ofFields none fields).map .basic
  | some via => Attribute.linkOfFields via none fields

/-! ## Reading documents -/

/-- How many arrays and objects are around the parts of an attribute of the outermost entity. -/
def partDepth : Nat := 3

/-- An attribute from the fields of its object: its kind, if that has been read, and the other
fields read so far, the last one first. -/
def Attribute.ofDocumentFields (ending : Option Fault) (kind : Option Kind)
    (before : List (String × Json)) : List (Option String × Document) → Except ReadError Attribute
  | [] => do
    Document.checkEnding ending
    match kind with
    | some kind => (Attribute.ofFields kind before.reverse).mapError .data
    | none => .error (.data (.missingField "kind"))
  | (none, _) :: _ => .error (.fault .malformed)
  | (some name, value) :: fields =>
    if name = "kind" then
      match kind with
      | some _ => .error (.data (.duplicateField "kind"))
      | none => do Attribute.ofDocumentFields ending (some (← Kind.ofDocument value)) before fields
    else
      match value.value partDepth with
      | .ok value => Attribute.ofDocumentFields ending kind ((name, value) :: before) fields
      | .error f => .error (.fault f)

/-- An attribute of the outermost entity. -/
def Attribute.ofDocument : Document → Except ReadError Attribute
  | .object fields ending => Attribute.ofDocumentFields ending none [] fields
  | .array [] ending => do
    Document.checkEnding ending
    .error (.data (.missingField "kind"))
  | .array (kind :: parts) ending => do
    let kind ← Kind.ofDocument kind
    let parts ← (Document.values partDepth parts).mapError .fault
    Document.checkEnding ending
    (Attribute.ofParts kind parts).mapError .data
  | d => .error (d.mismatch "internally tagged enum AttributeDef")

/-- The attributes of the outermost entity, behind those in `before`. -/
def Entity.attributesOfDocumentFields (ending : Option Fault) (before : List (String × Attribute)) :
    List (Option String × Document) → Except ReadError (List (String × Attribute))
  | [] => do
    Document.checkEnding ending
    return before
  | (none, _) :: _ => .error (.fault .malformed)
  | (some name, value) :: fields => do
    let a ← Attribute.ofDocument value
    Entity.attributesOfDocumentFields ending (Entity.putAttribute name a before) fields

def Entity.attributesOfDocument : Document → Except ReadError (List (String × Attribute))
  | .object fields ending => Entity.attributesOfDocumentFields ending [] fields
  | d => .error (d.mismatch "a map")

/-- The outermost entity from the fields of its object. Fields of other names are passed over. -/
def Entity.ofDocumentFields (ending : Option Fault) (name : Option String)
    (attributes : Option (List (String × Attribute))) :
    List (Option String × Document) → Except ReadError Entity
  | [] => do
    Document.checkEnding ending
    match name with
    | some name => return ⟨name, attributes.getD []⟩
    | none => .error (.data (.missingField "name"))
  | (none, _) :: _ => .error (.fault .malformed)
  | (some field, value) :: fields =>
    if field = "name" then
      match name with
      | some _ => .error (.data (.duplicateField "name"))
      | none => do Entity.ofDocumentFields ending (some (← value.text)) attributes fields
    else if field = "attributes" then
      match attributes with
      | some _ => .error (.data (.duplicateField "attributes"))
      | none => do
        Entity.ofDocumentFields ending name (some (← Entity.attributesOfDocument value)) fields
    else
      match value.skim with
      | .ok () => Entity.ofDocumentFields ending name attributes fields
      | .error f => .error (.fault f)

/-- The outermost entity. -/
def Entity.ofDocument : Document → Except ReadError Entity
  | .object fields ending => Entity.ofDocumentFields ending none none fields
  | .array [] ending => do
    Document.checkEnding ending
    .error (.data (.invalidLength 0 Entity.parts))
  | .array [name] ending => do
    let name ← name.text
    Document.checkEnding ending
    return ⟨name, []⟩
  | .array (name :: attributes :: rest) ending => do
    let name ← name.text
    let attributes ← Entity.attributesOfDocument attributes
    if rest.isEmpty then
      Document.checkEnding ending
      return ⟨name, attributes⟩
    else .error (.fault .malformed)
  | d => .error (d.mismatch "struct EntitySchema")

/-- Reads an entity from a JSON text. -/
def Entity.ofText (text : String) : Except ReadError Entity :=
  Json.readText Entity.ofDocument text

end RecordFilter
