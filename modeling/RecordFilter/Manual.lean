/-
# The manual

An overview, and one text for each category.
-/
import RecordFilter.Text.Lower

namespace RecordFilter.Manual

/-- What the manual has texts about. -/
inductive Category where
  | language
  | operators
  | types
  | paths
  | schema
deriving DecidableEq

/-- The category of a name. Case does not matter, nor whether words are joined by `-` or `_`. -/
def Category.ofName? (name : String) : Option Category :=
  let dashed (c : Char) : Char := if c = '-' then '_' else c
  match String.ofList ((Text.lowerChars name.toList).map dashed) with
  | "syntax" => some language
  | "operators" | "ops" => some operators
  | "types" | "type" | "coercion" => some types
  | "paths" | "path" | "joins" => some paths
  | "schema" | "schemas" => some schema
  | _ => none

/-- The list of categories. -/
def overview : String :=
"RSQL-FILTER DOCUMENTATION

rsql compiles RSQL/FIQL filter expressions such as

    name==jo*;(age=gt=30,dept.title==sales)

into backend-neutral predicates, checked against an entity schema.

DOCUMENTATION CATEGORIES

  syntax            Comparisons, AND/OR, grouping and quoting
  operators         Every comparison operator and the predicate it compiles to
  types             How arguments are coerced to property types
  paths             Dotted property paths, embedded values and joins
  schema            JSON format of the --schema file

QUICK REFERENCE

  ;  and            Logical AND (binds tighter)
  ,  or             Logical OR
  ( ... )           Grouping
  *                 Wildcard in == and != on text
  =in=(a,b)         Membership

Run 'rsql doc <category>' for detailed documentation.
"

/-- Comparisons, logic and quoting. -/
def languageText : String :=
"SYNTAX - Comparisons and Logic

A filter is one or more comparisons joined by logical operators.

COMPARISON

  selector operator argument
  selector operator (argument, argument, ...)

  name==john
  age=gt=30
  status=in=(active,pending)

LOGIC

  ;   or  and       AND, binds tighter than OR
  ,   or  or        OR

  name==john;age=gt=30            both must hold
  name==john,name==jane           either may hold
  (name==john,name==jane);age<40  grouping with parentheses

QUOTING

Arguments containing spaces or reserved characters ( ) ; , = ! ~ < > \"
must be quoted with single or double quotes. A backslash escapes the next
character inside a quoted argument.

  title==\"Head of sales\"
  note=='it\\'s done'

EMPTY INPUT

An empty filter means \"no filter\": every entity matches.
"

/-- Every operator and the condition it becomes. -/
def operatorsText : String :=
"OPERATORS - Comparisons

  ==            Equal
                Text: case-insensitive LIKE, * matches any run of characters
                List: elements joined without delimiter, then LIKE
                Others: typed equality
  !=            Not equal
                Text: case-insensitive NOT LIKE with * wildcard
                Others: typed inequality
  =gt=  >       Greater than
  =ge=  >=      Greater than or equal
  =lt=  <       Less than
  =le=  <=      Less than or equal
                Dates and date-times compare by value. Every other type
                compares as text, so \"9\" > \"10\".
  =in=          Member of the argument list
  =out=         Not a member of the argument list
  =isnull=      =isnull=true is \"is null\", =isnull=false is \"is not null\"
  =isempty=     =isempty=true is \"is empty\", =isempty=false is \"is not empty\"
                Only valid on collections (list values, to-many relations)

EXAMPLES

  name==jo*                 lower(name) like 'jo%'
  tags==*urgent*            lower(array_to_string(tags, '')) like '%urgent%'
  createdAt=ge='2024-03-01 00:00:00.000'
  manager=isnull=true
  staff=isempty=false
"

/-- How arguments are read. -/
def typesText : String :=
"TYPES - Argument Coercion

Arguments are text. Before comparison they are converted to the type of the
property they are compared against.

  integer       32-bit signed integer       age==42
  long          64-bit signed integer       id==9000000000
  byte          8-bit signed integer        level==3
  boolean       \"true\" in any case is true, anything else is false
  date          parsed with the date format, time of day dropped
  date_time     parsed with the date format, millisecond resolution
  string, list, entity, other
                kept as text

A value that does not parse, such as age==abc, is rejected.

DATE FORMAT

The default date format is

  yyyy-MM-dd HH:mm:ss.SSS

Change it with a --config file:

  \x7b \"date_format\": \"dd.MM.yyyy HH:mm\" \x7d

The =isnull= and =isempty= arguments are never coerced.
"

/-- Dotted paths and joins. -/
def pathsText : String :=
"PATHS - Dotted Selectors

A selector is a dot-separated path from the root entity.

  name                      attribute of the root entity
  address.city              attribute of an embedded value, read in place
  dept.title                attribute of a related entity, via a left join
  dept.manager.name         nested relations, one left join each

Relations are traversed as LEFT OUTER joins, so entities without the related
entity are kept and compare as null. Every comparison through the same
relation reuses the same join:

  staff.name==ann;staff.age=gt=30

requires a single staff member named ann who is over 30. To-many joins can
produce duplicate rows; use --distinct to suppress them.

Unknown segments are rejected with the segment and the entity they were
looked up on.
"

/-- The JSON of entities and records. -/
def schemaText : String :=
"SCHEMA - Entity Description Format

The --schema file describes the root entity as JSON:

  \x7b
    \"name\": \"Employee\",
    \"attributes\": \x7b
      \"name\":    \x7b \"kind\": \"basic\", \"type\": \"string\" \x7d,
      \"age\":     \x7b \"kind\": \"basic\", \"type\": \"integer\" \x7d,
      \"tags\":    \x7b \"kind\": \"basic\", \"type\": \"list\" \x7d,
      \"address\": \x7b \"kind\": \"embedded\", \"schema\": \x7b \"name\": \"Address\", \"attributes\": \x7b ... \x7d \x7d \x7d,
      \"dept\":    \x7b \"kind\": \"to_one\", \"target\": \x7b \"name\": \"Department\", \"attributes\": \x7b ... \x7d \x7d \x7d,
      \"skills\":  \x7b \"kind\": \"to_many\", \"target\": \x7b \"name\": \"Skill\", \"attributes\": \x7b ... \x7d \x7d \x7d
    \x7d
  \x7d

Attribute kinds: basic, embedded, to_one, to_many.
Basic types: integer, long, byte, boolean, date, date_time, string, list,
entity, other.

RECORDS

'rsql filter' reads a JSON array of records shaped like the schema. Dates
are ISO-8601 strings, e.g. \"2024-03-01\" or \"2024-03-01T10:00:00.000\".
"

/-- The text of a category. -/
def Category.text : Category → String
  | language => languageText
  | operators => operatorsText
  | types => typesText
  | paths => pathsText
  | schema => schemaText

end RecordFilter.Manual
