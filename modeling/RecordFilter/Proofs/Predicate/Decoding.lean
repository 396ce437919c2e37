/-
# `Proofs.Predicate.Decoding` — the JSON form of a predicate tells it

A predicate is written as an object that names its shape under `op`; a path is written as its
dotted text only, a date and a moment as texts.  Here is a reader of such objects, by the names
of their fields.  It is given the entity that the paths belong to and resolves them again, and it
reads dates and moments as stored ones.  It undoes the writing

    Predicate.ofJson? e p.toJson.canonical = some p            (`Predicate.ofJson?_toJson`)

whenever the entity resolves the paths and each date is one that exists, each moment one that a
clock shows.  What is made of an argument is (`Value.Coerced.isExact`).  So no two predicates have
one JSON form, in whatever order the fields of objects stand.
-/
import RecordFilter.Predicate.Json
import RecordFilter.Proofs.Calendar.Exact
import RecordFilter.Proofs.Compiler.Typing
import RecordFilter.Proofs.Json.Canonical

namespace RecordFilter

/-! ## Reading values -/

/-- The text that a value is. -/
def Json.string? : Json → Option String
  | string s => some s
  | _ => none

/-- The truth value that a value is. -/
def Json.bool? : Json → Option Bool
  | bool b => some b
  | _ => none

def Width.ofName? : String → Option Width
  | "byte" => some byte
  | "integer" => some integer
  | "long" => some long
  | _ => none

/-- The value of a variant, from what it holds. -/
def Value.ofContent? (variant : String) (content : Option Json) : Option Value :=
  match variant, content with
  | "null", none => some null
  | "boolean", some (.bool b) => some (boolean b)
  | "date", some (.string s) => (Date.ofStored? s).map date
  | "date_time", some (.string s) => (DateTime.ofStored? s).map dateTime
  | "text", some (.string s) => some (text s)
  | name, some (.number (.integer n)) => (Width.ofName? name).map (int · n)
  | _, _ => none

def Value.ofJson? (v : Json) : Option Value :=
  match v.get? "type" with
  | some (.string variant) => ofContent? variant (v.get? "value")
  | _ => none

/-! ## Reading conditions -/

def Relation.ofName? : String → Option Relation
  | "greater" => some greater
  | "greater_or_equal" => some greaterOrEqual
  | "less" => some less
  | "less_or_equal" => some lessOrEqual
  | _ => none

/-- The ordered comparison that an object names. -/
def Relation.ofField? (v : Json) : Option Relation :=
  ((v.get? "comparison").bind Json.string?).bind ofName?

/-- The values of an array. -/
def Value.listOfJson? : Json → Option (List Value)
  | .array items => items.mapM ofJson?
  | _ => none

/-- The condition of a name, from the fields of its object. -/
def Condition.ofFields? (op : String) (v : Json) : Option Condition :=
  match op with
  | "is_null" => some isNull
  | "is_not_null" => some isNotNull
  | "is_empty" => some isEmpty
  | "is_not_empty" => some isNotEmpty
  | "equal" => ((v.get? "value").bind Value.ofJson?).map equal
  | "not_equal" => ((v.get? "value").bind Value.ofJson?).map notEqual
  | "like" => do
    let pattern ← (v.get? "pattern").bind Json.string?
    let negated ← (v.get? "negated").bind Json.bool?
    return like pattern negated
  | "joined_like" => ((v.get? "pattern").bind Json.string?).map joinedLike
  | "compare" => do
    let relation ← Relation.ofField? v
    let value ← (v.get? "value").bind Value.ofJson?
    return compare relation value
  | "compare_text" => do
    let relation ← Relation.ofField? v
    let text ← (v.get? "value").bind Json.string?
    return compareText relation text
  | "in" => ((v.get? "values").bind Value.listOfJson?).map isIn
  | _ => none

/-! ## Reading predicates -/

namespace Predicate

/-- The test of a name, from the fields of its object. -/
def testOf? (e : Entity) (op : String) (v : Json) : Option Predicate := do
  let property ← (v.get? "path").bind Json.string?
  let path ← (e.resolve property).toOption
  let condition ← Condition.ofFields? op v
  return test path condition

mutual

/-- The predicate of an object, its paths resolved on an entity. -/
def ofJson? (e : Entity) : Json → Option Predicate
  | .object fields =>
    match fields.lookup "op" with
    | some (.string "and") => (operandsOf? e fields).map all
    | some (.string "or") => (operandsOf? e fields).map any
    | some (.string "not") => (operandOf? e fields).map not
    | some (.string op) => testOf? e op (.object fields)
    | _ => none
  | _ => none

/-- The predicate under `operand`. -/
def operandOf? (e : Entity) : List (String × Json) → Option Predicate
  | [] => none
  | (name, value) :: fields =>
    if "operand" = name then ofJson? e value else operandOf? e fields

/-- The predicates under `operands`. -/
def operandsOf? (e : Entity) : List (String × Json) → Option (List Predicate)
  | [] => none
  | (name, value) :: fields =>
    if "operands" = name then listOfJson? e value else operandsOf? e fields

/-- The predicates of an array. -/
def listOfJson? (e : Entity) : Json → Option (List Predicate)
  | .array items => ofItems? e items
  | _ => none

def ofItems? (e : Entity) : List Json → Option (List Predicate)
  | [] => some []
  | item :: items => do
    let operand ← ofJson? e item
    let operands ← ofItems? e items
    return operand :: operands

end

end Predicate

/-! ## What is read back of values -/

namespace Value

/-- A date exists, and a moment is one that a clock shows. -/
def IsExact : Value → Prop
  | date d => d.exists?
  | dateTime m => m.IsClocked
  | _ => True

/-- An argument was turned into the value. -/
def Coerced (v : Value) : Prop :=
  ∃ (type : ValueType) (argument : String) (format : DateFormat),
    type.coerce argument format = .ok v

/-- A date or a moment. -/
def IsDated : Value → Prop
  | date _ | dateTime _ => True
  | _ => False

/-- **Dates that arguments are turned into are exact.** -/
theorem Coerced.isExact {v : Value} (h : v.Coerced) : v.IsExact := by
  obtain ⟨type, argument, format, h⟩ := h
  cases ValueType.hasType_of_coerce h with
  | date d =>
      simp only [ValueType.coerce] at h
      split at h
      · next hread =>
          cases h
          exact DateFormat.exists_of_readDate hread
      · cases h
  | dateTime m =>
      simp only [ValueType.coerce] at h
      split at h
      · next hread =>
          cases h
          exact DateFormat.isClocked_of_readDateTime hread
      · cases h
  | int _ => trivial
  | boolean _ => trivial
  | text _ _ => trivial

@[simp]
theorem canonical_content (v : Value) : v.content.canonical = v.content := by
  cases v <;> rfl

theorem ofJson?_of_ne_null (v : Value) (h : v ≠ null) :
    ofJson? v.toJson.canonical = ofContent? v.variant (some v.content) := by
  have htype : v.toJson.canonical.get? "type" = some (.string v.variant) := by
    cases v with
    | null => exact absurd rfl h
    | _ => exact Json.get?_canonical
  have hvalue : v.toJson.canonical.get? "value" = some v.content := by
    cases v with
    | null => exact absurd rfl h
    | _ => exact Json.get?_canonical.trans (congrArg some (canonical_content _))
  rw [ofJson?, htype, hvalue]

/-- **A value is read back.** -/
theorem ofJson?_toJson {v : Value} (h : v.IsExact) : ofJson? v.toJson.canonical = some v := by
  cases v with
  | null => rfl
  | int width n =>
      rw [ofJson?_of_ne_null (int width n) nofun]
      cases width <;> rfl
  | boolean b => exact ofJson?_of_ne_null (boolean b) nofun
  | date d =>
      have hd : d.exists? := h
      rw [ofJson?_of_ne_null (date d) nofun]
      exact congrArg (Option.map date) (Date.ofStored?_text hd)
  | dateTime m =>
      have hm : m.IsClocked := h
      rw [ofJson?_of_ne_null (dateTime m) nofun]
      exact congrArg (Option.map dateTime) (DateTime.ofStored?_exactText hm)
  | text s => exact ofJson?_of_ne_null (text s) nofun

/-- **The values of an array are read back.** -/
theorem listOfJson?_map_toJson {values : List Value} (h : ∀ v ∈ values, v.IsExact) :
    listOfJson? (Json.array (values.map toJson)).canonical = some values := by
  rw [Json.canonical, listOfJson?, Json.canonicalItems_eq_map]
  induction values with
  | nil => rfl
  | cons v values ih =>
      rw [List.forall_mem_cons] at h
      rw [List.map_cons, List.map_cons, List.mapM_cons, ofJson?_toJson h.1, ih h.2]
      rfl

end Value

/-! ## What is read back of conditions -/

namespace Condition

/-- The values that a condition compares with. -/
def values : Condition → List Value
  | equal v | notEqual v | compare _ v => [v]
  | isIn vs => vs
  | _ => []

variable {path : String} {condition : Condition}

/-- A condition is written under a name of its own, and with its path. -/
theorem get?_canonical_toJson (path : String) (condition : Condition) :
    (∃ op, op ∉ ["and", "or", "not"] ∧
      (condition.toJson path).canonical.get? "op" = some (.string op)) ∧
    (condition.toJson path).canonical.get? "path" = some (.string path) := by
  cases condition with
  | _ =>
      refine ⟨⟨_, ?_, Json.get?_canonical⟩, Json.get?_canonical⟩
      decide

/-- **A condition is read back.** -/
theorem ofFields?_toJson (h : ∀ v ∈ condition.values, v.IsExact) {op : String}
    (hop : (condition.toJson path).canonical.get? "op" = some (.string op)) :
    ofFields? op (condition.toJson path).canonical = some condition := by
  cases condition with
  | isNull => cases hop; rfl
  | isNotNull => cases hop; rfl
  | isEmpty => cases hop; rfl
  | isNotEmpty => cases hop; rfl
  | equal v =>
      cases hop
      have hvalue := Value.ofJson?_toJson (h v (.head _))
      exact congrArg (Option.map equal) hvalue
  | notEqual v =>
      cases hop
      have hvalue := Value.ofJson?_toJson (h v (.head _))
      exact congrArg (Option.map notEqual) hvalue
  | like pattern negated => cases hop; rfl
  | joinedLike pattern => cases hop; rfl
  | compare relation v =>
      cases hop
      have hvalue := Value.ofJson?_toJson (h v (.head _))
      have hread : ofFields? "compare" ((compare relation v).toJson path).canonical =
          (Value.ofJson? v.toJson.canonical).bind fun value => some (compare relation value) := by
        cases relation <;> rfl
      rw [hread, hvalue]
      rfl
  | compareText relation text =>
      cases hop
      cases relation <;> rfl
  | isIn vs =>
      cases hop
      exact congrArg (Option.map isIn) (Value.listOfJson?_map_toJson h)

end Condition

/-! ## What is read back of predicates -/

namespace Predicate

variable {e : Entity} {p q : Predicate} {operands : List Predicate}

/-- The values that the tests of a predicate compare with are exact. -/
def IsExact (p : Predicate) : Prop :=
  ∀ test ∈ p.tests, ∀ v ∈ test.2.values, v.IsExact

theorem ofJson?_of_op {v : Json} {op : String} (hop : v.get? "op" = some (.string op))
    (hname : op ∉ ["and", "or", "not"]) : ofJson? e v = testOf? e op v := by
  cases v with
  | object fields =>
      have hop : fields.lookup "op" = some (.string op) := hop
      rw [ofJson?, hop]
      split
      · next heq => cases heq; exact absurd (.head _) hname
      · next heq => cases heq; exact absurd (.tail _ (.head _)) hname
      · next heq => cases heq; exact absurd (.tail _ (.tail _ (.head _))) hname
      · next heq => cases heq; rfl
      · next hother => exact absurd rfl (hother op)
  | _ => cases hop

mutual

/-- **A predicate is read back.** -/
theorem ofJson?_toJson : ∀ {p : Predicate}, p.ResolvedIn e → p.IsExact →
    ofJson? e p.toJson.canonical = some p
  | .all operands, hpaths, hexact => by
      have hread : ofJson? e (all operands).toJson.canonical =
          (ofItems? e (Json.canonicalItems (toJsonList operands))).map all := rfl
      rw [hread, ofItems?_toJsonList hpaths hexact]
      rfl
  | .any operands, hpaths, hexact => by
      have hread : ofJson? e (any operands).toJson.canonical =
          (ofItems? e (Json.canonicalItems (toJsonList operands))).map any := rfl
      rw [hread, ofItems?_toJsonList hpaths hexact]
      rfl
  | .not operand, hpaths, hexact => by
      have hread : ofJson? e (not operand).toJson.canonical =
          (ofJson? e operand.toJson.canonical).map not := rfl
      have hoperand : ofJson? e operand.toJson.canonical = some operand :=
        ofJson?_toJson hpaths hexact
      rw [hread, hoperand]
      rfl
  | .test path condition, hpaths, hexact => by
      obtain ⟨⟨op, hname, hop⟩, hpath⟩ := Condition.get?_canonical_toJson path.property condition
      -- of the path only its text is written, and the entity resolves that to the path again
      obtain ⟨property, hproperty⟩ := hpaths path (.head _)
      have hresolve : e.resolve path.property = .ok path := by
        rw [Entity.property_of_resolve hproperty, hproperty]
      have hcondition : Condition.ofFields? op (condition.toJson path.property).canonical =
          some condition := Condition.ofFields?_toJson (hexact (path, condition) (.head _)) hop
      rw [toJson, ofJson?_of_op hop hname, testOf?, hpath]
      simp only [Option.bind_eq_bind, Option.bind_some, Json.string?, hresolve, hcondition]
      rfl

theorem ofItems?_toJsonList : ∀ {operands : List Predicate}, (all operands).ResolvedIn e →
    (all operands).IsExact →
    ofItems? e (Json.canonicalItems (toJsonList operands)) = some operands
  | [], _, _ => rfl
  | operand :: operands, hpaths, hexact => by
      have hhead : ofJson? e operand.toJson.canonical = some operand := by
        refine ofJson?_toJson (fun path hpath => hpaths path ?_) fun test htest => hexact test ?_
        · exact List.mem_append_left _ hpath
        · exact List.mem_append_left _ htest
      have htail : ofItems? e (Json.canonicalItems (toJsonList operands)) = some operands := by
        refine ofItems?_toJsonList (fun path hpath => hpaths path ?_) fun test htest =>
          hexact test ?_
        · exact List.mem_append_right _ hpath
        · exact List.mem_append_right _ htest
      rw [toJsonList, Json.canonicalItems, ofItems?, hhead, htail]
      rfl

end

/-- Each date and each moment among the values of a predicate is what an argument was turned
into. -/
def DatesCoerced (p : Predicate) : Prop :=
  ∀ test ∈ p.tests, ∀ v ∈ test.2.values, v.IsDated → v.Coerced

theorem DatesCoerced.isExact (h : p.DatesCoerced) : p.IsExact := by
  intro test htest v hv
  have hcoerced := h test htest v hv
  cases v with
  | date d => exact (hcoerced trivial).isExact
  | dateTime m => exact (hcoerced trivial).isExact
  | _ => trivial

end Predicate

/-! ## The theorem -/

/-- **The JSON form of a predicate is faithful.**  Where one entity resolves the paths of two
predicates, and their dates and moments are what arguments were turned into, the predicates are
written as one JSON value, in whatever order its fields stand, only if they are one predicate:
the same connectives over the same tests, on the same paths with the same joins and types, with
the same values of the same sizes. -/
theorem predicate_json_faithful (e : Entity) (p q : Predicate) (hp : p.ResolvedIn e)
    (hq : q.ResolvedIn e) (hpdates : p.DatesCoerced) (hqdates : q.DatesCoerced) :
    p.toJson.canonical = q.toJson.canonical ↔ p = q := by
  constructor
  · intro hjson
    have hread := congrArg (Predicate.ofJson? e) hjson
    rw [Predicate.ofJson?_toJson hp hpdates.isExact, Predicate.ofJson?_toJson hq hqdates.isExact]
      at hread
    exact Option.some.inj hread
  · rintro rfl
    rfl

/-- Five stays apart from five: beside a leap second that an argument was turned into, the sizes
of two integers of one value tell two predicates apart. -/
theorem predicate_json_faithful_sizes :
    ∃ leap, ValueType.dateTime.coerce "2016-12-31 23:59:60.500" .standard = .ok leap ∧
      (Predicate.all [.test ⟨[⟨"age", none⟩], .integer⟩ (.equal (.int .integer 5)),
        .test ⟨[⟨"seen", none⟩], .dateTime⟩ (.notEqual leap)]).toJson.canonical ≠
      (Predicate.all [.test ⟨[⟨"age", none⟩], .integer⟩ (.equal (.int .long 5)),
        .test ⟨[⟨"seen", none⟩], .dateTime⟩ (.notEqual leap)]).toJson.canonical := by
  have hleap : ValueType.dateTime.coerce "2016-12-31 23:59:60.500" .standard =
      .ok (.dateTime ⟨⟨2016, 12, 31⟩, Time.ofClock 23 59 60 500000000⟩) := by
    decide +kernel
  refine ⟨_, hleap, ?_⟩
  have hpaths : ∀ (five : Value) (seen : Value), Predicate.ResolvedIn
      ⟨"Person", [("age", .basic .integer), ("seen", .basic .dateTime)]⟩
      (.all [.test ⟨[⟨"age", none⟩], .integer⟩ (.equal five),
        .test ⟨[⟨"seen", none⟩], .dateTime⟩ (.notEqual seen)]) := by
    intro five seen
    exact List.forall_mem_cons.mpr ⟨⟨"age", rfl⟩, List.forall_mem_singleton.mpr ⟨"seen", rfl⟩⟩
  have hdates : ∀ width : Width, Predicate.DatesCoerced
      (.all [.test ⟨[⟨"age", none⟩], .integer⟩ (.equal (.int width 5)),
        .test ⟨[⟨"seen", none⟩], .dateTime⟩
          (.notEqual (.dateTime ⟨⟨2016, 12, 31⟩, Time.ofClock 23 59 60 500000000⟩))]) := by
    intro width
    refine List.forall_mem_cons.mpr ⟨?_, List.forall_mem_singleton.mpr ?_⟩
    · exact List.forall_mem_singleton.mpr nofun
    · exact List.forall_mem_singleton.mpr fun _ => ⟨.dateTime, _, .standard, hleap⟩
  rw [Ne, predicate_json_faithful _ _ _ (hpaths _ _) (hpaths _ _) (hdates _) (hdates _)]
  nofun

end RecordFilter
