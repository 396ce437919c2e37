/-
# `Proofs.Schema.RoundTrip` — entities survive JSON

An entity is written as an object, with an object for each attribute inside it, and so on.  The
outermost entity is read from the document part by part, all that is inside an attribute from
values; so there are two readers for one form, and each undoes the writing:

    Attribute.ofJson a.toJson = .ok a                               (`ofJson_toJson`)
    Entity.ofDocument e.toJson.document = .ok e                     (`ofDocument_toJson`)

The names of the attributes must not repeat at any level (`Entity.Distinct`), as those of a map
do not; the texts of the names may be any.  The second equation holds as long as objects are not
nested beyond the limit, and there reading fails: nothing is cut off.
-/
import RecordFilter.Path
import RecordFilter.Proofs.Json.Spelling
import RecordFilter.Proofs.Outcome
import RecordFilter.Schema.Json

namespace RecordFilter

open Json (nestingLimit)

/-! ## Names that do not repeat -/

mutual

/-- No name repeats among the attributes inside an attribute, at any depth. -/
def Attribute.Distinct : Attribute → Prop
  | .basic _ => True
  | .link _ _ attributes => Attribute.DistinctAll attributes

def Attribute.DistinctAll : List (String × Attribute) → Prop
  | [] => True
  | (name, a) :: rest => name ∉ rest.map (·.1) ∧ a.Distinct ∧ Attribute.DistinctAll rest

end

/-- No name repeats among the attributes of an entity, at any depth. -/
def Entity.Distinct (e : Entity) : Prop :=
  Attribute.DistinctAll e.attributes

/-- None of the attributes has the name of one of those in front. -/
def Attribute.Fresh (before attributes : List (String × Attribute)) : Prop :=
  ∀ field ∈ attributes, field.1 ∉ before.map (·.1)

section Names

variable {name : String} {a : Attribute} {before rest : List (String × Attribute)}

theorem Entity.putAttribute_of_notMem (h : name ∉ before.map (·.1)) :
    Entity.putAttribute name a before = before ++ [(name, a)] := by
  induction before with
  | nil => rfl
  | cons field before ih =>
      obtain ⟨other, old⟩ := field
      rw [List.map_cons, List.mem_cons, not_or] at h
      rw [Entity.putAttribute, if_neg (Ne.symm h.1), ih h.2, List.cons_append]

namespace Attribute

theorem fresh_nil (attributes : List (String × Attribute)) : Fresh [] attributes := by
  intro field _ hmem
  cases hmem

theorem Fresh.head (h : Fresh before ((name, a) :: rest)) : name ∉ before.map (·.1) :=
  h _ (.head _)

/-- One more attribute stands in front of the rest. -/
theorem Fresh.next (h : Fresh before ((name, a) :: rest)) (hname : name ∉ rest.map (·.1)) :
    Fresh (before ++ [(name, a)]) rest := by
  intro field hfield hmem
  rw [List.map_append, List.mem_append] at hmem
  rcases hmem with hmem | hmem
  · exact h field (.tail _ hfield) hmem
  · obtain rfl := List.mem_singleton.mp hmem
    exact hname (List.mem_map_of_mem hfield)

end Attribute

end Names

/-! ## Reading values -/

@[simp]
theorem Kind.ofName_tag (link : Link) : Kind.ofName link.tags.1 = .ok (some link) := by
  cases link with
  | embedded => rfl
  | relation cardinality => cases cardinality <;> rfl

theorem Link.tag_ne_kind (via : Link) : via.tags.2 ≠ "kind" := by
  cases via with
  | embedded => exact show "schema" ≠ "kind" by decide
  | relation _ => exact show "target" ≠ "kind" by decide

section Values

variable {name : String} {value : Json} {target : Entity} {fields : List (String × Json)}
  {attributes : List (String × Attribute)}

theorem Entity.ofJson_object (h : Entity.attributesOfFields [] fields = .ok attributes) :
    Entity.ofJson (Entity.object name fields) = .ok ⟨name, attributes⟩ := by
  have hvalue : Entity.attributesOfJson (.object fields) = .ok attributes := h
  simp only [Entity.object, Entity.ofJson, Entity.ofJsonFields, Json.asText, hvalue, if_true,
    String.reduceEq, if_false, Option.getD_some]

theorem Attribute.linkOfFields_tag (via : Link) (h : Entity.ofJson value = .ok target) :
    Attribute.linkOfFields via none [(via.tags.2, value)] = .ok (.to via target) := by
  simp only [Attribute.linkOfFields, h, if_true]

theorem Attribute.ofJson_link (via : Link) (h : Entity.ofJson value = .ok target) :
    Attribute.ofJson (.object [("kind", .string via.tags.1), (via.tags.2, value)]) =
      .ok (.to via target) := by
  have hne := via.tag_ne_kind
  have hkind : Kind.ofFields none [("kind", .string via.tags.1), (via.tags.2, value)] =
      .ok (some via) := by
    simp [Kind.ofFields, Kind.ofJson, hne]
  simp only [Attribute.ofJson, hkind]
  rw [Attribute.linkOfFields, if_neg hne.symm, Attribute.linkOfFields_tag via h]

end Values

mutual

/-- **An attribute is read back from its value.** -/
theorem Attribute.ofJson_toJson : ∀ {a : Attribute}, a.Distinct → Attribute.ofJson a.toJson = .ok a
  | .basic type, _ => by
      cases type <;> rfl
  | .link via entity attributes, h => by
      have hattributes : Entity.attributesOfFields [] (Entity.attributesToJson attributes) =
          .ok attributes := Attribute.attributesOfFields_toJson h (fresh_nil attributes)
      rw [Attribute.toJson, Attribute.ofJson_link via (Entity.ofJson_object hattributes)]
      rfl

theorem Attribute.attributesOfFields_toJson :
    ∀ {attributes before : List (String × Attribute)}, Attribute.DistinctAll attributes →
      Attribute.Fresh before attributes →
      Entity.attributesOfFields before (Entity.attributesToJson attributes) =
        .ok (before ++ attributes)
  | [], before, _, _ => by
      rw [List.append_nil]
      rfl
  | (name, a) :: rest, before, h, hfresh => by
      obtain ⟨hname, ha, hrest⟩ := h
      rw [Entity.attributesToJson, Entity.attributesOfFields, Attribute.ofJson_toJson ha]
      simp only [Entity.putAttribute_of_notMem hfresh.head]
      rw [Attribute.attributesOfFields_toJson hrest (hfresh.next hname), List.append_assoc]
      rfl

end

/-- **An entity is read back from its value.** -/
theorem Entity.ofJson_toJson {e : Entity} (h : e.Distinct) : Entity.ofJson e.toJson = .ok e :=
  Entity.ofJson_object (Attribute.attributesOfFields_toJson h (Attribute.fresh_nil _))

/-! ## Reading the document -/

mutual

theorem Attribute.textual_toJson : ∀ a : Attribute, a.toJson.Textual
  | .basic _ => ⟨trivial, trivial, trivial⟩
  | .link _ _ attributes =>
      ⟨trivial, ⟨trivial, Attribute.textualFields_toJson attributes, trivial⟩, trivial⟩

theorem Attribute.textualFields_toJson : ∀ attributes : List (String × Attribute),
    Json.TextualFields (Entity.attributesToJson attributes)
  | [] => trivial
  | (_, a) :: rest => ⟨Attribute.textual_toJson a, Attribute.textualFields_toJson rest⟩

end

theorem Entity.textual_toJson (e : Entity) : e.toJson.Textual :=
  ⟨trivial, Attribute.textualFields_toJson e.attributes, trivial⟩

/-- A link of the outermost entity: what lies in it is read as a value first. -/
theorem Attribute.ofDocument_link (via : Link) {object : Json} (h : object.Textual) :
    Attribute.ofDocument
        (Json.object [("kind", .string via.tags.1), (via.tags.2, object)]).document =
      if partDepth + object.depth ≤ nestingLimit then
        (Attribute.linkOfFields via none [(via.tags.2, object)]).mapError .data
      else .error (.fault .malformed) := by
  have hvalue := Json.value_document h (show partDepth ≤ nestingLimit by decide)
  simp only [Json.document, Json.documentFields, Attribute.ofDocument, Attribute.ofDocumentFields,
    Kind.ofDocument, Kind.ofName_tag, if_true, if_neg via.tag_ne_kind, hvalue]
  by_cases hfits : partDepth + object.depth ≤ nestingLimit
  · rw [if_pos hfits, if_pos hfits]
    rfl
  · rw [if_neg hfits, if_neg hfits]
    rfl

/-- **An attribute of the outermost entity is read back**, if it does not lie too deep. -/
theorem Attribute.ofDocument_toJson {a : Attribute} (h : a.Distinct) :
    Attribute.ofDocument a.toJson.document =
      if 2 + a.toJson.depth ≤ nestingLimit then .ok a else .error (.fault .malformed) := by
  cases a with
  | basic type =>
      cases type <;> rfl
  | link via entity attributes =>
      have hentity : Entity.Distinct ⟨entity, attributes⟩ := h
      have hlink : Attribute.linkOfFields via none
          [(via.tags.2, Entity.toJson ⟨entity, attributes⟩)] = .ok (.link via entity attributes) :=
        Attribute.linkOfFields_tag via (Entity.ofJson_toJson hentity)
      -- two objects are around the attribute, which is the third around its entity
      have hdepth : 2 + (toJson (.link via entity attributes)).depth =
          partDepth + (Entity.toJson ⟨entity, attributes⟩).depth := by
        simp only [toJson, Json.depth, Json.depthFields, Entity.toJson, partDepth]
        omega
      rw [hdepth]
      refine (Attribute.ofDocument_link via (Entity.textual_toJson ⟨entity, attributes⟩)).trans ?_
      rw [hlink]
      rfl

/-- **The attributes of the outermost entity are read back**, if none lies too deep. -/
theorem Attribute.attributesOfDocumentFields_toJson {attributes : List (String × Attribute)} :
    ∀ {before : List (String × Attribute)}, Attribute.DistinctAll attributes →
      Attribute.Fresh before attributes →
      Entity.attributesOfDocumentFields none before
          (Json.documentFields (Entity.attributesToJson attributes)) =
        if 2 + Json.depthFields (Entity.attributesToJson attributes) ≤ nestingLimit then
          .ok (before ++ attributes)
        else .error (.fault .malformed) := by
  induction attributes with
  | nil =>
      intro before _ _
      rw [List.append_nil]
      rfl
  | cons field rest ih =>
      intro before h hfresh
      obtain ⟨name, a⟩ := field
      obtain ⟨hname, ha, hrest⟩ := h
      rw [Entity.attributesToJson, Json.documentFields, Entity.attributesOfDocumentFields,
        Attribute.ofDocument_toJson ha, Json.depthFields]
      by_cases hfits : 2 + a.toJson.depth ≤ nestingLimit
      · rw [if_pos hfits]
        simp only [ok_bind, Entity.putAttribute_of_notMem hfresh.head]
        rw [ih hrest (hfresh.next hname), List.append_assoc]
        by_cases hothers : 2 + Json.depthFields (Entity.attributesToJson rest) ≤ nestingLimit
        · rw [if_pos hothers, if_pos (by omega)]
          rfl
        · rw [if_neg hothers, if_neg (by omega)]
      · rw [if_neg hfits, if_neg (by omega)]
        rfl

/-- **An entity is read back from its document**, if nothing in it lies too deep. -/
theorem Entity.ofDocument_toJson {e : Entity} (h : e.Distinct) :
    Entity.ofDocument e.toJson.document =
      if e.toJson.depth ≤ nestingLimit then .ok e else .error (.fault .malformed) := by
  have hattributes := Attribute.attributesOfDocumentFields_toJson h (Attribute.fresh_nil _)
  have hdepth : e.toJson.depth = 2 + Json.depthFields (Entity.attributesToJson e.attributes) := by
    simp only [Entity.toJson, Entity.object, Json.depth, Json.depthFields]
    omega
  rw [hdepth]
  simp only [Entity.toJson, Entity.object, Json.document, Json.documentFields, Entity.ofDocument,
    Entity.ofDocumentFields, Json.Document.text, Entity.attributesOfDocument, hattributes,
    if_true, if_false, String.reduceEq, ok_bind]
  by_cases hfits : 2 + Json.depthFields (Entity.attributesToJson e.attributes) ≤ nestingLimit
  · rw [if_pos hfits, if_pos hfits]
    rfl
  · rw [if_neg hfits, if_neg hfits, error_bind]

/-! ## The theorem -/

/-- **Entities survive JSON.**  Let the names of the attributes not repeat at any level; they
may be any texts.  The entity is written as a text of its JSON value, on one line as over several.
From every text of that value, whatever blanks stand in it, the entity itself is read, if no more
objects lie inside each other than the limit admits, so each property is resolved as before; and
nothing at all is read if there are more. -/
theorem entity_survives_json (e : Entity) (h : e.Distinct) :
    e.toJson.HasText e.toJson.render ∧ e.toJson.HasText (e.toJson.pretty "") ∧
      ∀ text, e.toJson.HasText text →
        (e.toJson.depth ≤ nestingLimit → ∃ found, Entity.ofText text = .ok found ∧ found = e ∧
          ∀ property, found.resolve property = e.resolve property) ∧
        (nestingLimit < e.toJson.depth → Entity.ofText text = .error (.fault .malformed)) := by
  have hmargin : Json.Blanks "".toList := Json.blanks_nil
  refine ⟨(Json.spells_render e.textual_toJson).hasText,
    (Json.spells_pretty e.textual_toJson hmargin).hasText, fun text htext => ?_⟩
  have hread : Entity.ofText text =
      if e.toJson.depth ≤ nestingLimit then .ok e else .error (.fault .malformed) :=
    (htext.readText Entity.ofDocument).trans (Entity.ofDocument_toJson h)
  constructor
  · intro hfits
    exact ⟨e, hread.trans (if_pos hfits), rfl, fun _ => rfl⟩
  · intro hdeep
    exact hread.trans (if_neg (Nat.not_le.mpr hdeep))

/-- Names of quotes, line breaks and nothing survive, and under a relation as well. -/
theorem entity_survives_json_names :
    ∃ found, Entity.ofText ((Entity.mk "\"Staff\"" [("", .basic .byte),
        ("boss", .link (.relation .toOne) "\n" [("a\\b", .basic .dateTime)])]).toJson.pretty "") =
          .ok found ∧
      found.resolve "boss.a\\b" =
        .ok ⟨[⟨"boss", some (.relation .toOne)⟩, ⟨"a\\b", none⟩], .dateTime⟩ := by
  have hdistinct : Entity.Distinct (Entity.mk "\"Staff\"" [("", .basic .byte),
      ("boss", .link (.relation .toOne) "\n" [("a\\b", .basic .dateTime)])]) :=
    ⟨by decide, trivial, by decide, ⟨by decide, trivial, trivial⟩, trivial⟩
  obtain ⟨_, hpretty, hread⟩ := entity_survives_json _ hdistinct
  obtain ⟨found, hfound, _, hresolve⟩ := (hread _ hpretty).1 (by decide)
  exact ⟨found, hfound, (hresolve _).trans rfl⟩

end RecordFilter
