import JsonMapping.Descriptor.Basic
import JsonMapping.Json.Shape

/-! Descriptors as JSON documents. Values that are absent by choice are left out when written; flags
are always written and are off where they are absent. -/

namespace JsonMapping

open Json (Form)

/-- A field that is left out where there is no value. -/
def Json.optionalField (key : String) (value : Option JavaType) : List (String × Json) :=
  match value with
  | some t => [(key, .string t.text)]
  | none => []

/-! ## Attributes -/

namespace Attribute

def toJson (a : Attribute) : Json :=
  .object (("name", .string a.name.text) :: Json.optionalField "type" a.type)

def record : Record Attribute :=
  Attribute.mk <$> .required "name" Shape.identifier <*> .optional "type" Shape.javaType

def ofForm (surplus : Surplus) : Form → Except DocumentError Attribute :=
  record.ofForm "struct Attribute" surplus

end Attribute

/-! ## Attribute mappings

The field `kind` tells the conversion and is read before all others, which are kept back until
then. -/

namespace AttributeMapping

def kind (m : AttributeMapping) : String :=
  match m.conversion with
  | .plain _ _ => "property"
  | .single _ => "single-nested"
  | .collection _ _ => "collection"

def conversionFields : Conversion → List (String × Json)
  | .plain serializer deserializer =>
    Json.optionalField "serializer" serializer ++ Json.optionalField "deserializer" deserializer
  | .single r => [("nested_representer", .string r.type.text)]
  | .collection r element =>
    [("nested_representer", .string r.type.text), ("nested_model_type", .string element.text)]

def toJson (m : AttributeMapping) : Json :=
  .object <| [("kind", .string m.kind), ("model_attribute", m.model.toJson),
    ("wire_attribute", m.wire.toJson), ("embedded", .bool m.embedded)] ++
    conversionFields m.conversion

def withConversion (conversion : Record Conversion) : Record AttributeMapping :=
  AttributeMapping.mk <$> .required "model_attribute" (Attribute.ofForm .refusedLate)
    <*> .required "wire_attribute" (Attribute.ofForm .refusedLate)
    <*> .withDefault "embedded" Shape.bool false <*> conversion

/-- The fields of each kind, and what messages call the kind. -/
def kinds : List (String × String × Record AttributeMapping) := [
  ("property", "struct variant AttributeMapping::Property", withConversion <|
    Conversion.plain <$> .optional "serializer" Shape.javaType
      <*> .optional "deserializer" Shape.javaType),
  ("single-nested", "struct variant AttributeMapping::SingleNested", withConversion <|
    Conversion.single <$> .required "nested_representer" Shape.representerId),
  ("collection", "struct variant AttributeMapping::Collection", withConversion <|
    Conversion.collection <$> .required "nested_representer" Shape.representerId
      <*> .required "nested_model_type" Shape.javaType)]

def kindOf : Form → Except DocumentError (String × Record AttributeMapping)
  | .string name => match kinds.lookup name with
    | some found => .ok found
    | none => Shape.fail (.unknownVariant name (kinds.map Prod.fst))
  | f => Shape.mismatch f "variant identifier"

def ofForm : Form → Except DocumentError AttributeMapping
  | .object fields closed => do
    let (_, record) ← (Record.required "kind" kindOf).ofOwnFields fields closed
    record.ofFields fields closed
  | .array [] true => Shape.fail (.missingField "kind")
  | .array [] false => .error .malformed
  | .array (kind :: items) closed => do
    let (label, record) ← kindOf kind
    if closed && items.all fun f => f.value?.isSome then
      record.ofItems label .refusedLate items closed
    else throw .malformed
  | f => Shape.mismatch f "internally tagged enum AttributeMapping"

def ofText : String → Except DocumentError AttributeMapping := Shape.ofText ofForm

end AttributeMapping

/-! ## Descriptors -/

namespace Variant

def toJson (v : Variant) : Json :=
  .object [("id", .string v.id), ("representer", .string v.representer.type.text)]

def record : Record Variant :=
  Variant.mk <$> .required "id" Shape.text <*> .required "representer" Shape.representerId

def ofForm (surplus : Surplus) : Form → Except DocumentError Variant :=
  record.ofForm "struct SubclassVariant" surplus

end Variant

namespace Dispatch

def toJson (d : Dispatch) : Json :=
  .object <| [("discriminator", .string d.discriminator)] ++
    (match d.nestedAttribute with
      | some key => [("nested_attribute", .string key)]
      | none => []) ++
    [("variants", .array (d.variants.map Variant.toJson))]

def record (surplus : Surplus) : Record Dispatch :=
  Dispatch.mk <$> .required "discriminator" Shape.text <*> .optional "nested_attribute" Shape.text
    <*> .required "variants" (Shape.list (Variant.ofForm surplus))

def ofForm (surplus : Surplus) : Form → Except DocumentError Dispatch :=
  (record surplus).ofForm "struct SubclassDispatch" surplus

end Dispatch

namespace Descriptor

def toFields (d : Descriptor) : List (String × Json) :=
  [("representer", .string d.representer.type.text), ("model", .string d.model.text)] ++
    Json.optionalField "links_provider" d.linksProvider ++
    [("skip_serialize", .bool d.skipSerialize), ("skip_deserialize", .bool d.skipDeserialize)] ++
    Json.optionalField "custom_deserializer" d.customDeserializer ++
    match d.dispatch with
    | some dispatch => [("subclass_dispatch", dispatch.toJson)]
    | none => []

def toJson (d : Descriptor) : Json := .object d.toFields

def record (surplus : Surplus) : Record Descriptor :=
  Descriptor.mk <$> .required "representer" Shape.representerId
    <*> .required "model" Shape.javaType <*> .optional "links_provider" Shape.javaType
    <*> .withDefault "skip_serialize" Shape.bool false
    <*> .withDefault "skip_deserialize" Shape.bool false
    <*> .optional "custom_deserializer" Shape.javaType
    <*> .optional "subclass_dispatch" (Dispatch.ofForm surplus)

def ofForm : Form → Except DocumentError Descriptor :=
  (record .malformed).ofForm "struct RepresenterDescriptor" .malformed

def ofText : String → Except DocumentError Descriptor := Shape.ofText ofForm

end Descriptor

/-! ## Sets -/

namespace DescriptorEntry

/-- The fields of the descriptor and those of the entry, in one object. -/
def toJson (e : DescriptorEntry) : Json :=
  .object <| e.descriptor.toFields ++
    [("attributes", .array (e.attributes.map AttributeMapping.toJson)),
      ("external", .bool e.external)]

def ownRecord : Record (List AttributeMapping × Bool) :=
  Prod.mk <$> .withDefault "attributes" (Shape.list AttributeMapping.ofForm) []
    <*> .withDefault "external" Shape.bool false

/-- The entry's own fields are read first, those of its descriptor are kept back until the end. -/
def ofForm : Form → Except DocumentError DescriptorEntry
  | .object fields closed => do
    let (attributes, external) ← ownRecord.ofOwnFields fields closed
    let descriptor ← (Descriptor.record .refusedLate).ofFields fields closed
    return { descriptor, attributes, external }
  | f => Shape.mismatch f "struct RepresenterEntry"

end DescriptorEntry

namespace DescriptorSet

def toJson (set : DescriptorSet) : Json :=
  .object [("representers", .array (set.entries.map DescriptorEntry.toJson))]

def record : Record DescriptorSet :=
  DescriptorSet.mk <$> .withDefault "representers" (Shape.list DescriptorEntry.ofForm) []

def ofForm : Form → Except DocumentError DescriptorSet :=
  record.ofForm "struct DescriptorSet" .malformed

def ofText : String → Except DocumentError DescriptorSet := Shape.ofText ofForm

def toText (set : DescriptorSet) : String := set.toJson.pretty

end DescriptorSet

end JsonMapping
