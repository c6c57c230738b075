import JsonMapping.Json.Writer

/-! The schema of descriptor sets: what the documents look like, in the vocabulary of JSON
Schema. -/

namespace JsonMapping.Schema

def reference (name : String) : Json := .object [("$ref", .string s!"#/$defs/{name}")]

def description (text : String) : List (String × Json) := [("description", .string text)]

def ofType (name : String) : Json := .object [("type", .string name)]

/-- A value of another definition, or null. -/
def orNull (name : String) : List (String × Json) :=
  [("anyOf", .array [reference name, ofType "null"])]

def listOf (name : String) : List (String × Json) :=
  [("type", .string "array"), ("items", reference name)]

/-- A flag that is off where it is absent. -/
def flag : List (String × Json) := [("type", .string "boolean"), ("default", .bool false)]

/-- An object with its properties and the names of those that must be there. -/
def object (properties : List (String × Json)) (required : List String) : List (String × Json) :=
  [("type", .string "object"), ("properties", .object properties),
    ("required", .array (required.map .string))]

def typeName : Json :=
  .object <|
    description
      "Fully qualified type name, e.g. `com.foo.User` or `java.util.List<com.foo.User>`" ++
    [("type", .string "string")]

def entry : Json :=
  .object <| description "Per-model metadata of one representer." ++ object [
    ("representer", reference "RepresenterId"),
    ("model", reference "TypeRef"),
    ("links_provider", .object (orNull "TypeRef")),
    ("skip_serialize", .object flag),
    ("skip_deserialize", .object flag),
    ("custom_deserializer", .object <|
      description "Replaces the whole per-attribute deserialize path" ++ orNull "TypeRef"),
    ("subclass_dispatch", .object (orNull "SubclassDispatch")),
    ("attributes", .object <| description "Attribute mappings in declaration order" ++
      listOf "AttributeMapping" ++ [("default", .array [])]),
    ("external", .object <|
      description "Generated elsewhere; only resolvable, never compiled" ++ flag)]
    ["representer", "model"]

private def dispatchText : String :=
  "Discriminator table of a polymorphic base representer.\n\n " ++
  "On read, the value under `discriminator` selects the variant whose\n " ++
  "generated unit constructs the concrete model. On write, the variant\n " ++
  "matching the value's runtime type contributes its fields after the base."

private def nestedText : String :=
  "Wire key of the container holding the subclass fields; merged into\n " ++
  "the base container when absent"

def dispatch : Json :=
  .object <| description dispatchText ++ object [
    ("discriminator", .object <|
      description "Wire key holding the discriminator value, e.g. `type`" ++
      [("type", .string "string")]),
    ("nested_attribute", .object <| description nestedText ++
      [("type", .array [.string "string", .string "null"])]),
    ("variants", .object (listOf "SubclassVariant"))]
    ["discriminator", "variants"]

def variant : Json :=
  .object <| object [
    ("id", .object (description "Discriminator value" ++ [("type", .string "string")])),
    ("representer", reference "RepresenterId")]
    ["id", "representer"]

private def mappingText : String :=
  "One model <-> wire field correspondence.\n\n " ++
  "The variant decides how the value is converted: as is (optionally through\n " ++
  "a custom serializer/deserializer pair), through another representer's\n " ++
  "generated unit for a single object, or through it for a list."

/-- A kind of attribute mapping, with the properties that only it has. -/
def mappingKind (kind : String) (own : List (String × Json)) (required : List String) : Json :=
  .object <| object
    ([("model_attribute", reference "Attribute"), ("wire_attribute", reference "Attribute"),
      ("embedded", .object flag)] ++ own ++
      [("kind", .object [("type", .string "string"), ("const", .string kind)])])
    (["kind", "model_attribute", "wire_attribute"] ++ required)

def mapping : Json :=
  .object <| description mappingText ++ [("oneOf", .array [
    mappingKind "property"
      [("serializer", .object (orNull "TypeRef")), ("deserializer", .object (orNull "TypeRef"))] [],
    mappingKind "single-nested" [("nested_representer", reference "RepresenterId")]
      ["nested_representer"],
    mappingKind "collection"
      [("nested_representer", reference "RepresenterId"),
        ("nested_model_type", reference "TypeRef")]
      ["nested_representer", "nested_model_type"]])]

def namedField : Json :=
  .object <| description "A named, optionally typed field on either side of a mapping." ++
    object [("type", .object (orNull "TypeRef")), ("name", reference "Identifier")] ["name"]

def identifier : Json :=
  .object [("type", .string "string"), ("pattern", .string "^[A-Za-z_$][A-Za-z0-9_$]*$")]

def descriptorSet : Json :=
  .object [
    ("$schema", .string ("https:" ++ "//json-schema.org/draft/2020-12/schema")),
    ("title", .string "DescriptorSet"),
    ("description", .string
      "Serialized form of a whole descriptor graph, as produced by a front end."),
    ("type", .string "object"),
    ("properties", .object
      [("representers", .object (listOf "RepresenterEntry" ++ [("default", .array [])]))]),
    ("$defs", .object [
      ("RepresenterEntry", entry), ("RepresenterId", typeName), ("TypeRef", typeName),
      ("SubclassDispatch", dispatch), ("SubclassVariant", variant), ("AttributeMapping", mapping),
      ("Attribute", namedField), ("Identifier", identifier)])]

/-- The schema as an indented document. -/
def text : String := descriptorSet.pretty

end JsonMapping.Schema
