import JsonMapping.Naming.JavaType.Reading

/-! Descriptors: how the attributes of a model correspond to the fields of a JSON container. A
front end hands them over as a set; nothing here changes afterwards. -/

namespace JsonMapping

/-- A field of the model or of the container, with its type if one is declared. -/
structure Attribute where
  name : Identifier
  type : Option JavaType
deriving DecidableEq

namespace Attribute

/-- An attribute from texts; the type is looked at first. -/
def parse (name : String) (type : Option String) : Except NamingError Attribute := do
  let type ← type.mapM JavaType.parse
  return { name := ← Identifier.parse name, type }

def wireKey (a : Attribute) : String := a.name.wireKey

end Attribute

/-- How the value of an attribute is converted. -/
inductive Conversion where
  /-- As it is, or through a serializer and a deserializer of its own. -/
  | plain (serializer deserializer : Option JavaType)
  /-- Through the mapper of another representer. -/
  | single (representer : RepresenterId)
  /-- Through the mapper of another representer, element by element. -/
  | collection (representer : RepresenterId) (element : JavaType)
deriving DecidableEq

/-- One attribute of the model and the field that carries it. An embedded field sits in the
container under `embeddedKey`. -/
structure AttributeMapping where
  model : Attribute
  wire : Attribute
  embedded : Bool
  conversion : Conversion
deriving DecidableEq

/-- Key of the container for embedded fields. -/
def embeddedKey : String := "_embedded"

namespace AttributeMapping

def wireKey (m : AttributeMapping) : String := m.wire.wireKey

def embed (m : AttributeMapping) (flag : Bool) : AttributeMapping := { m with embedded := flag }

/-- The representer whose mapper converts the value. -/
def nested? (m : AttributeMapping) : Option RepresenterId :=
  match m.conversion with
  | .plain _ _ => none
  | .single r | .collection r _ => some r

end AttributeMapping

/-- One concrete model of a polymorphic one, chosen by the value of the discriminator. -/
structure Variant where
  id : String
  representer : RepresenterId
deriving DecidableEq

/-- The variants of a polymorphic model. Reading picks the variant that the field `discriminator`
names; writing adds the fields of the variant that the model is an instance of, in the container
`nestedAttribute` if there is one. -/
structure Dispatch where
  discriminator : String
  nestedAttribute : Option String
  variants : List Variant
deriving DecidableEq

/-- What is known of a representer besides its attributes. A custom deserializer takes the place of
all reading attribute by attribute. -/
structure Descriptor where
  representer : RepresenterId
  model : JavaType
  linksProvider : Option JavaType := none
  skipSerialize : Bool := false
  skipDeserialize : Bool := false
  customDeserializer : Option JavaType := none
  dispatch : Option Dispatch := none
deriving DecidableEq

/-- A descriptor with its attributes in declaration order. The mapper of an external one is
generated elsewhere. -/
structure DescriptorEntry where
  descriptor : Descriptor
  attributes : List AttributeMapping
  external : Bool
deriving DecidableEq

structure DescriptorSet where
  entries : List DescriptorEntry
deriving DecidableEq

end JsonMapping
