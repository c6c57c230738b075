import JsonMapping.Derive.Constants
import JsonMapping.Derive.Draft

/-! The plan of a mapper: what is left of its descriptor once every reference is resolved. It is a
function of the descriptor that cannot fail, and gives what a derived mapper is made of where
nothing does. -/

namespace JsonMapping

namespace GeneratorSettings

/-- The type of a representer's mapper; that of the representer where the settings name none. -/
def mapperOf (g : GeneratorSettings) (id : RepresenterId) : JavaType :=
  (g.mapperType id).toOption.getD id.type

theorem mapperOf_eq {g : GeneratorSettings} {id : RepresenterId} {t : JavaType}
    (h : g.mapperType id = .ok t) : g.mapperOf id = t := by
  simp [mapperOf, h, Except.toOption]

end GeneratorSettings

/-- The model of a registered representer. -/
def Registry.modelOf (reg : Registry) (id : RepresenterId) : JavaType :=
  ((reg.resolve? id).map (·.model)).getD id.type

theorem Registry.modelOf_eq {reg : Registry} {id : RepresenterId} {d : Descriptor}
    (h : reg.resolve? id = some d) : reg.modelOf id = d.model := by
  simp [modelOf, h]

namespace Descriptor

def variants (d : Descriptor) : List Variant := (d.dispatch.map (·.variants)).getD []

theorem variants_eq {d : Descriptor} {x : Dispatch} (h : d.dispatch = some x) :
    d.variants = x.variants := by
  simp [variants, h]

end Descriptor

/-- Everything that a descriptor refers to: by its attributes, then by its variants. -/
def Registry.references (reg : Registry) (d : Descriptor) : List RepresenterId :=
  (reg.attributesOf d.representer).filterMap (·.nested?) ++ d.variants.map (·.representer)

namespace Derive

/-! ## Plans -/

/-- How a value is converted, with the mappers that convert it. -/
inductive Transfer where
  | plain (serializer deserializer : Option JavaType)
  | single (mapper : JavaType)
  | collection (mapper : JavaType)
deriving DecidableEq

structure PlannedAttribute where
  model : Attribute
  wire : Attribute
  embedded : Bool
  transfer : Transfer
deriving DecidableEq

def PlannedAttribute.wireKey (a : PlannedAttribute) : String := a.wire.wireKey

structure Plan where
  descriptor : Descriptor
  mapper : JavaType
  /-- The links provider, unless it is the one that is as good as none. -/
  links : Option JavaType
  attributes : List PlannedAttribute
  dispatch : Option PlannedDispatch
deriving DecidableEq

namespace Plan

def hasEmbedded (p : Plan) : Bool := p.attributes.any (·.embedded)

def plainAttributes (p : Plan) : List PlannedAttribute := p.attributes.filter (!·.embedded)

def embeddedAttributes (p : Plan) : List PlannedAttribute := p.attributes.filter (·.embedded)

end Plan

/-! ## The plan of a descriptor -/

def transferOf (g : GeneratorSettings) : Conversion → Transfer
  | .plain serializer deserializer => .plain serializer deserializer
  | .single id => .single (g.mapperOf id)
  | .collection id _ => .collection (g.mapperOf id)

def plannedAttribute (g : GeneratorSettings) (m : AttributeMapping) : PlannedAttribute :=
  { m with transfer := transferOf g m.conversion }

def plannedVariant (reg : Registry) (g : GeneratorSettings) (v : Variant) : PlannedVariant where
  id := v.id
  mapper := g.mapperOf v.representer
  model := reg.modelOf v.representer

def plannedDispatch (reg : Registry) (g : GeneratorSettings) (x : Dispatch) : PlannedDispatch :=
  { x with variants := x.variants.map (plannedVariant reg g) }

def planned (reg : Registry) (g : GeneratorSettings) (d : Descriptor) : Plan where
  descriptor := d
  mapper := g.mapperOf d.representer
  links := d.linksProvider.filter fun t => some t.qualifiedName ≠ g.emptyLinksProvider
  attributes := (reg.attributesOf d.representer).map (plannedAttribute g)
  dispatch := d.dispatch.map (plannedDispatch reg g)

/-- A representer that is registered and has a mapper. -/
def Resolves (reg : Registry) (g : GeneratorSettings) (id : RepresenterId) : Prop :=
  (∃ d, reg.resolve? id = some d) ∧ g.mapperType id = .ok (g.mapperOf id)

/-! ## Helpers in a plan -/

def Transfer.serializer? : Transfer → Option HelperUse
  | .plain (some t) _ => some (t, .serializer)
  | _ => none

def Transfer.deserializer? : Transfer → Option HelperUse
  | .plain _ (some t) => some (t, .deserializer)
  | _ => none

namespace Plan

/-- Helpers that writing uses: for the links, then for the plain, then for the embedded fields. -/
def writingUses (p : Plan) : List HelperUse :=
  (p.links.map (·, ConstantRole.linksProvider)).toList ++
    (p.plainAttributes ++ p.embeddedAttributes).filterMap (·.transfer.serializer?)

/-- Helpers that reading uses: a custom deserializer alone, or those of the attributes. -/
def readingUses (p : Plan) : List HelperUse :=
  match p.descriptor.customDeserializer with
  | some t => [(t, .customDeserializer)]
  | none => p.attributes.filterMap (·.transfer.deserializer?)

def helperUses (p : Plan) : List HelperUse :=
  (if p.descriptor.skipSerialize then [] else p.writingUses) ++
    (if p.descriptor.skipDeserialize then [] else p.readingUses)

def constants (p : Plan) : List Constant := constantsFor p.helperUses

end Plan

end Derive

end JsonMapping
