import JsonMapping.Registry
import JsonMapping.Settings

/-! The draft of a mapper: its descriptor and what is known of it before a method is written.
References are checked once for all; where a method needs one, it is looked up again. -/

namespace JsonMapping

namespace GeneratorSettings

/-- A name without the suffix, unless nothing else is left of it. -/
def stem (suffix name : List Char) : List Char :=
  if suffix.isSuffixOf name ∧ suffix.length < name.length then
    name.take (name.length - suffix.length)
  else name

/-- The package of the mapper for a representer of the given package. -/
def mapperPackage (g : GeneratorSettings) (package : String) : String :=
  if g.packagePrefix.isEmpty then package
  else if package.isEmpty then g.packagePrefix
  else s!"{g.packagePrefix}.{package}"

/-- `com.foo.UserRepresenter` has the mapper `gen.com.foo.UserMapper`. Enclosing classes and generic
arguments of the representer do not count. -/
def mapperType (g : GeneratorSettings) (id : RepresenterId) : Except NamingError JavaType :=
  let name := stem g.representerSuffix.toList id.type.simpleName.toList
  JavaType.ofNames (g.mapperPackage id.type.packageName) (String.ofList name ++ g.mapperSuffix)

end GeneratorSettings

namespace Derive

def mapperType (g : GeneratorSettings) (id : RepresenterId) : Except MappingError JavaType :=
  (g.mapperType id).mapError .naming

/-- A variant with the mapper and the model of its representer. -/
structure PlannedVariant where
  id : String
  mapper : JavaType
  model : JavaType
deriving DecidableEq

structure PlannedDispatch where
  discriminator : String
  nestedAttribute : Option String
  variants : List PlannedVariant
deriving DecidableEq

structure Draft where
  registry : Registry
  settings : GeneratorSettings
  descriptor : Descriptor
  attributes : List AttributeMapping
  mapper : JavaType

namespace Draft

/-- The draft for a descriptor, which counts as it is given. The settings must name its mapper. -/
def start (reg : Registry) (g : GeneratorSettings) (d : Descriptor) :
    Except MappingError Draft := do
  return {
    registry := reg
    settings := g
    descriptor := d
    attributes := reg.attributesOf d.representer
    mapper := ← Derive.mapperType g d.representer }

variable (b : Draft)

/-- The links provider, unless it is the one that is as good as none. -/
def links : Option JavaType :=
  b.descriptor.linksProvider.filter fun t => some t.qualifiedName ≠ b.settings.emptyLinksProvider

def hasEmbedded : Bool := b.attributes.any (·.embedded)

/-- The descriptor of a representer that the draft refers to. -/
def resolve (id : RepresenterId) : Except MappingError Descriptor :=
  match b.registry.resolve? id with
  | some d => .ok d
  | none => .error (.unresolvedReference b.descriptor.representer id)

/-- The mapper of a representer that the draft refers to. -/
def nestedMapper (id : RepresenterId) : Except MappingError JavaType := do
  let _ ← b.resolve id
  Derive.mapperType b.settings id

/-- The variants in order, after those with the discriminators `seen`. -/
def resolveVariants (seen : List String) : List Variant → Except MappingError (List PlannedVariant)
  | [] => .ok []
  | v :: rest => do
    if v.id ∈ seen then throw (.duplicateDiscriminator b.descriptor.representer v.id)
    let d ← b.resolve v.representer
    let mapper ← b.nestedMapper v.representer
    return { id := v.id, mapper, model := d.model } :: (← resolveVariants (v.id :: seen) rest)

def resolveDispatch (x : Dispatch) : Except MappingError PlannedDispatch := do
  return { x with variants := ← b.resolveVariants [] x.variants }

def checkAttribute (m : AttributeMapping) : Except MappingError Unit :=
  m.nested?.forM fun id => discard (b.resolve id)

/-- Looks up everything that the descriptor refers to, also what no method will need. -/
def checkReferences : Except MappingError Unit := do
  b.attributes.forM b.checkAttribute
  b.descriptor.dispatch.forM fun x => discard (b.resolveDispatch x)

end Draft

end Derive

end JsonMapping
