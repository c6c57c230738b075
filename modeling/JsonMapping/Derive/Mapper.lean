import JsonMapping.Derive.Reading
import JsonMapping.Derive.Writing

/-! Mappers from descriptors. A mapper depends on its own descriptor and attributes, and on what the
registry knows of the representers that these refer to. -/

namespace JsonMapping

namespace Derive.Draft

variable (b : Draft)

def writingMethods : Emission (List Method) := do
  if b.descriptor.skipSerialize then return []
  return [← b.toJson, b.toJsonCollection]

def readingMethods : Emission (List Method) := do
  if b.descriptor.skipDeserialize then return []
  return [← b.fromJson, b.fromJsonCollection]

/-- The methods for the directions that the descriptor does not skip. Those that write come first
and declare their helpers first. -/
def methods : Emission (List Method) := do
  return (← b.writingMethods) ++ (← b.readingMethods)

end Derive.Draft

namespace Registry

/-- The mapper of a descriptor whose id is registered. -/
def derive (reg : Registry) (g : GeneratorSettings) (d : Descriptor) :
    Except MappingError Mapper := do
  let _ ← reg.resolve d.representer
  let draft ← Derive.Draft.start reg g d
  draft.checkReferences
  let (methods, constants) ← draft.methods.run []
  return {
    type := draft.mapper
    representer := d.representer
    model := d.model
    constants
    methods }

def deriveId (reg : Registry) (g : GeneratorSettings) (id : RepresenterId) :
    Except MappingError Mapper := do
  reg.derive g (← reg.resolve id)

/-- The mappers of all descriptors that are not external, in order of registration. -/
def deriveAll (reg : Registry) (g : GeneratorSettings) : Except MappingError (List Mapper) :=
  reg.localDescriptors.mapM (reg.derive g)

end Registry

end JsonMapping
