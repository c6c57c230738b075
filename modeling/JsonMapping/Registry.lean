import JsonMapping.Descriptor.Basic

/-! The registry of all representers of a graph, with their attributes. The first registration of an
id counts; another one must agree on the model. References are resolved by id, so descriptors may
refer to each other in circles. -/

namespace JsonMapping

/-- Why a descriptor graph yields no mappers. -/
inductive MappingError where
  | naming (error : NamingError)
  | unknownRepresenter (id : RepresenterId)
  | unresolvedReference (source missing : RepresenterId)
  | conflictingRegistration (id : RepresenterId) (existing conflicting : JavaType)
  | duplicateDiscriminator (source : RepresenterId) (value : String)
deriving DecidableEq

def MappingError.message : MappingError → String
  | .naming e => e.message
  | .unknownRepresenter id => s!"unknown representer `{id}`"
  | .unresolvedReference source missing =>
    s!"unknown representer `{missing}` referenced from `{source}`"
  | .conflictingRegistration id existing conflicting =>
    s!"representer `{id}` registered with model `{existing}`, " ++
      s!"cannot re-register it with model `{conflicting}`"
  | .duplicateDiscriminator source value =>
    s!"representer `{source}` declares subclass discriminator `{value}` more than once"

structure Registration where
  descriptor : Descriptor
  external : Bool
deriving DecidableEq

def Registration.id (r : Registration) : RepresenterId := r.descriptor.representer

/-- Registrations in order of arrival, one for each id, and all attributes that were added. -/
structure Registry where
  registrations : List Registration := []
  additions : List (RepresenterId × AttributeMapping) := []
  distinct : (registrations.map Registration.id).Nodup := by simp

namespace Registry

def empty : Registry := {}

def registration? (reg : Registry) (id : RepresenterId) : Option Registration :=
  reg.registrations.find? (·.id = id)

def resolve? (reg : Registry) (id : RepresenterId) : Option Descriptor :=
  (reg.registration? id).map (·.descriptor)

def contains (reg : Registry) (id : RepresenterId) : Bool := (reg.registration? id).isSome

def isExternal (reg : Registry) (id : RepresenterId) : Bool :=
  (reg.registration? id).any (·.external)

def resolve (reg : Registry) (id : RepresenterId) : Except MappingError Descriptor :=
  match reg.resolve? id with
  | some d => .ok d
  | none => .error (.unknownRepresenter id)

/-- All descriptors in order of registration. -/
def descriptors (reg : Registry) : List Descriptor := reg.registrations.map (·.descriptor)

/-- The descriptors whose mappers are generated here. -/
def localDescriptors (reg : Registry) : List Descriptor :=
  (reg.registrations.filter (!·.external)).map (·.descriptor)

def size (reg : Registry) : Nat := reg.registrations.length

theorem registration?_eq_none_iff {reg : Registry} {id : RepresenterId} :
    reg.registration? id = none ↔ id ∉ reg.registrations.map Registration.id := by
  simp [registration?]

theorem nodup_append_registration {reg : Registry} {r : Registration}
    (h : reg.registration? r.id = none) :
    ((reg.registrations ++ [r]).map Registration.id).Nodup := by
  rw [List.map_append, List.nodup_append]
  refine ⟨reg.distinct, by simp, fun a ha b hb he => ?_⟩
  simp only [List.map_cons, List.map_nil, List.mem_singleton] at hb
  exact registration?_eq_none_iff.mp h (hb ▸ he ▸ ha)

/-- A new id goes to the end. An id that is there keeps its descriptor. Also what fails leaves a
registry. -/
def insert (d : Descriptor) (external : Bool) : EStateM MappingError Registry Unit := fun reg =>
  match h : reg.registration? d.representer with
  | some r =>
    if r.descriptor.model = d.model then .ok () reg
    else .error (.conflictingRegistration d.representer r.descriptor.model d.model) reg
  | none => .ok () {
      registrations := reg.registrations ++ [⟨d, external⟩]
      additions := reg.additions
      distinct := nodup_append_registration (r := ⟨d, external⟩) h }

/-- The registry that is left if the change does not fail. -/
def changed (reg : Registry) (change : EStateM MappingError Registry Unit) :
    Except MappingError Registry :=
  match change.run reg with
  | .ok _ left => .ok left
  | .error e _ => .error e

def register (reg : Registry) (d : Descriptor) (external : Bool) : Except MappingError Registry :=
  reg.changed (insert d external)

/-- An attribute goes behind those that its representer has. The representer may be registered
later, or never. -/
def addAttribute (reg : Registry) (id : RepresenterId) (m : AttributeMapping) : Registry :=
  { reg with additions := reg.additions ++ [(id, m)] }

def attributesOf (reg : Registry) (id : RepresenterId) : List AttributeMapping :=
  reg.additions.filterMap fun (owner, m) => if owner = id then some m else none

def addEntry (reg : Registry) (e : DescriptorEntry) : Except MappingError Registry := do
  let reg ← reg.register e.descriptor e.external
  return e.attributes.foldl (·.addAttribute e.descriptor.representer ·) reg

/-- The entries of a set one after the other. -/
def ofSet (set : DescriptorSet) : Except MappingError Registry := set.entries.foldlM addEntry empty

end Registry

end JsonMapping
