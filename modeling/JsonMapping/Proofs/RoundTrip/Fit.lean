import JsonMapping.Proofs.Graph.Loading
import JsonMapping.Proofs.Graph.Reading

/-! What takes part in a round trip. Descriptors are tidy if nothing but their attributes takes part
in writing and reading, and no two attributes get in each other's way. Values fit a descriptor if
every mapped field holds what its mapping can bring back. What comes back agrees with the value on
all mapped fields, and has the defaults of its model in the others. -/

namespace JsonMapping

/-- The fields that a new instance of a model has. -/
def World.defaultFields (w : World) (t : JavaType) : Entries Value :=
  (w.defaults.get? t.qualifiedName).getD []

namespace Graph

variable (G : Graph) (w : World)

/-! ## Descriptors -/

/-- The names of the model's attributes that a descriptor maps. -/
def modelNames (d : Descriptor) : List String := (G.attributes d).map fun m => m.model.name.text

/-- The keys that the attributes of a descriptor take at the top of a container. -/
def topKeys (d : Descriptor) : List String :=
  (G.plainAttributes d).map (·.wireKey) ++ if G.hasEmbedded d then [embeddedKey] else []

structure Tidy (d : Descriptor) : Prop where
  writes : d.skipSerialize = false
  reads : d.skipDeserialize = false
  unlinked : G.links d = none
  standard : d.customDeserializer = none
  names : (G.modelNames d).Nodup
  keys : (G.topKeys d).Nodup
  embeddedKeys : ((G.embeddedAttributes d).map (·.wireKey)).Nodup

/-- The variants of a dispatch can be told from each other, and what they add to a container can be
told from what is there. -/
structure Separates (d : Descriptor) (x : Dispatch) : Prop where
  models : (x.variants.map fun a => (G.registry.modelOf a.representer).qualifiedName).Nodup
  flat : ∀ a ∈ x.variants, ∀ e, G.registry.resolve? a.representer = some e → e.dispatch = none
  merged : x.nestedAttribute = none → ∀ a ∈ x.variants, ∀ e,
    G.registry.resolve? a.representer = some e →
      (G.topKeys d).Disjoint (G.topKeys e) ∧ x.discriminator ∉ G.topKeys d ∧
        x.discriminator ∉ G.topKeys e
  nested : ∀ key, x.nestedAttribute = some key →
    x.discriminator ≠ key ∧ x.discriminator ∉ G.topKeys d ∧ key ∉ G.topKeys d

/-- The model has no name that stands for values other than models. -/
def Castable (t : JavaType) : Prop := t.declaredKind = .model ∨ t.declaredKind = .any

/-- What the mapper of a descriptor may have to convert: values of the descriptor itself, of what
its attributes refer to, and of its variants. -/
inductive Reaches (d : Descriptor) : Descriptor → Prop
  | self : Reaches d d
  | nested {e e' : Descriptor} {m : AttributeMapping} {r : RepresenterId} :
    Reaches d e → m ∈ G.attributes e → m.nested? = some r → G.registry.resolve? r = some e' →
      Reaches d e'
  | variant {e e' : Descriptor} {a : Variant} :
    Reaches d e → a ∈ e.variants → G.registry.resolve? a.representer = some e' → Reaches d e'

/-- Tidy members that refer to nothing but each other, with dispatches that separate. -/
structure Closed (S : Descriptor → Prop) : Prop where
  member : ∀ d, S d → d ∈ G.members
  tidy : ∀ d, S d → G.Tidy d
  separates : ∀ d, S d → ∀ x, d.dispatch = some x → G.Separates d x
  nested : ∀ d, S d → ∀ m ∈ G.attributes d, ∀ r, m.nested? = some r →
    ∀ e, G.registry.resolve? r = some e → S e
  variants : ∀ d, S d → ∀ a ∈ d.variants, ∀ e, G.registry.resolve? a.representer = some e → S e

/-! ## Values -/

mutual
/-- A model of the descriptor, or of one of its variants, whose mapped fields all fit. -/
inductive Fits : Descriptor → Value → Prop
  | model {d : Descriptor} {fields : Entries Value} :
    d.dispatch = none →
      (∀ m ∈ G.attributes d, FieldFits m (.ofEntry fields m.model.name.text)) →
        Fits d (.model d.model.qualifiedName fields)
  | variant {d e : Descriptor} {a : Variant} {fields : Entries Value} :
    a ∈ d.variants → G.registry.resolve? a.representer = some e → Castable e.model →
      (∀ m ∈ G.attributes d, FieldFits m (.ofEntry fields m.model.name.text)) →
        (∀ m ∈ G.attributes e, FieldFits m (.ofEntry fields m.model.name.text)) →
          Fits d (.model e.model.qualifiedName fields)
/-- A plain value that decoding gets back from encoding it, which without helpers is one that may
have the attribute's type; a value that fits the nested descriptor; or a list of such values. -/
inductive FieldFits : AttributeMapping → Value → Prop
  | plain {m : AttributeMapping} {serializer deserializer : Option JavaType} {x y : Value} :
    m.conversion = .plain serializer deserializer → w.encode serializer x = .ok y →
      w.decode deserializer m y = .ok x → FieldFits m x
  | single {m : AttributeMapping} {r : RepresenterId} {e : Descriptor} {x : Value} :
    m.conversion = .single r → G.registry.resolve? r = some e → Fits e x → FieldFits m x
  | collection {m : AttributeMapping} {r : RepresenterId} {element : JavaType} {e : Descriptor}
      {xs : List Value} :
    m.conversion = .collection r element → G.registry.resolve? r = some e →
      (∀ x ∈ xs, Fits e x) → FieldFits m (.list xs)
end

/-- All fields that a descriptor maps fit. -/
def Fills (d : Descriptor) (fields : Entries Value) : Prop :=
  ∀ m ∈ G.attributes d, G.FieldFits w m (.ofEntry fields m.model.name.text)

section Helpers

variable {G w} {m : AttributeMapping} {x : Value}

theorem fieldFits_iff {serializer deserializer : Option JavaType}
    (hm : m.conversion = .plain serializer deserializer) :
    G.FieldFits w m x ↔
      ∃ y, w.encode serializer x = .ok y ∧ w.decode deserializer m y = .ok x := by
  constructor
  · intro h
    cases h with
    | @plain _ _ _ _ y hconv hencode hdecode =>
      rw [hm] at hconv
      cases hconv
      exact ⟨y, hencode, hdecode⟩
    | single hconv =>
      rw [hm] at hconv
      cases hconv
    | collection hconv =>
      rw [hm] at hconv
      cases hconv
  · rintro ⟨y, hencode, hdecode⟩
    exact .plain hm hencode hdecode

/-- Without helpers, a plain value fits if it may have the type of the attribute. -/
theorem fieldFits_iff_of_plain (hm : m.conversion = .plain none none) :
    G.FieldFits w m x ↔ x.castTo m.model.type = .ok x := by
  rw [fieldFits_iff hm]
  constructor
  · rintro ⟨y, hencode, hdecode⟩
    cases hencode
    exact hdecode
  · intro h
    exact ⟨x, rfl, h⟩

end Helpers

/-! ## What comes back -/

mutual
/-- A model of the same type that agrees on all mapped fields. Where a variant and its base map the
same attribute, the base has the last word. -/
inductive ComesBack : Descriptor → Value → Value → Prop
  | model {d : Descriptor} {fields fields' : Entries Value} :
    d.dispatch = none →
      (∀ m ∈ G.attributes d, FieldComesBack m (.ofEntry fields m.model.name.text)
        (.ofEntry fields' m.model.name.text)) →
        (∀ key ∉ G.modelNames d, fields'.get? key = (w.defaultFields d.model).get? key) →
          ComesBack d (.model d.model.qualifiedName fields)
            (.model d.model.qualifiedName fields')
  | variant {d e : Descriptor} {a : Variant} {fields fields' : Entries Value} :
    a ∈ d.variants → G.registry.resolve? a.representer = some e →
      (∀ m ∈ G.attributes d, FieldComesBack m (.ofEntry fields m.model.name.text)
        (.ofEntry fields' m.model.name.text)) →
        (∀ m ∈ G.attributes e, m.model.name.text ∉ G.modelNames d →
          FieldComesBack m (.ofEntry fields m.model.name.text)
            (.ofEntry fields' m.model.name.text)) →
          (∀ key, key ∉ G.modelNames d → key ∉ G.modelNames e →
            fields'.get? key = (w.defaultFields e.model).get? key) →
              ComesBack d (.model e.model.qualifiedName fields)
                (.model e.model.qualifiedName fields')
/-- A plain value is the same; others are what the nested descriptor brings back. -/
inductive FieldComesBack : AttributeMapping → Value → Value → Prop
  | plain {m : AttributeMapping} {serializer deserializer : Option JavaType} {x : Value} :
    m.conversion = .plain serializer deserializer → FieldComesBack m x x
  | single {m : AttributeMapping} {r : RepresenterId} {e : Descriptor} {x y : Value} :
    m.conversion = .single r → G.registry.resolve? r = some e → ComesBack e x y →
      FieldComesBack m x y
  | collection {m : AttributeMapping} {r : RepresenterId} {element : JavaType} {e : Descriptor}
      {xs ys : List Value} :
    m.conversion = .collection r element → G.registry.resolve? r = some e →
      AllComeBack e xs ys → FieldComesBack m (.list xs) (.list ys)
inductive AllComeBack : Descriptor → List Value → List Value → Prop
  | nil {e : Descriptor} : AllComeBack e [] []
  | cons {e : Descriptor} {x y : Value} {xs ys : List Value} :
    ComesBack e x y → AllComeBack e xs ys → AllComeBack e (x :: xs) (y :: ys)
end

end Graph

end JsonMapping
