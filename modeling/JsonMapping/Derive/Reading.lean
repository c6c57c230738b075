import JsonMapping.Derive.Constants
import JsonMapping.Derive.Draft

/-! The methods of a mapper that read. A field that is absent leaves its attribute as it is; one
that is there sets it, to null if need be. -/

namespace JsonMapping.Derive

/-- A value as the declared type of an attribute, if it has one. -/
def castTo (type : Option JavaType) (e : Expr) : Expr :=
  match type with
  | some t => .cast (.declared t) e
  | none => e

/-- The container that a variant is read from. -/
def variantSource (d : PlannedDispatch) : Expr :=
  match d.nestedAttribute with
  | some key => .cast .container (.lookup .json key)
  | none => .var .json

def readVariant (d : PlannedDispatch) (v : PlannedVariant) : String × List Stmt :=
  (v.id, [.assign .model (.callMapper v.mapper .fromJson [variantSource d])])

/-- Makes the model through the variant that the discriminator names. No model is made where no
variant is named, and nothing else is read then. -/
def constructVariant (model : JavaType) (d : PlannedDispatch) : List Stmt := [
  .declare .model (.declared model) .null,
  .select (.lookup .json d.discriminator) (d.variants.map (readVariant d)),
  .when (.isNull (.var .model)) [.ret (.var .model)]]

/-- The method that reads a model. -/
def readingMethod (model : JavaType) (body : List Stmt) : Method where
  kind := .fromJson
  params := [⟨.json, .container⟩]
  returns := .declared model
  body

/-- The method that reads a list of models, one by one. A list that is null reads as an empty
one. -/
def listReadingMethod (model mapper : JavaType) : Method where
  kind := .fromJsonCollection
  params := [⟨.jsonArray, .containerList⟩]
  returns := .declaredList model
  body := [
    .when (.isNull (.var .jsonArray)) [.ret .emptyList],
    .ret (.mapEach .jsonArray mapper .fromJson none)]

namespace Draft

variable (b : Draft)

/-- The model value of an attribute from its raw wire value. -/
def readValue (m : AttributeMapping) (raw : Expr) : Emission Expr := do
  match m.conversion with
  | .plain _ (some deserializer) =>
    return .apply (← helper (deserializer, .deserializer)) (castTo m.wire.type raw)
  | .plain _ none => return castTo m.model.type raw
  | .single id => return .callMapper (← b.nestedMapper id) .fromJson [.cast .container raw]
  | .collection id _ =>
    return .callMapper (← b.nestedMapper id) .fromJsonCollection [.cast .containerList raw]

def setValue (m : AttributeMapping) : Emission Stmt := do
  let source := if m.embedded then Var.embeddedMap else .json
  let value ← b.readValue m (.lookup source m.wireKey)
  return .when (.hasKey source m.wireKey) [.setAttribute .model m.model value]

/-- Makes the model: a new instance, or what a variant reads. -/
def makeModel : Emission (List Stmt) := do
  let model := b.descriptor.model
  match b.descriptor.dispatch with
  | some x => return constructVariant model (← b.resolveDispatch x)
  | none => return [.declare .model (.declared model) (.newModel model)]

def findEmbedded : List Stmt :=
  if b.hasEmbedded then [.declare .embeddedMap .container (.subContainer .json embeddedKey)]
  else []

/-- A custom deserializer takes the place of everything else. -/
def readModel : Emission (List Stmt) := do
  match b.descriptor.customDeserializer with
  | some t => return [.ret (.apply (← helper (t, .customDeserializer)) (.var .json))]
  | none =>
    let make ← b.makeModel
    let fields ← b.attributes.mapM b.setValue
    return make ++ b.findEmbedded ++ fields ++ [.ret (.var .model)]

/-- Null reads as null. -/
def fromJson : Emission Method := do
  return readingMethod b.descriptor.model <|
    .when (.isNull (.var .json)) [.ret .null] :: (← b.readModel)

def fromJsonCollection : Method := listReadingMethod b.descriptor.model b.mapper

end Draft

end JsonMapping.Derive
