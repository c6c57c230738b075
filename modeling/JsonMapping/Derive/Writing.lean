import JsonMapping.Derive.Constants
import JsonMapping.Derive.Draft

/-! The methods of a mapper that write. A container is filled in this order: links, plain fields,
the container of the embedded fields, and the fields of the variant that the value is an instance
of. -/

namespace JsonMapping.Derive

/-- The discriminator and the fields of a variant, beside those of the base or in a container of
their own. -/
def putVariant (d : PlannedDispatch) (v : PlannedVariant) : Stmt :=
  let fields := Expr.callMapper v.mapper .toJson
    [.cast (.declared v.model) (.var .value), .var .requestContext]
  .when (.isInstance .value v.model) [
    .put .json d.discriminator (.text v.id),
    match d.nestedAttribute with
    | some key => .put .json key fields
    | none => .putAll .json fields]

/-- The method that writes a model. -/
def writingMethod (model : JavaType) (body : List Stmt) : Method where
  kind := .toJson
  params := [⟨.value, .declared model⟩, ⟨.requestContext, .requestContext⟩]
  returns := .container
  body

/-- The method that writes a list of models, one by one. -/
def listWritingMethod (model mapper : JavaType) : Method where
  kind := .toJsonCollection
  params := [⟨.values, .declaredList model⟩, ⟨.requestContext, .requestContext⟩]
  returns := .serializedList
  body := [.ret (.mapEach .values mapper .toJson (some .requestContext))]

namespace Draft

variable (b : Draft)

/-- The wire value of an attribute of the model in `value`. -/
def writeValue (m : AttributeMapping) : Emission Expr := do
  let current := Expr.getAttribute .value m.model
  match m.conversion with
  | .plain (some serializer) _ => return .apply (← helper (serializer, .serializer)) current
  | .plain none _ => return current
  | .single id =>
    return .callMapper (← b.nestedMapper id) .toJson [current, .var .requestContext]
  | .collection id _ =>
    return .callMapper (← b.nestedMapper id) .toJsonCollection [current, .var .requestContext]

def putValue (target : Var) (m : AttributeMapping) : Emission Stmt := do
  return .put target m.wireKey (← b.writeValue m)

def putLinks : Emission (List Stmt) := do
  match b.links with
  | some t =>
    return [.putAll .json (.links (← helper (t, .linksProvider)) .value .requestContext)]
  | none => return []

def putEmbedded : Emission (List Stmt) := do
  if b.hasEmbedded then
    let fields ← (b.attributes.filter (·.embedded)).mapM (b.putValue .embeddedMap)
    return .declare .embeddedMap .container .newContainer :: fields ++
      [.put .json embeddedKey (.var .embeddedMap)]
  else return []

def putVariants : Emission (List Stmt) := do
  match b.descriptor.dispatch with
  | some x =>
    let d ← b.resolveDispatch x
    return d.variants.map (putVariant d)
  | none => return []

def toJson : Emission Method := do
  let links ← b.putLinks
  let fields ← (b.attributes.filter (!·.embedded)).mapM (b.putValue .json)
  let embedded ← b.putEmbedded
  let variants ← b.putVariants
  return writingMethod b.descriptor.model <|
    .declare .json .container .newContainer :: links ++ fields ++ embedded ++ variants ++
      [.ret (.var .json)]

def toJsonCollection : Method := listWritingMethod b.descriptor.model b.mapper

end Draft

end JsonMapping.Derive
