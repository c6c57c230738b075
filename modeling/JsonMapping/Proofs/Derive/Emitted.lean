import JsonMapping.Derive.Mapper
import JsonMapping.Proofs.Derive.Plan

/-! The methods that a plan stands for, with the names of the helpers read off a table that is
there from the start. Nothing is looked up and nothing can fail. -/

namespace JsonMapping.Derive

/-! ## Methods that write -/

/-- The wire value of an attribute of the model in `value`. -/
def writeValue (table : List Constant) (a : PlannedAttribute) : Expr :=
  let current := Expr.getAttribute .value a.model
  match a.transfer with
  | .plain (some serializer) _ => .apply (constantName table serializer) current
  | .plain none _ => current
  | .single mapper => .callMapper mapper .toJson [current, .var .requestContext]
  | .collection mapper => .callMapper mapper .toJsonCollection [current, .var .requestContext]

def putValue (table : List Constant) (target : Var) (a : PlannedAttribute) : Stmt :=
  .put target a.wireKey (writeValue table a)

def putLinks (table : List Constant) (p : Plan) : List Stmt :=
  match p.links with
  | some t => [.putAll .json (.links (constantName table t) .value .requestContext)]
  | none => []

def putEmbedded (table : List Constant) (p : Plan) : List Stmt :=
  if p.hasEmbedded then
    .declare .embeddedMap .container .newContainer ::
      p.embeddedAttributes.map (putValue table .embeddedMap) ++
      [.put .json embeddedKey (.var .embeddedMap)]
  else []

def putVariants (p : Plan) : List Stmt :=
  match p.dispatch with
  | some d => d.variants.map (putVariant d)
  | none => []

def toJsonBody (table : List Constant) (p : Plan) : List Stmt :=
  .declare .json .container .newContainer :: putLinks table p ++
    p.plainAttributes.map (putValue table .json) ++ putEmbedded table p ++ putVariants p ++
    [.ret (.var .json)]

def toJsonMethod (table : List Constant) (p : Plan) : Method :=
  writingMethod p.descriptor.model (toJsonBody table p)

def toJsonCollectionMethod (p : Plan) : Method := listWritingMethod p.descriptor.model p.mapper

/-! ## Methods that read -/

/-- The model value of an attribute from its raw wire value. -/
def readValue (table : List Constant) (a : PlannedAttribute) (raw : Expr) : Expr :=
  match a.transfer with
  | .plain _ (some deserializer) =>
    .apply (constantName table deserializer) (castTo a.wire.type raw)
  | .plain _ none => castTo a.model.type raw
  | .single mapper => .callMapper mapper .fromJson [.cast .container raw]
  | .collection mapper => .callMapper mapper .fromJsonCollection [.cast .containerList raw]

/-- The container that holds the field of an attribute. -/
def sourceOf (a : PlannedAttribute) : Var := if a.embedded then .embeddedMap else .json

def setValue (table : List Constant) (a : PlannedAttribute) : Stmt :=
  .when (.hasKey (sourceOf a) a.wireKey)
    [.setAttribute .model a.model (readValue table a (.lookup (sourceOf a) a.wireKey))]

/-- Makes the model: a new instance, or what a variant reads. -/
def makeModel (p : Plan) : List Stmt :=
  let model := p.descriptor.model
  match p.dispatch with
  | none => [.declare .model (.declared model) (.newModel model)]
  | some d => constructVariant model d

def findEmbedded (p : Plan) : List Stmt :=
  if p.hasEmbedded then [.declare .embeddedMap .container (.subContainer .json embeddedKey)]
  else []

def readModel (table : List Constant) (p : Plan) : List Stmt :=
  match p.descriptor.customDeserializer with
  | some t => [.ret (.apply (constantName table t) (.var .json))]
  | none =>
    makeModel p ++ findEmbedded p ++ p.attributes.map (setValue table) ++ [.ret (.var .model)]

def fromJsonBody (table : List Constant) (p : Plan) : List Stmt :=
  .when (.isNull (.var .json)) [.ret .null] :: readModel table p

def fromJsonMethod (table : List Constant) (p : Plan) : Method :=
  readingMethod p.descriptor.model (fromJsonBody table p)

def fromJsonCollectionMethod (p : Plan) : Method := listReadingMethod p.descriptor.model p.mapper

/-! ## Mappers -/

/-- The methods for the directions that the descriptor does not skip. -/
def methods (p : Plan) : List Method :=
  let table := p.constants
  (if p.descriptor.skipSerialize then [] else [toJsonMethod table p, toJsonCollectionMethod p]) ++
    (if p.descriptor.skipDeserialize then []
      else [fromJsonMethod table p, fromJsonCollectionMethod p])

def Plan.toMapper (p : Plan) : Mapper where
  type := p.mapper
  representer := p.descriptor.representer
  model := p.descriptor.model
  constants := p.constants
  methods := methods p

end JsonMapping.Derive
