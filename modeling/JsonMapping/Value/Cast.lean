import JsonMapping.Run.Error

/-! Casts. They check a value and never change it, and null passes all of them. -/

namespace JsonMapping

/-- What a declared type stands for. A type that is not known is that of a model. -/
inductive DeclaredKind where
  | string
  | integral
  | number
  | boolean
  | map
  | list
  | any
  | model
deriving DecidableEq

namespace JavaType

def integralNames : List String :=
  ["java.lang.Integer", "Integer", "int", "java.lang.Long", "Long", "long", "java.lang.Short",
    "Short", "short", "java.lang.Byte", "Byte", "byte", "java.math.BigInteger"]

def numberNames : List String :=
  ["java.lang.Double", "Double", "double", "java.lang.Float", "Float", "float", "java.lang.Number",
    "Number", "java.math.BigDecimal"]

def mapNames : List String :=
  ["java.util.Map", "java.util.LinkedHashMap", "java.util.HashMap", "Map"]

def listNames : List String :=
  ["java.util.List", "java.util.ArrayList", "java.util.Collection", "List"]

/-- The qualified name decides; generic arguments do not count. -/
def declaredKind (t : JavaType) : DeclaredKind :=
  let name := t.qualifiedName
  if name ∈ ["java.lang.String", "String"] then .string
  else if name ∈ integralNames then .integral
  else if name ∈ numberNames then .number
  else if name ∈ ["java.lang.Boolean", "Boolean", "boolean"] then .boolean
  else if name ∈ mapNames then .map
  else if name ∈ listNames then .list
  else if name ∈ ["java.lang.Object", "Object"] then .any
  else .model

/-- Whether a value other than null may have the type. A model must be of exactly that type, and a
double is not integral whatever its value. -/
def accepts (t : JavaType) (v : Value) : Bool :=
  match t.declaredKind, v with
  | .any, _ => true
  | .string, .string _ => true
  | .integral, .number (.integer _) => true
  | .number, .number _ => true
  | .boolean, .bool _ => true
  | .map, .map _ => true
  | .list, .list _ => true
  | .model, .model type _ => type = t.qualifiedName
  | _, _ => false

end JavaType

namespace ValueType

def expectation : ValueType → Expectation
  | .declared type => .declared type
  | .container => .map
  | .declaredList _ | .containerList | .serializedList => .list
  | .requestContext => .requestContext

/-- Elements of a list are not looked at, and no value is a request context. -/
def accepts (t : ValueType) (v : Value) : Bool :=
  match t with
  | .declared type => type.accepts v
  | .container => v.kind = .map
  | .declaredList _ | .containerList | .serializedList => v.kind = .list
  | .requestContext => false

end ValueType

def Value.cast (v : Value) (target : ValueType) : Except RunError Value :=
  if v.isNull || target.accepts v then .ok v
  else .error (.typeMismatch target.expectation v.kind)

end JsonMapping
