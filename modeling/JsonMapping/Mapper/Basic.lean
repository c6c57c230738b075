import JsonMapping.Descriptor.Basic

/-! Mappers: the code that converts one model to JSON and back. A mapper is a class with constants
and up to four methods, each a short list of statements over expressions. It can be run, and it can
be written as Java. -/

namespace JsonMapping

/-- The local variables and parameters of all methods. -/
inductive Var where
  /-- The model that is written. -/
  | value
  /-- The list of models that is written. -/
  | values
  | requestContext
  /-- The container that is read or built. -/
  | json
  /-- The list of containers that is read. -/
  | jsonArray
  /-- The container of the embedded fields. -/
  | embeddedMap
  /-- The model that is built. -/
  | model
deriving DecidableEq

/-- The static type of a parameter, a variable, a result or a cast. -/
inductive ValueType where
  | declared (type : JavaType)
  | declaredList (type : JavaType)
  | container
  | containerList
  /-- What a list of models is written as. -/
  | serializedList
  | requestContext
deriving DecidableEq

/-- The four methods that a mapper may have. -/
inductive MethodKind where
  | toJson
  | toJsonCollection
  | fromJson
  | fromJsonCollection
deriving DecidableEq

/-- Methods of one direction have one name and differ in their parameters. -/
def MethodKind.methodName : MethodKind → String
  | .toJson | .toJsonCollection => "toJSON"
  | .fromJson | .fromJsonCollection => "fromJSON"

inductive Expr where
  | var (v : Var)
  | null
  | text (value : String)
  | newContainer
  /-- A new instance of a model. -/
  | newModel (type : JavaType)
  | emptyList
  | getAttribute (target : Var) (field : Attribute)
  | hasKey (container : Var) (key : String)
  | lookup (container : Var) (key : String)
  /-- The container under a key, or an empty one where the key is absent. -/
  | subContainer (container : Var) (key : String)
  | isNull (e : Expr)
  | isInstance (v : Var) (type : JavaType)
  | cast (target : ValueType) (e : Expr)
  /-- A helper constant applied to a value. -/
  | apply (constant : String) (argument : Expr)
  /-- The links that a provider constant has for a value. -/
  | links (constant : String) (v context : Var)
  | callMapper (mapper : JavaType) (method : MethodKind) (args : List Expr)
  /-- A method of a mapper on every element of a list. -/
  | mapEach (source : Var) (mapper : JavaType) (method : MethodKind) (context : Option Var)
deriving BEq

inductive Stmt where
  | declare (v : Var) (type : ValueType) (init : Expr)
  | assign (v : Var) (value : Expr)
  /-- One entry of a container; a key that is there keeps its place. -/
  | put (target : Var) (key : String) (value : Expr)
  /-- All entries of another container. -/
  | putAll (target : Var) (source : Expr)
  | setAttribute (target : Var) (field : Attribute) (value : Expr)
  | when (condition : Expr) (body : List Stmt)
  /-- The first arm whose literal equals the scrutinee, or none. -/
  | select (scrutinee : Expr) (arms : List (String × List Stmt))
  | ret (value : Expr)
deriving BEq

structure Param where
  var : Var
  type : ValueType
deriving DecidableEq

structure Method where
  kind : MethodKind
  params : List Param
  returns : ValueType
  body : List Stmt
deriving BEq

/-- What a constant is used for. -/
inductive ConstantRole where
  | linksProvider
  | serializer
  | deserializer
  | customDeserializer
deriving DecidableEq

/-- A static field that holds one instance of a helper type. -/
structure Constant where
  name : String
  role : ConstantRole
  type : JavaType
deriving DecidableEq

structure Mapper where
  type : JavaType
  representer : RepresenterId
  model : JavaType
  constants : List Constant
  methods : List Method
deriving BEq

namespace Mapper

def method? (m : Mapper) (kind : MethodKind) : Option Method := m.methods.find? (·.kind == kind)

def constant? (m : Mapper) (name : String) : Option Constant := m.constants.find? (·.name == name)

end Mapper

end JsonMapping
