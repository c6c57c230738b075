import JsonMapping.Mapper.Basic
import JsonMapping.Value.Basic

/-! What can go wrong in a run: what it needs is missing, or a value is not what it should be. -/

namespace JsonMapping

/-- The name of a variable in messages. -/
def Var.label : Var → String
  | .value => "Value"
  | .values => "Values"
  | .requestContext => "RequestContext"
  | .json => "Json"
  | .jsonArray => "JsonArray"
  | .embeddedMap => "EmbeddedMap"
  | .model => "Model"

/-- The name of a kind of method in messages. -/
def MethodKind.label : MethodKind → String
  | .toJson => "ToJson"
  | .toJsonCollection => "ToJsonCollection"
  | .fromJson => "FromJson"
  | .fromJsonCollection => "FromJsonCollection"

/-- What a value was expected to be. -/
inductive Expectation where
  | boolean
  | map
  | list
  | model
  | requestContext
  | declared (type : JavaType)
deriving DecidableEq

def Expectation.label : Expectation → String
  | .boolean => "boolean"
  | .map => "map"
  | .list => "list"
  | .model => "model"
  | .requestContext => "request context"
  | .declared type => type.text

/-- Where a null was used as if it held something. -/
inductive NullUse where
  | var (v : Var)
  | getter (field : Identifier)
  | setter (field : Identifier)
  /-- All entries of it were asked for. -/
  | entries
  /-- A helper found it. -/
  | helper (report : String)
deriving DecidableEq

def NullUse.label : NullUse → String
  | .var v => v.label
  | .getter field => s!"get {field.text}"
  | .setter field => s!"set {field.text}"
  | .entries => "putAll source"
  | .helper report => report

inductive RunError where
  | unknownMapper (name : String)
  | missingMethod (mapper : JavaType) (kind : MethodKind)
  /-- A constant, or the type of one, that nothing is bound to. -/
  | unboundHelper (name : String)
  | unboundVar (v : Var)
  | typeMismatch (expected : Expectation) (found : ValueKind)
  | nullDereference (use : NullUse)
  | notSerializable (model : String)
deriving DecidableEq

def RunError.message : RunError → String
  | .unknownMapper name => s!"no unit loaded for mapper `{name}`"
  | .missingMethod mapper kind => s!"mapper `{mapper}` has no {kind.label} function"
  | .unboundHelper name => s!"nothing registered for helper `{name}`"
  | .unboundVar v => s!"variable {v.label} is not bound"
  | .typeMismatch expected found => s!"cannot cast {found.name} to {expected.label}"
  | .nullDereference use => s!"null dereference: {use.label}"
  | .notSerializable model => s!"model `{model}` cannot be converted to JSON"

end JsonMapping
