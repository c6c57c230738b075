import JsonMapping.Descriptor.Document
import JsonMapping.Mapper.Basic

/-! Mappers as JSON documents. A variant without contents is written as its tag, any other as an
object with its tag as the key. -/

namespace JsonMapping

open Json (Form)

/-- A variant with contents. -/
def Json.tagged (tag : String) (content : Json) : Json := .object [(tag, content)]

/-- One of the variants without contents that have the given tags. -/
def Shape.choice {α : Type} (options : List (String × α)) : Form → Except DocumentError α :=
  Shape.variant fun tag content => match options.lookup tag with
    | some x => Shape.plain x content
    | none => Shape.fail (.unknownVariant tag (options.map Prod.fst))

/-! ## Names -/

namespace Var

def options : List (String × Var) := [
  ("value", .value), ("values", .values), ("request_context", .requestContext), ("json", .json),
  ("json_array", .jsonArray), ("embedded_map", .embeddedMap), ("model", .model)]

def tag : Var → String
  | .value => "value"
  | .values => "values"
  | .requestContext => "request_context"
  | .json => "json"
  | .jsonArray => "json_array"
  | .embeddedMap => "embedded_map"
  | .model => "model"

def toJson (v : Var) : Json := .string v.tag

def ofForm : Form → Except DocumentError Var := Shape.choice options

end Var

namespace MethodKind

def options : List (String × MethodKind) := [
  ("to_json", .toJson), ("to_json_collection", .toJsonCollection), ("from_json", .fromJson),
  ("from_json_collection", .fromJsonCollection)]

def tag : MethodKind → String
  | .toJson => "to_json"
  | .toJsonCollection => "to_json_collection"
  | .fromJson => "from_json"
  | .fromJsonCollection => "from_json_collection"

def ofForm : Form → Except DocumentError MethodKind := Shape.choice options

end MethodKind

namespace ConstantRole

def options : List (String × ConstantRole) := [
  ("links_provider", .linksProvider), ("serializer", .serializer), ("deserializer", .deserializer),
  ("custom_deserializer", .customDeserializer)]

def tag : ConstantRole → String
  | .linksProvider => "links_provider"
  | .serializer => "serializer"
  | .deserializer => "deserializer"
  | .customDeserializer => "custom_deserializer"

def ofForm : Form → Except DocumentError ConstantRole := Shape.choice options

end ConstantRole

/-! ## Types -/

namespace ValueType

def tags : List String :=
  ["declared", "declared_list", "container", "container_list", "serialized_list",
    "request_context"]

def tag : ValueType → String
  | .declared _ => "declared"
  | .declaredList _ => "declared_list"
  | .container => "container"
  | .containerList => "container_list"
  | .serializedList => "serialized_list"
  | .requestContext => "request_context"

def toJson (t : ValueType) : Json :=
  match t with
  | .declared type | .declaredList type => .tagged t.tag (.string type.text)
  | _ => .string t.tag

def ofForm : Form → Except DocumentError ValueType :=
  Shape.variant fun tag content => match tag with
    | "declared" => .declared <$> Shape.content Shape.javaType content
    | "declared_list" => .declaredList <$> Shape.content Shape.javaType content
    | "container" => Shape.plain .container content
    | "container_list" => Shape.plain .containerList content
    | "serialized_list" => Shape.plain .serializedList content
    | "request_context" => Shape.plain .requestContext content
    | _ => Shape.fail (.unknownVariant tag tags)

def ofText : String → Except DocumentError ValueType := Shape.ofText ofForm

end ValueType

/-! ## Expressions -/

namespace Expr

def tags : List String :=
  ["var", "null", "str", "new_container", "new", "empty_list", "get_attribute", "has_key",
    "lookup", "sub_container", "is_null", "is_instance", "cast", "apply", "links", "call_mapper",
    "map_each"]

def tag : Expr → String
  | .var _ => "var"
  | .null => "null"
  | .text _ => "str"
  | .newContainer => "new_container"
  | .newModel _ => "new"
  | .emptyList => "empty_list"
  | .getAttribute _ _ => "get_attribute"
  | .hasKey _ _ => "has_key"
  | .lookup _ _ => "lookup"
  | .subContainer _ _ => "sub_container"
  | .isNull _ => "is_null"
  | .isInstance _ _ => "is_instance"
  | .cast _ _ => "cast"
  | .apply _ _ => "apply"
  | .links _ _ _ => "links"
  | .callMapper _ _ _ => "call_mapper"
  | .mapEach _ _ _ _ => "map_each"

def keyed (container : Var) (key : String) : Json :=
  .object [("container", container.toJson), ("key", .string key)]

mutual
def toJson : Expr → Json
  | .var v => .tagged "var" v.toJson
  | .null => .string "null"
  | .text s => .tagged "str" (.string s)
  | .newContainer => .string "new_container"
  | .newModel t => .tagged "new" (.string t.text)
  | .emptyList => .string "empty_list"
  | .getAttribute v a =>
    .tagged "get_attribute" (.object [("target", v.toJson), ("attribute", a.toJson)])
  | .hasKey v key => .tagged "has_key" (keyed v key)
  | .lookup v key => .tagged "lookup" (keyed v key)
  | .subContainer v key => .tagged "sub_container" (keyed v key)
  | .isNull e => .tagged "is_null" (toJson e)
  | .isInstance v t =>
    .tagged "is_instance" (.object [("value", v.toJson), ("ty", .string t.text)])
  | .cast t e => .tagged "cast" (.object [("target", t.toJson), ("value", toJson e)])
  | .apply c e => .tagged "apply" (.object [("constant", .string c), ("argument", toJson e)])
  | .links c v context =>
    .tagged "links" (.object [("constant", .string c), ("value", v.toJson),
      ("context", context.toJson)])
  | .callMapper t k args =>
    .tagged "call_mapper" (.object [("mapper", .string t.text), ("function", .string k.tag),
      ("args", .array (allToJson args))])
  | .mapEach v t k context =>
    .tagged "map_each" (.object [("source", v.toJson), ("mapper", .string t.text),
      ("function", .string k.tag), ("context", (context.map Var.toJson).getD .null)])
def allToJson : List Expr → List Json
  | [] => []
  | e :: rest => toJson e :: allToJson rest
end

def keyedRecord (make : Var → String → Expr) : Record Expr :=
  make <$> .required "container" Var.ofForm <*> .required "key" Shape.text

/-- An expression from a form that is less than `fuel` deep. -/
def read : Nat → Form → Except DocumentError Expr
  | 0, _ => .error .malformed
  | fuel + 1, f => f |> Shape.variant fun tag content => match tag with
    | "var" => .var <$> Shape.content Var.ofForm content
    | "null" => Shape.plain .null content
    | "str" => .text <$> Shape.content Shape.text content
    | "new_container" => Shape.plain .newContainer content
    | "new" => .newModel <$> Shape.content Shape.javaType content
    | "empty_list" => Shape.plain .emptyList content
    | "get_attribute" =>
      let record := Expr.getAttribute <$> .required "target" Var.ofForm
        <*> .required "attribute" (Attribute.ofForm .malformed)
      Shape.fields record "Expr::GetAttribute" content
    | "has_key" => Shape.fields (keyedRecord .hasKey) "Expr::HasKey" content
    | "lookup" => Shape.fields (keyedRecord .lookup) "Expr::Lookup" content
    | "sub_container" => Shape.fields (keyedRecord .subContainer) "Expr::SubContainer" content
    | "is_null" => .isNull <$> Shape.content (read fuel) content
    | "is_instance" =>
      let record := Expr.isInstance <$> .required "value" Var.ofForm
        <*> .required "ty" Shape.javaType
      Shape.fields record "Expr::IsInstance" content
    | "cast" =>
      let record := Expr.cast <$> .required "target" ValueType.ofForm
        <*> .required "value" (read fuel)
      Shape.fields record "Expr::Cast" content
    | "apply" =>
      let record := Expr.apply <$> .required "constant" Shape.text
        <*> .required "argument" (read fuel)
      Shape.fields record "Expr::Apply" content
    | "links" =>
      let record := Expr.links <$> .required "constant" Shape.text
        <*> .required "value" Var.ofForm <*> .required "context" Var.ofForm
      Shape.fields record "Expr::Links" content
    | "call_mapper" =>
      let record := Expr.callMapper <$> .required "mapper" Shape.javaType
        <*> .required "function" MethodKind.ofForm <*> .required "args" (Shape.list (read fuel))
      Shape.fields record "Expr::CallMapper" content
    | "map_each" =>
      let record := Expr.mapEach <$> .required "source" Var.ofForm
        <*> .required "mapper" Shape.javaType <*> .required "function" MethodKind.ofForm
        <*> .nullable "context" Var.ofForm
      Shape.fields record "Expr::MapEach" content
    | _ => Shape.fail (.unknownVariant tag tags)

def ofForm (f : Form) : Except DocumentError Expr := read (f.height + 1) f

end Expr

/-! ## Statements -/

namespace Stmt

def tags : List String :=
  ["declare", "assign", "put", "put_all", "set_attribute", "if", "match", "return"]

def tag : Stmt → String
  | .declare _ _ _ => "declare"
  | .assign _ _ => "assign"
  | .put _ _ _ => "put"
  | .putAll _ _ => "put_all"
  | .setAttribute _ _ _ => "set_attribute"
  | .when _ _ => "if"
  | .select _ _ => "match"
  | .ret _ => "return"

mutual
def toJson : Stmt → Json
  | .declare v t e =>
    .tagged "declare" (.object [("var", v.toJson), ("ty", t.toJson), ("init", e.toJson)])
  | .assign v e => .tagged "assign" (.object [("var", v.toJson), ("value", e.toJson)])
  | .put v key e =>
    .tagged "put" (.object [("target", v.toJson), ("key", .string key), ("value", e.toJson)])
  | .putAll v e => .tagged "put_all" (.object [("target", v.toJson), ("source", e.toJson)])
  | .setAttribute v a e =>
    .tagged "set_attribute" (.object [("target", v.toJson), ("attribute", a.toJson),
      ("value", e.toJson)])
  | .when e body =>
    .tagged "if" (.object [("condition", e.toJson), ("then", .array (allToJson body))])
  | .select e arms =>
    .tagged "match" (.object [("scrutinee", e.toJson), ("arms", .array (armsToJson arms))])
  | .ret e => .tagged "return" e.toJson
def allToJson : List Stmt → List Json
  | [] => []
  | s :: rest => toJson s :: allToJson rest
def armsToJson : List (String × List Stmt) → List Json
  | [] => []
  | (literal, body) :: rest =>
    .object [("literal", .string literal), ("body", .array (allToJson body))] :: armsToJson rest
end

/-- A statement from a form that is less than `fuel` deep. -/
def read : Nat → Form → Except DocumentError Stmt
  | 0, _ => .error .malformed
  | fuel + 1, f => f |> Shape.variant fun tag content => match tag with
    | "declare" =>
      let record := Stmt.declare <$> .required "var" Var.ofForm
        <*> .required "ty" ValueType.ofForm <*> .required "init" Expr.ofForm
      Shape.fields record "Stmt::Declare" content
    | "assign" =>
      let record := Stmt.assign <$> .required "var" Var.ofForm <*> .required "value" Expr.ofForm
      Shape.fields record "Stmt::Assign" content
    | "put" =>
      let record := Stmt.put <$> .required "target" Var.ofForm <*> .required "key" Shape.text
        <*> .required "value" Expr.ofForm
      Shape.fields record "Stmt::Put" content
    | "put_all" =>
      let record := Stmt.putAll <$> .required "target" Var.ofForm
        <*> .required "source" Expr.ofForm
      Shape.fields record "Stmt::PutAll" content
    | "set_attribute" =>
      let record := Stmt.setAttribute <$> .required "target" Var.ofForm
        <*> .required "attribute" (Attribute.ofForm .malformed)
        <*> .required "value" Expr.ofForm
      Shape.fields record "Stmt::SetAttribute" content
    | "if" =>
      let record := Stmt.when <$> .required "condition" Expr.ofForm
        <*> .required "then" (Shape.list (read fuel))
      Shape.fields record "Stmt::If" content
    | "match" =>
      let arm : Record (String × List Stmt) :=
        Prod.mk <$> .required "literal" Shape.text <*> .required "body" (Shape.list (read fuel))
      let record := Stmt.select <$> .required "scrutinee" Expr.ofForm
        <*> .required "arms" (Shape.list (arm.ofForm "struct MatchArm" .malformed))
      Shape.fields record "Stmt::Match" content
    | "return" => .ret <$> Shape.content Expr.ofForm content
    | _ => Shape.fail (.unknownVariant tag tags)

def ofForm (f : Form) : Except DocumentError Stmt := read (f.height + 1) f

end Stmt

/-! ## Mappers -/

namespace Param

def toJson (p : Param) : Json := .object [("var", p.var.toJson), ("ty", p.type.toJson)]

def record : Record Param :=
  Param.mk <$> .required "var" Var.ofForm <*> .required "ty" ValueType.ofForm

end Param

namespace Method

def toJson (m : Method) : Json :=
  .object [("kind", .string m.kind.tag), ("params", .array (m.params.map Param.toJson)),
    ("returns", m.returns.toJson), ("body", .array (Stmt.allToJson m.body))]

def record : Record Method :=
  Method.mk <$> .required "kind" MethodKind.ofForm
    <*> .required "params" (Shape.list (Param.record.ofForm "struct Param" .malformed))
    <*> .required "returns" ValueType.ofForm <*> .required "body" (Shape.list Stmt.ofForm)

end Method

namespace Constant

def toJson (c : Constant) : Json :=
  .object [("name", .string c.name), ("role", .string c.role.tag), ("ty", .string c.type.text)]

def record : Record Constant :=
  Constant.mk <$> .required "name" Shape.text <*> .required "role" ConstantRole.ofForm
    <*> .required "ty" Shape.javaType

end Constant

namespace Mapper

def toJson (m : Mapper) : Json :=
  .object [("mapper", .string m.type.text), ("representer", .string m.representer.type.text),
    ("model", .string m.model.text), ("constants", .array (m.constants.map Constant.toJson)),
    ("functions", .array (m.methods.map Method.toJson))]

def record : Record Mapper :=
  Mapper.mk <$> .required "mapper" Shape.javaType <*> .required "representer" Shape.representerId
    <*> .required "model" Shape.javaType
    <*> .required "constants" (Shape.list (Constant.record.ofForm "struct Constant" .malformed))
    <*> .required "functions" (Shape.list (Method.record.ofForm "struct Function" .malformed))

def ofForm : Form → Except DocumentError Mapper := record.ofForm "struct GeneratedUnit" .malformed

def ofText : String → Except DocumentError Mapper := Shape.ofText ofForm

def listOfText : String → Except DocumentError (List Mapper) := Shape.ofText (Shape.list ofForm)

end Mapper

end JsonMapping
