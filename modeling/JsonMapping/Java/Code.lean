import JsonMapping.Java.Line
import JsonMapping.Java.TypeNames

/-! Expressions and statements as Java. An expression stands on one line, however long it is; a
statement is a line or a block. -/

namespace JsonMapping

open Java (Piece Line TypeNames)

def Var.javaName : Var → String
  | .value => "value"
  | .values => "values"
  | .requestContext => "requestContext"
  | .json => "json"
  | .jsonArray => "jsonArray"
  | .embeddedMap => "embeddedMap"
  | .model => "model"

def ValueType.java (names : TypeNames) : ValueType → String
  | .declared t => names.write t
  | .declaredList t => s!"{names.write Java.list}<{names.write t}>"
  | .container => names.write Java.map
  | .containerList => s!"{names.write Java.list}<{names.write Java.map}>"
  | .serializedList => names.write Java.list
  | .requestContext => names.write names.library.requestContext

namespace Expr

mutual
def java (names : TypeNames) : Expr → List Piece
  | .var v => [.code v.javaName]
  | .null => [.code "null"]
  | .text s => [.literal s]
  | .newContainer => [.code s!"new {names.write Java.linkedHashMap}()"]
  | .newModel t => [.code s!"new {names.write t}()"]
  | .emptyList => [.code s!"{names.write Java.collections}.emptyList()"]
  | .getAttribute v a => [.code s!"{v.javaName}.get{a.name.capitalized}()"]
  | .hasKey v key => [.code s!"{v.javaName}.containsKey(", .literal key, .code ")"]
  | .lookup v key => [.code s!"{v.javaName}.get(", .literal key, .code ")"]
  | .subContainer v key =>
    [.code s!"({names.write Java.map}) {v.javaName}.getOrDefault(", .literal key,
      .code s!", {names.write Java.collections}.emptyMap())"]
  | .isNull e => java names e ++ [.code " == null"]
  | .isInstance v t => [.code s!"{v.javaName} instanceof {names.write t}"]
  | .cast t e => .code s!"({t.java names}) " :: java names e
  | .apply c e => .code s!"{c}.apply(" :: java names e ++ [.code ")"]
  | .links c v context =>
    [.code s!"{names.write names.library.linksMapper}.toJSON({c}, {v.javaName}, ",
      .code s!"{context.javaName})"]
  | .callMapper t k args =>
    .code s!"{names.write t}.{k.methodName}(" :: Java.joined ", " (javaAll names args) ++
      [.code ")"]
  | .mapEach v t k context =>
    let args := match context with
      | some c => s!"eachItem, {c.javaName}"
      | none => "eachItem"
    [.code s!"{v.javaName}.stream().map(eachItem -> {names.write t}.{k.methodName}({args}))",
      .code s!".collect({names.write Java.collectors}.toList())"]
def javaAll (names : TypeNames) : List Expr → List (List Piece)
  | [] => []
  | e :: rest => java names e :: javaAll names rest
end

end Expr

namespace Stmt

/-- The condition under which an arm is taken. -/
def armCondition (scrutinee : List Piece) (value : String) : List Piece :=
  .code "if (" :: .literal value :: .code ".equals(" :: scrutinee ++ [.code "))"]

mutual
def java (names : TypeNames) : Stmt → List Line
  | .declare v t e =>
    [.ofPieces (.code s!"{t.java names} {v.javaName} = " :: e.java names ++ [.code ";"])]
  | .assign v e => [.ofPieces (.code s!"{v.javaName} = " :: e.java names ++ [.code ";"])]
  | .put v key e =>
    [.ofPieces (.code s!"{v.javaName}.put(" :: .literal key :: .code ", " :: e.java names ++
      [.code ");"])]
  | .putAll v e => [.ofPieces (.code s!"{v.javaName}.putAll(" :: e.java names ++ [.code ");"])]
  | .setAttribute v a e =>
    [.ofPieces (.code s!"{v.javaName}.set{a.name.capitalized}(" :: e.java names ++ [.code ");"])]
  | .when e body => Line.block (.code "if (" :: e.java names ++ [.code ")"]) (javaAll names body)
  | .select _ [] => [.blank]
  | .select e ((value, body) :: arms) =>
    let scrutinee := e.java names
    .ofPieces (armCondition scrutinee value ++ [.code " \x7b"]) ::
      ((javaAll names body).map Line.nested ++ Line.chain (javaArms names scrutinee arms))
  | .ret e => [.ofPieces (.code "return " :: e.java names ++ [.code ";"])]
def javaAll (names : TypeNames) : List Stmt → List Line
  | [] => []
  | s :: rest => java names s ++ javaAll names rest
/-- The arms after the first. -/
def javaArms (names : TypeNames) (scrutinee : List Piece) :
    List (String × List Stmt) → List (List Piece × List Line)
  | [] => []
  | (value, body) :: rest =>
    (armCondition scrutinee value, javaAll names body) :: javaArms names scrutinee rest
end

end Stmt

namespace Method

def paramJava (names : TypeNames) (p : Param) : String := s!"{p.type.java names} {p.var.javaName}"

def java (names : TypeNames) (m : Method) : List Line :=
  let params := ", ".intercalate (m.params.map (paramJava names))
  Line.block [.code s!"public static {m.returns.java names} {m.kind.methodName}({params})"]
    (Stmt.javaAll names m.body)

end Method

/-- A links provider is declared as one for the model, any other constant with its own type. -/
def Constant.java (names : TypeNames) (model : JavaType) (c : Constant) : Line :=
  let declared := match c.role with
    | .linksProvider => s!"{names.write names.library.linksProvider}<{names.write model}>"
    | .serializer | .deserializer | .customDeserializer => names.write c.type
  .code s!"private static final {declared} {c.name} = new {names.write c.type}();"

end JsonMapping
