import JsonMapping.Java.File
import Mathlib.Data.List.Forall2

/-! The layout of source files: the code that stands fast, and between it the types whose names are
left open. The layout does not depend on how the file writes its types. A file is its layout with
the names filled in. The main statement is `Mapper.exists_javaLines_eq`. -/

namespace JsonMapping

namespace Java

/-- A piece of code, or the name of a class that is left open. -/
inductive Part where
  | piece (p : Piece)
  | name (t : JavaType)
deriving DecidableEq

namespace Part

def code (text : String) : Part := .piece (.code text)

def literal (value : String) : Part := .piece (.literal value)

def chars (names : TypeNames) : Part → List Char
  | .piece p => p.chars
  | .name t => (names.className t).toList

def type? : Part → Option JavaType
  | .piece _ => none
  | .name t => some t

end Part

/-- The parts with the names filled in. -/
def filled (names : TypeNames) (parts : List Part) : List Char := parts.flatMap (Part.chars names)

/-- Parts with a separator between them. -/
def joinedParts (separator : String) (parts : List (List Part)) : List Part :=
  List.intercalate [.code separator] parts

/-- A line in which names are left open. -/
structure Sketch where
  depth : Nat
  parts : List Part
deriving DecidableEq

namespace Sketch

def blank : Sketch := ⟨0, []⟩

def ofParts (parts : List Part) : Sketch := ⟨0, parts⟩

def nested (s : Sketch) : Sketch := { s with depth := s.depth + 1 }

def block (header : List Part) (body : List Sketch) : List Sketch :=
  ofParts (header ++ [.code " \x7b"]) :: (body.map nested ++ [ofParts [.code "\x7d"]])

def chain : List (List Part × List Sketch) → List Sketch
  | [] => [ofParts [.code "\x7d"]]
  | (header, body) :: rest =>
    ofParts (.code "\x7d else " :: header ++ [.code " \x7b"]) :: (body.map nested ++ chain rest)

def filled (names : TypeNames) (s : Sketch) : Nat × List Char :=
  (s.depth, Java.filled names s.parts)

end Sketch

/-- Depth and text of a line, however the text is cut into pieces. -/
def Line.content (l : Line) : Nat × List Char := (l.depth, l.pieces.flatMap Piece.chars)

end Java

open Java (Part Piece Line Sketch Library TypeNames)

/-! ## Layouts -/

namespace JavaType

mutual
def layout : JavaType → List Part
  | .mk p e n as => .name (.mk p e n as) :: match as with
    | [] => []
    | a :: rest => .code "<" :: layout a ++ argLayout rest
def argLayout : List JavaType → List Part
  | [] => [.code ">"]
  | a :: rest => .code ", " :: layout a ++ argLayout rest
end

end JavaType

def ValueType.layout (lib : Library) : ValueType → List Part
  | .declared t => t.layout
  | .declaredList t => Java.list.layout ++ .code "<" :: t.layout ++ [.code ">"]
  | .container => Java.map.layout
  | .containerList => Java.list.layout ++ .code "<" :: Java.map.layout ++ [.code ">"]
  | .serializedList => Java.list.layout
  | .requestContext => lib.requestContext.layout

namespace Expr

mutual
def layout (lib : Library) : Expr → List Part
  | .var v => [.code v.javaName]
  | .null => [.code "null"]
  | .text s => [.literal s]
  | .newContainer => .code "new " :: Java.linkedHashMap.layout ++ [.code "()"]
  | .newModel t => .code "new " :: t.layout ++ [.code "()"]
  | .emptyList => Java.collections.layout ++ [.code ".emptyList()"]
  | .getAttribute v a => [.code s!"{v.javaName}.get{a.name.capitalized}()"]
  | .hasKey v key => [.code s!"{v.javaName}.containsKey(", .literal key, .code ")"]
  | .lookup v key => [.code s!"{v.javaName}.get(", .literal key, .code ")"]
  | .subContainer v key =>
    .code "(" :: Java.map.layout ++ [.code s!") {v.javaName}.getOrDefault(", .literal key,
      .code ", "] ++ Java.collections.layout ++ [.code ".emptyMap())"]
  | .isNull e => layout lib e ++ [.code " == null"]
  | .isInstance v t => .code s!"{v.javaName} instanceof " :: t.layout
  | .cast t e => .code "(" :: t.layout lib ++ .code ") " :: layout lib e
  | .apply c e => .code s!"{c}.apply(" :: layout lib e ++ [.code ")"]
  | .links c v context =>
    lib.linksMapper.layout ++ [.code s!".toJSON({c}, {v.javaName}, {context.javaName})"]
  | .callMapper t k args =>
    t.layout ++ .code s!".{k.methodName}(" :: Java.joinedParts ", " (layoutAll lib args) ++
      [.code ")"]
  | .mapEach v t k context =>
    let args := match context with
      | some c => s!"eachItem, {c.javaName}"
      | none => "eachItem"
    .code s!"{v.javaName}.stream().map(eachItem -> " :: t.layout ++
      .code s!".{k.methodName}({args})).collect(" :: Java.collectors.layout ++
      [.code ".toList())"]
def layoutAll (lib : Library) : List Expr → List (List Part)
  | [] => []
  | e :: rest => layout lib e :: layoutAll lib rest
end

end Expr

namespace Stmt

def conditionLayout (scrutinee : List Part) (value : String) : List Part :=
  .code "if (" :: .literal value :: .code ".equals(" :: scrutinee ++ [.code "))"]

mutual
def layout (lib : Library) : Stmt → List Sketch
  | .declare v t e =>
    [.ofParts (t.layout lib ++ .code s!" {v.javaName} = " :: e.layout lib ++ [.code ";"])]
  | .assign v e => [.ofParts (.code s!"{v.javaName} = " :: e.layout lib ++ [.code ";"])]
  | .put v key e =>
    [.ofParts (.code s!"{v.javaName}.put(" :: .literal key :: .code ", " :: e.layout lib ++
      [.code ");"])]
  | .putAll v e => [.ofParts (.code s!"{v.javaName}.putAll(" :: e.layout lib ++ [.code ");"])]
  | .setAttribute v a e =>
    [.ofParts (.code s!"{v.javaName}.set{a.name.capitalized}(" :: e.layout lib ++ [.code ");"])]
  | .when e body => Sketch.block (.code "if (" :: e.layout lib ++ [.code ")"]) (layoutAll lib body)
  | .select _ [] => [.blank]
  | .select e ((value, body) :: arms) =>
    let scrutinee := e.layout lib
    .ofParts (conditionLayout scrutinee value ++ [.code " \x7b"]) ::
      ((layoutAll lib body).map Sketch.nested ++ Sketch.chain (layoutArms lib scrutinee arms))
  | .ret e => [.ofParts (.code "return " :: e.layout lib ++ [.code ";"])]
def layoutAll (lib : Library) : List Stmt → List Sketch
  | [] => []
  | s :: rest => layout lib s ++ layoutAll lib rest
def layoutArms (lib : Library) (scrutinee : List Part) :
    List (String × List Stmt) → List (List Part × List Sketch)
  | [] => []
  | (value, body) :: rest =>
    (conditionLayout scrutinee value, layoutAll lib body) :: layoutArms lib scrutinee rest
end

end Stmt

namespace Method

def paramLayout (lib : Library) (p : Param) : List Part :=
  p.type.layout lib ++ [.code s!" {p.var.javaName}"]

def layout (lib : Library) (m : Method) : List Sketch :=
  Sketch.block (.code "public static " :: m.returns.layout lib ++
    .code s!" {m.kind.methodName}(" :: Java.joinedParts ", " (m.params.map (paramLayout lib)) ++
    [.code ")"]) (Stmt.layoutAll lib m.body)

end Method

def Constant.layout (lib : Library) (model : JavaType) (c : Constant) : Sketch :=
  let declared := match c.role with
    | .linksProvider => lib.linksProvider.layout ++ .code "<" :: model.layout ++ [.code ">"]
    | .serializer | .deserializer | .customDeserializer => c.type.layout
  .ofParts (.code "private static final " :: declared ++ .code s!" {c.name} = new " ::
    c.type.layout ++ [.code "();"])

namespace Mapper

def docLayout (m : Mapper) : List Sketch :=
  [.ofParts [.code "/**"],
    .ofParts (.code " * Representer for \x7b@link " :: m.model.layout ++ [.code "\x7d."]),
    .ofParts (.code " * Generated using representer \x7b@link " :: m.representer.type.layout ++
      [.code "\x7d."]),
    .ofParts [.code " */"]]

def membersLayout (lib : Library) (m : Mapper) : List (List Sketch) :=
  (if m.constants.isEmpty then [] else [m.constants.map (Constant.layout lib m.model)]) ++
    m.methods.map (Method.layout lib)

/-- All that stands behind the imports. -/
def layout (lib : Library) (documented : Bool) (m : Mapper) : List Sketch :=
  (if documented then m.docLayout else []) ++
    Sketch.block (.code "public class " :: m.type.layout)
      (List.intercalate [.blank] (m.membersLayout lib))

end Mapper

/-! ## Files are filled layouts -/

namespace Java

variable {names : TypeNames}

@[simp] theorem filled_nil : filled names [] = [] := rfl

@[simp] theorem filled_code (text : String) (rest : List Part) :
    filled names (.code text :: rest) = text.toList ++ filled names rest := rfl

@[simp] theorem filled_literal (value : String) (rest : List Part) :
    filled names (.literal value :: rest) = (Piece.literal value).chars ++ filled names rest := rfl

@[simp] theorem filled_name (t : JavaType) (rest : List Part) :
    filled names (.name t :: rest) = (names.className t).toList ++ filled names rest := rfl

@[simp] theorem filled_append (xs ys : List Part) :
    filled names (xs ++ ys) = filled names xs ++ filled names ys :=
  List.flatMap_append

theorem flatMap_intercalate {α β : Type} (f : α → List β) (separator : List α)
    (parts : List (List α)) :
    (List.intercalate separator parts).flatMap f =
      List.intercalate (separator.flatMap f) (parts.map (List.flatMap f)) := by
  induction parts with
  | nil => rfl
  | cons first rest ih =>
    cases rest with
    | nil => simp
    | cons second more =>
      simp only [List.map_cons] at ih
      simp [List.intercalate_cons_cons, ih]

theorem filled_joinedParts (separator : String) (parts : List (List Part)) :
    filled names (joinedParts separator parts) =
      List.intercalate separator.toList (parts.map (filled names)) := by
  have h := flatMap_intercalate (Part.chars names) [.code separator] parts
  rwa [List.flatMap_singleton] at h

theorem chars_joined (separator : String) (pieces : List (List Piece)) :
    (joined separator pieces).flatMap Piece.chars =
      List.intercalate separator.toList (pieces.map (List.flatMap Piece.chars)) := by
  have h := flatMap_intercalate Piece.chars [.code separator] pieces
  rwa [List.flatMap_singleton] at h

/-- The lines are the sketches with the names filled in. -/
def Draws (names : TypeNames) (ss : List Sketch) (ls : List Line) : Prop :=
  ls.map Line.content = ss.map (Sketch.filled names)

namespace Draws

variable {names : TypeNames} {ss ss' : List Sketch} {ls ls' : List Line}

theorem nil : Draws names [] [] := rfl

theorem append (h : Draws names ss ls) (h' : Draws names ss' ls') :
    Draws names (ss ++ ss') (ls ++ ls') := by
  unfold Draws at *
  rw [List.map_append, List.map_append, h, h']

theorem ofParts {parts : List Part} {pieces : List Piece}
    (h : filled names parts = pieces.flatMap Piece.chars) :
    Draws names [.ofParts parts] [.ofPieces pieces] := by
  simp [Draws, Sketch.filled, Sketch.ofParts, Line.content, Line.ofPieces, h]

theorem cons {parts : List Part} {pieces : List Piece}
    (h : filled names parts = pieces.flatMap Piece.chars) (hrest : Draws names ss ls) :
    Draws names (.ofParts parts :: ss) (.ofPieces pieces :: ls) :=
  (ofParts h).append hrest

theorem nested (h : Draws names ss ls) :
    Draws names (ss.map Sketch.nested) (ls.map Line.nested) := by
  have hdeeper := congrArg (List.map fun c : Nat × List Char => (c.1 + 1, c.2)) h
  simpa [Draws, Function.comp_def, Sketch.filled, Sketch.nested, Line.content, Line.nested] using
    hdeeper

theorem block {parts : List Part} {pieces : List Piece}
    (h : filled names parts = pieces.flatMap Piece.chars) (hbody : Draws names ss ls) :
    Draws names (Sketch.block parts ss) (Line.block pieces ls) :=
  cons (by simp [h, Piece.chars]) (hbody.nested.append (ofParts rfl))

/-- Groups with a blank line between them. -/
theorem spaced {sss : List (List Sketch)} {lss : List (List Line)}
    (h : List.Forall₂ (Draws names) sss lss) :
    Draws names (List.intercalate [.blank] sss) (Line.spaced lss) := by
  unfold Line.spaced
  induction h with
  | nil => exact nil
  | cons hfirst hrest ih =>
    cases hrest with
    | nil => simpa using hfirst
    | cons _ _ =>
      have hblank : Draws names [.blank] [.blank] := rfl
      rw [List.intercalate_cons_cons, List.intercalate_cons_cons]
      exact (hfirst.append hblank).append ih

end Draws

end Java

namespace JavaType

mutual
@[simp] theorem filled_layout (names : TypeNames) (t : JavaType) :
    Java.filled names t.layout = names.chars t := by
  match t with
  | .mk p e n [] => simp [layout, TypeNames.chars]
  | .mk p e n (a :: rest) =>
    simp [layout, TypeNames.chars, filled_layout names a, filled_argLayout names rest]
theorem filled_argLayout (names : TypeNames) (ts : List JavaType) :
    Java.filled names (argLayout ts) = names.argChars ts := by
  match ts with
  | [] => rfl
  | a :: rest =>
    simp [argLayout, TypeNames.argChars, filled_layout names a, filled_argLayout names rest]
end

end JavaType

@[simp] theorem ValueType.filled_layout (names : TypeNames) (t : ValueType) :
    Java.filled names (t.layout names.library) = (t.java names).toList := by
  cases t <;> simp [ValueType.layout, ValueType.java, TypeNames.write, ToString.toString]

namespace Expr

mutual
theorem filled_layout (names : TypeNames) (e : Expr) :
    Java.filled names (e.layout names.library) = (e.java names).flatMap Piece.chars := by
  cases e with
  | isNull e | cast t e | apply c e =>
    simp [layout, java, ToString.toString, Piece.chars, filled_layout names e]
  | callMapper t k args =>
    simp [layout, java, ToString.toString, Piece.chars, TypeNames.write,
      Java.filled_joinedParts, Java.chars_joined, filled_layoutAll names args]
  | mapEach v t k context =>
    cases context <;> simp [layout, java, ToString.toString, Piece.chars, TypeNames.write]
  | _ => simp [layout, java, ToString.toString, Piece.chars, TypeNames.write]
theorem filled_layoutAll (names : TypeNames) (es : List Expr) :
    (layoutAll names.library es).map (Java.filled names) =
      (javaAll names es).map (List.flatMap Piece.chars) := by
  match es with
  | [] => rfl
  | e :: rest => simp [layoutAll, javaAll, filled_layout names e, filled_layoutAll names rest]
end

end Expr

namespace Stmt

open Java (Draws)

theorem filled_conditionLayout {names : TypeNames} {parts : List Part} {pieces : List Piece}
    (h : Java.filled names parts = pieces.flatMap Piece.chars) (value : String) :
    Java.filled names (conditionLayout parts value) =
      (armCondition pieces value).flatMap Piece.chars := by
  simp [conditionLayout, armCondition, Piece.chars, h]

mutual
theorem draws_layout (names : TypeNames) (s : Stmt) :
    Draws names (s.layout names.library) (s.java names) := by
  cases s with
  | declare v t e =>
    simp only [layout, java]
    exact .ofParts (by simp [ToString.toString, Piece.chars, Expr.filled_layout])
  | assign v e | put v key e | putAll v e | setAttribute v a e | ret e =>
    simp only [layout, java]
    exact .ofParts (by simp [ToString.toString, Piece.chars, Expr.filled_layout])
  | when e body =>
    simp only [layout, java]
    exact .block (by simp [Piece.chars, Expr.filled_layout]) (draws_layoutAll names body)
  | select e arms =>
    match arms with
    | [] => simp only [layout, java]; rfl
    | (value, body) :: rest =>
      simp only [layout, java]
      have hscrutinee := Expr.filled_layout names e
      have hcondition := filled_conditionLayout hscrutinee value
      exact .cons (by simp [hcondition, Piece.chars])
        ((draws_layoutAll names body).nested.append (draws_layoutArms names hscrutinee rest))
theorem draws_layoutAll (names : TypeNames) (stmts : List Stmt) :
    Draws names (layoutAll names.library stmts) (javaAll names stmts) := by
  match stmts with
  | [] => exact .nil
  | s :: rest =>
    simp only [layoutAll, javaAll]
    exact (draws_layout names s).append (draws_layoutAll names rest)
theorem draws_layoutArms (names : TypeNames) {parts : List Part} {pieces : List Piece}
    (h : Java.filled names parts = pieces.flatMap Piece.chars)
    (arms : List (String × List Stmt)) :
    Draws names (Sketch.chain (layoutArms names.library parts arms))
      (Line.chain (javaArms names pieces arms)) := by
  match arms with
  | [] => exact .ofParts rfl
  | (value, body) :: rest =>
    simp only [layoutArms, javaArms, Sketch.chain, Line.chain]
    have hcondition := filled_conditionLayout h value
    exact .cons (by simp [hcondition, Piece.chars])
      ((draws_layoutAll names body).nested.append (draws_layoutArms names h rest))
end

end Stmt

open Java (Draws)

theorem Method.draws_layout (names : TypeNames) (m : Method) :
    Draws names (m.layout names.library) (m.java names) := by
  have hparams : (m.params.map (paramLayout names.library)).map (Java.filled names) =
      (m.params.map (paramJava names)).map String.toList := by
    rw [List.map_map, List.map_map]
    refine List.map_congr_left fun p _ => ?_
    simp [paramLayout, paramJava, ToString.toString]
  unfold layout java
  refine .block ?_ (Stmt.draws_layoutAll names m.body)
  simp [ToString.toString, Piece.chars, Java.filled_joinedParts, hparams,
    String.toList_intercalate, -List.map_map]

theorem Constant.draws_layout (names : TypeNames) (model : JavaType) (c : Constant) :
    Draws names [c.layout names.library model] [c.java names model] := by
  unfold layout java
  refine .ofParts ?_
  cases c.role <;> simp [ToString.toString, Piece.chars, TypeNames.write]

namespace Mapper

theorem draws_docLayout (names : TypeNames) (m : Mapper) :
    Draws names m.docLayout (m.javaDoc names) :=
  .cons rfl (.cons (by simp [ToString.toString, Piece.chars, TypeNames.write])
    (.cons (by simp [ToString.toString, Piece.chars, TypeNames.write]) (.ofParts rfl)))

theorem draws_membersLayout (names : TypeNames) (m : Mapper) :
    List.Forall₂ (Draws names) (m.membersLayout names.library) (m.javaMembers names) := by
  have hconstants : Draws names (m.constants.map (Constant.layout names.library m.model))
      (m.constants.map (Constant.java names m.model)) := by
    induction m.constants with
    | nil => exact .nil
    | cons c rest ih => exact (c.draws_layout names m.model).append ih
  refine List.rel_append ?_ ?_
  · split
    · exact .nil
    · exact .cons hconstants .nil
  · rw [List.forall₂_map_left_iff, List.forall₂_map_right_iff, List.forall₂_same]
    exact fun method _ => method.draws_layout names

/-- What stands above the imports. -/
def javaTop (settings : JavaSettings) (m : Mapper) : List Line :=
  (if settings.fileComment then Java.fileComment else []) ++
    if m.type.packageName.isEmpty then []
    else [.code s!"package {m.type.packageName};", .blank]

def javaImports (imports : List String) : List Line :=
  if imports.isEmpty then [] else imports.map (.code s!"import {·};") ++ [.blank]

theorem javaLines_eq (names : TypeNames) (settings : JavaSettings) (m : Mapper) :
    m.javaLines names settings =
      m.javaTop settings ++ javaImports (names.imports m.type.packageName) ++
        ((if settings.javadoc then m.javaDoc names else []) ++ m.javaClass names) := by
  simp only [javaLines, javaHead, javaTop, javaImports, List.append_assoc]

/-- Above the imports no types are named; what stands behind them is the layout of the mapper with
the names filled in. -/
theorem exists_javaLines_eq (names : TypeNames) (settings : JavaSettings) (m : Mapper) :
    ∃ rest, m.javaLines names settings =
        m.javaTop settings ++ javaImports (names.imports m.type.packageName) ++ rest ∧
      Draws names (m.layout names.library settings.javadoc) rest := by
  refine ⟨_, m.javaLines_eq names settings, ?_⟩
  unfold layout javaClass
  refine .append ?_ (.block ?_ (.spaced (m.draws_membersLayout names)))
  · split
    · exact m.draws_docLayout names
    · exact .nil
  · simp [ToString.toString, Piece.chars, TypeNames.write]

end Mapper

end JsonMapping
