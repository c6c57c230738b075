import JsonMapping.Java.Library
import JsonMapping.Mapper.Traversal

/-! How one source file writes its types. The first type with a simple name is written by it and
imported; others with that name are written with their package, and so is a type that the file does
not mention. -/

namespace JsonMapping.Java

/-- The types that a part of a mapper brings into the file, its smaller parts left out. -/
def Library.typesOf (lib : Library) : Mention → List JavaType
  | .constant c => if c.role = .linksProvider then [lib.linksProvider] else []
  | .valueType .container => [map]
  | .valueType .containerList => [list, map]
  | .valueType (.declaredList _) | .valueType .serializedList => [list]
  | .valueType .requestContext => [lib.requestContext]
  | .expr .newContainer => [linkedHashMap]
  | .expr .emptyList => [collections]
  | .expr (.subContainer _ _) => [map, collections]
  | .expr (.links _ _ _) => [lib.linksMapper]
  | .expr (.mapEach _ _ _ _) => [collectors]
  | .type t => [t]
  | .callee t => t.withParts
  | _ => []

/-- The types of a file in the order in which they take their names. -/
structure TypeNames where
  library : Library
  types : List JavaType
deriving DecidableEq

namespace TypeNames

/-- The mapper itself comes first, and the types of its documentation before those of its code. -/
def ofMapper (library : Library) (documented : Bool) (m : Mapper) : TypeNames where
  library := library
  types := m.type :: ((if documented then [m.model, m.representer.type] else []) ++
    m.mentions.flatMap library.typesOf)

/-- The name of a class, generic arguments left out. -/
def className (names : TypeNames) (t : JavaType) : String :=
  match names.types.find? (·.simpleName = t.simpleName) with
  | some owner =>
    if owner.qualifiedName = t.qualifiedName then t.simpleName else t.qualifiedName
  | none => t.qualifiedName

mutual
def chars (names : TypeNames) : JavaType → List Char
  | .mk p e n as =>
    (names.className (.mk p e n as)).toList ++
      match as with
      | [] => []
      | a :: rest => '<' :: chars names a ++ argChars names rest
/-- The arguments after the first, and the closing bracket. -/
def argChars (names : TypeNames) : List JavaType → List Char
  | [] => ['>']
  | a :: rest => ',' :: ' ' :: chars names a ++ argChars names rest
end

/-- The type as the file writes it. -/
def write (names : TypeNames) (t : JavaType) : String := String.ofList (names.chars t)

/-- The first type with each simple name. -/
def owners : List JavaType → List JavaType
  | [] => []
  | t :: rest => t :: (owners rest).filter (·.simpleName ≠ t.simpleName)

/-- The imports of a file in the given package, in order. Types without a package need none. -/
def imports (names : TypeNames) (package : String) : List String :=
  let imported (t : JavaType) : Bool := t.packageName ≠ "" ∧ t.packageName ≠ package
  (((owners names.types).filter imported).map (·.qualifiedName)).mergeSort

end TypeNames

end JsonMapping.Java
