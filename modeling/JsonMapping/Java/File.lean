import JsonMapping.Java.Code
import JsonMapping.Settings

/-! Java source files. Each mapper is a class in a file of its own. -/

namespace JsonMapping

open Java (Line TypeNames)

namespace Java

structure File where
  path : String
  source : String
deriving DecidableEq

def fileComment : List Line :=
  [.code "//", .code "// This file was automatically generated by jrepresenter",
    .code "// Any changes may be lost!"]

/-- Spaces for each level. A count that takes 64 bits is past what can be laid out, and none. -/
def indentWidth (settings : JavaSettings) : Nat :=
  if settings.indent < Nat.pow 2 63 then settings.indent else 0

end Java

namespace Mapper

def javaDoc (names : TypeNames) (m : Mapper) : List Line :=
  [.code "/**", .code s!" * Representer for \x7b@link {names.write m.model}\x7d.",
    .code s!" * Generated using representer \x7b@link {names.write m.representer.type}\x7d.",
    .code " */"]

/-- The constants, without blank lines between them, and the methods. -/
def javaMembers (names : TypeNames) (m : Mapper) : List (List Line) :=
  (if m.constants.isEmpty then [] else [m.constants.map (Constant.java names m.model)]) ++
    m.methods.map (Method.java names)

def javaClass (names : TypeNames) (m : Mapper) : List Line :=
  Line.block [.code s!"public class {names.write m.type}"] (Line.spaced (javaMembers names m))

/-- What stands above the class: each part only where there is something to say. -/
def javaHead (names : TypeNames) (settings : JavaSettings) (m : Mapper) : List Line :=
  let package := m.type.packageName
  let imports := names.imports package
  (if settings.fileComment then Java.fileComment else []) ++
    (if package.isEmpty then [] else [.code s!"package {package};", .blank]) ++
    (if imports.isEmpty then [] else imports.map (.code s!"import {·};") ++ [.blank]) ++
    if settings.javadoc then javaDoc names m else []

def javaLines (names : TypeNames) (settings : JavaSettings) (m : Mapper) : List Line :=
  javaHead names settings m ++ javaClass names m

/-- The source of a mapper's class. -/
def javaSource (settings : JavaSettings) (m : Mapper) : Except NamingError String := do
  let library ← Java.Library.ofPackage settings.runtimePackage
  let names := TypeNames.ofMapper library settings.javadoc m
  return Line.textOf (Java.indentWidth settings) (m.javaLines names settings)

/-- A folder for each segment of the package. -/
def javaPath (m : Mapper) : String :=
  "/".intercalate (m.type.package.map (·.text) ++ [m.type.className ++ ".java"])

def javaFile (settings : JavaSettings) (m : Mapper) : Except NamingError Java.File :=
  return { path := m.javaPath, source := ← m.javaSource settings }

/-- The files of mappers, in order. -/
def javaFiles (settings : JavaSettings) (ms : List Mapper) : Except NamingError (List Java.File) :=
  ms.mapM (javaFile settings)

end Mapper

end JsonMapping
