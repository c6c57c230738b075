import JsonMapping.Json.Shape
import JsonMapping.Toml.Reader

/-! Settings: how mappers are named, and how their Java source is laid out. Every setting has a
standard value. They are written as TOML, or as a JSON document of the same shape. -/

namespace JsonMapping

structure GeneratorSettings where
  /-- Stands before the package of the representer. -/
  packagePrefix : String := "gen"
  /-- Left out at the end of the representer's name. -/
  representerSuffix : String := "Representer"
  /-- Stands behind the rest of that name. -/
  mapperSuffix : String := "Mapper"
  /-- A links provider that is as good as none. -/
  emptyLinksProvider : Option String := some "cd.go.jrepresenter.EmptyLinksProvider"
deriving DecidableEq

structure JavaSettings where
  /-- Spaces for each level of a block. -/
  indent : Nat := 2
  /-- Width that the text aims at. No expression is broken, so it changes nothing. -/
  lineWidth : Nat := 100
  fileComment : Bool := true
  javadoc : Bool := true
  /-- Package of the classes that all mappers share. -/
  runtimePackage : String := "cd.go.jrepresenter"
deriving DecidableEq

structure Settings where
  generator : GeneratorSettings := {}
  java : JavaSettings := {}
deriving DecidableEq

/-! ## Documents -/

namespace GeneratorSettings

def record : Record GeneratorSettings :=
  let standard : GeneratorSettings := {}
  GeneratorSettings.mk <$> .withDefault "package_prefix" Shape.text standard.packagePrefix
    <*> .withDefault "representer_suffix" Shape.text standard.representerSuffix
    <*> .withDefault "mapper_suffix" Shape.text standard.mapperSuffix
    <*> .withDefault "empty_links_provider" (Shape.option Shape.text) standard.emptyLinksProvider

def toJson (g : GeneratorSettings) : Json :=
  .object [("package_prefix", .string g.packagePrefix),
    ("representer_suffix", .string g.representerSuffix), ("mapper_suffix", .string g.mapperSuffix),
    ("empty_links_provider", .ofOption g.emptyLinksProvider)]

end GeneratorSettings

namespace JavaSettings

def record : Record JavaSettings :=
  let standard : JavaSettings := {}
  JavaSettings.mk <$> .withDefault "indent" Shape.count standard.indent
    <*> .withDefault "line_width" Shape.count standard.lineWidth
    <*> .withDefault "file_comment" Shape.bool standard.fileComment
    <*> .withDefault "javadoc" Shape.bool standard.javadoc
    <*> .withDefault "runtime_package" Shape.text standard.runtimePackage

def toJson (s : JavaSettings) : Json :=
  .object [("indent", .ofNat s.indent), ("line_width", .ofNat s.lineWidth),
    ("file_comment", .bool s.fileComment), ("javadoc", .bool s.javadoc),
    ("runtime_package", .string s.runtimePackage)]

end JavaSettings

namespace Settings

def record (surplus : Surplus) : Record Settings :=
  Settings.mk
    <$> .withDefault "generator"
      (GeneratorSettings.record.ofForm "struct GeneratorSection" surplus) {}
    <*> .withDefault "java" (JavaSettings.record.ofForm "struct JavaSection" surplus) {}

def toJson (s : Settings) : Json :=
  .object [("generator", s.generator.toJson), ("java", s.java.toJson)]

def ofJson (j : Json) : Except DocumentError Settings :=
  (record .refused).ofForm "struct JrepresenterConfig" .refused j.form

end Settings

/-! ## TOML -/

/-- An integer if 64 bits hold it, else the double nearest to it. -/
def Number.ofInt (n : Int) : Number :=
  if Number.fits n then .integer n else .real (.ofFloat (Float.ofInt n))

namespace Toml

mutual
/-- The same document as the form of a JSON text. Dates and times are objects of their own kind. -/
def form : Toml → Json.Form
  | .string s => .string s
  | .integer n => .number (.ofInt n)
  | .float d => .number (.real d)
  | .bool b => .bool b
  | .dateTime text => .object [(some "dateTime", .string text)] true
  | .array items => .array (itemForms items) true
  | .table fields => .object (fieldForms fields) true
  | .unreadable => .unreadable
def itemForms : List Toml → List Json.Form
  | [] => []
  | t :: rest => form t :: itemForms rest
def fieldForms : List (String × Toml) → List (Option String × Json.Form)
  | [] => []
  | (key, t) :: rest => (some key, form t) :: fieldForms rest
end

end Toml

/-- Settings from a text; nothing where it is no TOML or of another shape. -/
def Settings.ofText? (text : String) : Option Settings := do
  let form := (← Toml.parse? text).form
  match (Settings.record .ignored).ofForm "struct JrepresenterConfig" .ignored form with
  | .ok settings => some settings
  | .error _ => none

end JsonMapping
