import JsonMapping.Naming.JavaType.Reading

/-! The Java classes that all mappers use: collections, and the classes that a request needs. -/

namespace JsonMapping.Java

private def util (simple : Identifier) : JavaType :=
  .mk [⟨"java", by decide⟩, ⟨"util", by decide⟩] [] simple []

def map : JavaType := util ⟨"Map", by decide⟩

def linkedHashMap : JavaType := util ⟨"LinkedHashMap", by decide⟩

def list : JavaType := util ⟨"List", by decide⟩

def collections : JavaType := util ⟨"Collections", by decide⟩

def collectors : JavaType :=
  .mk [⟨"java", by decide⟩, ⟨"util", by decide⟩, ⟨"stream", by decide⟩] []
    ⟨"Collectors", by decide⟩ []

/-- The classes of the package that the settings name. -/
structure Library where
  requestContext : JavaType
  linksMapper : JavaType
  linksProvider : JavaType
deriving DecidableEq

/-- The package is taken as one, whatever case its segments have. -/
def Library.ofPackage (package : String) : Except NamingError Library :=
  return {
    requestContext := ← JavaType.ofNames package "RequestContext"
    linksMapper := ← JavaType.ofNames package "LinksMapper"
    linksProvider := ← JavaType.ofNames package "LinksProvider" }

end JsonMapping.Java
