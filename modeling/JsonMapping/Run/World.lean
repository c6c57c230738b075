import JsonMapping.Run.Context
import JsonMapping.Run.Error

/-! The world that mappers run in: the mappers that are loaded, and what the names of helper types
and models stand for. Everything is found by qualified name. -/

namespace JsonMapping

/-- A serializer, a deserializer or a custom deserializer. -/
abbrev Helper := Value → Except RunError Value

/-- The links that go into the container of a value. -/
abbrev LinksProvider := Value → RequestContext → Except RunError (Entries Value)

structure World where
  mappers : Entries Mapper := []
  helpers : Entries Helper := []
  linksProviders : Entries LinksProvider := []
  /-- The fields that a new instance of a model has. -/
  defaults : Entries (Entries Value) := []

namespace World

/-- A mapper takes the place of one that has its qualified name. -/
def load (w : World) (m : Mapper) : World :=
  { w with mappers := w.mappers.insert m.type.qualifiedName m }

def loadAll (w : World) (ms : List Mapper) : World := ms.foldl load w

def bindHelper (w : World) (type : String) (f : Helper) : World :=
  { w with helpers := w.helpers.insert type f }

def bindLinksProvider (w : World) (type : String) (f : LinksProvider) : World :=
  { w with linksProviders := w.linksProviders.insert type f }

def setDefaults (w : World) (model : String) (fields : Entries Value) : World :=
  { w with defaults := w.defaults.insert model fields }

def mapper (w : World) (name : String) : Except RunError Mapper :=
  match w.mappers.get? name with
  | some m => .ok m
  | none => .error (.unknownMapper name)

/-- The mapper that a call names. -/
def callee (w : World) (t : JavaType) : Except RunError Mapper :=
  match w.mappers.get? t.qualifiedName with
  | some m => .ok m
  | none => .error (.unknownMapper t.text)

def helper (w : World) (t : JavaType) : Except RunError Helper :=
  match w.helpers.get? t.qualifiedName with
  | some f => .ok f
  | none => .error (.unboundHelper t.text)

def linksProvider (w : World) (t : JavaType) : Except RunError LinksProvider :=
  match w.linksProviders.get? t.qualifiedName with
  | some f => .ok f
  | none => .error (.unboundHelper t.text)

/-- A new model with its default fields. -/
def instantiate (w : World) (t : JavaType) : Value :=
  .model t.qualifiedName ((w.defaults.get? t.qualifiedName).getD [])

end World

end JsonMapping
