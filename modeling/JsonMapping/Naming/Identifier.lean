import JsonMapping.Text.Case

/-! Identifiers: ASCII letters, digits, `_` and `$`, not starting with a digit. The wire key of an
identifier is its lower underscore form. -/

namespace JsonMapping

/-- Why a text names nothing. -/
inductive NamingError where
  | badIdentifier (text : String)
  | badType (text : String)
deriving DecidableEq

def NamingError.message : NamingError → String
  | .badIdentifier text => s!"invalid identifier `{text}`"
  | .badType text => s!"invalid type reference `{text}`"

namespace Identifier

def isStart (c : Char) : Bool := c.isAlpha || c == '_' || c == '$'

def isPart (c : Char) : Bool := c.isAlphanum || c == '_' || c == '$'

def isValid : List Char → Bool
  | [] => false
  | c :: rest => isStart c && rest.all isPart

end Identifier

structure Identifier where
  text : String
  valid : Identifier.isValid text.toList = true
deriving DecidableEq

namespace Identifier

def ofString? (text : String) : Option Identifier :=
  if h : isValid text.toList = true then some ⟨text, h⟩ else none

def ofChars? (cs : List Char) : Option Identifier := ofString? (String.ofList cs)

def parse (text : String) : Except NamingError Identifier :=
  match ofString? text with
  | some name => .ok name
  | none => .error (.badIdentifier text)

theorem ofString?_text (name : Identifier) : ofString? name.text = some name := by
  simp [ofString?, name.valid]

theorem ofString?_eq_some {text : String} {name : Identifier} (h : ofString? text = some name) :
    name.text = text := by
  unfold ofString? at h
  split at h <;> simp at h
  rw [← h]

/-- Lower case, with an underscore before what was upper case. -/
def lowerTail (cs : List Char) : List Char :=
  cs.flatMap fun c => if c.isUpper then ['_', c.toLower] else [c.toLower]

/-- `firstName` becomes `first_name`; the first character gets no underscore, and underscores that
are there stay. -/
def snakeCase : List Char → List Char
  | [] => []
  | c :: rest => c.toLower :: lowerTail rest

/-- Key of the field in a JSON container. -/
def wireKey (name : Identifier) : String := String.ofList (snakeCase name.text.toList)

/-- The name behind `get` and `set` in an accessor. -/
def capitalized (name : Identifier) : String := String.ofList (Text.capitalize name.text.toList)

end Identifier

end JsonMapping
