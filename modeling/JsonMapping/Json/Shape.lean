import JsonMapping.Json.Reader
import JsonMapping.Json.Writer
import JsonMapping.Naming.JavaType.Reading
import JsonMapping.Text.Quoted

/-! The shape of documents: what a value of the domain expects of the JSON that stands for it, and
what is reported where the JSON is of another shape. A text is read from left to right, so of
several faults in it the report is the one that comes first, and a fault of shape may come before
the place where the text is no JSON. -/

namespace JsonMapping

inductive ShapeError where
  | wrongType (found expected : String)
  | wrongValue (found expected : String)
  | wrongLength (length : Nat) (expected : String)
  | missingField (name : String)
  | duplicateField (name : String)
  | unknownVariant (name : String) (known : List String)
  | badName (error : NamingError)
deriving DecidableEq

/-- Why a form stands for no value: the text goes wrong, or it is of another shape. -/
inductive DocumentError where
  | malformed
  | shape (error : ShapeError)
deriving DecidableEq

namespace ShapeError

def message : ShapeError → String
  | wrongType found expected => s!"invalid type: {found}, expected {expected}"
  | wrongValue found expected => s!"invalid value: {found}, expected {expected}"
  | wrongLength length expected => s!"invalid length {length}, expected {expected}"
  | missingField name => s!"missing field `{name}`"
  | duplicateField name => s!"duplicate field `{name}`"
  | unknownVariant name known =>
    let names := ", ".intercalate (known.map fun k => s!"`{k}`")
    s!"unknown variant `{name}`, expected one of {names}"
  | badName error => error.message

end ShapeError

/-- What a message calls a value; nothing else has a name. -/
def Json.Form.description? : Json.Form → Option String
  | .null => some "null"
  | .bool b => some s!"boolean `{b}`"
  | .number (.integer n) => some s!"integer `{n}`"
  | .number (.real d) => some s!"floating point `{String.ofList (Number.real d).chars}`"
  | .string s => some s!"string {Text.quoted s}"
  | .array _ _ => some "sequence"
  | .object _ _ => some "map"
  | .unreadable => none
  | .broken => none

namespace Shape

open Json (Form)

def fail {α : Type} (e : ShapeError) : Except DocumentError α := .error (.shape e)

def mismatch {α : Type} (f : Form) (expected : String) : Except DocumentError α :=
  match f.description? with
  | some found => fail (.wrongType found expected)
  | none => .error .malformed

/-- A value from a whole text. -/
def ofText {α : Type} (value : Form → Except DocumentError α) (text : String) :
    Except DocumentError α := do
  let (form, isWhole) := Form.ofText text
  let x ← value form
  if isWhole then return x else throw .malformed

/-! ## Single values -/

def text : Form → Except DocumentError String
  | .string s => .ok s
  | f => mismatch f "a string"

def bool : Form → Except DocumentError Bool
  | .bool b => .ok b
  | f => mismatch f "a boolean"

/-- A count. Only an integer can have a wrong sign. -/
def count : Form → Except DocumentError Nat
  | .number (.integer (.ofNat n)) => .ok n
  | .number (.integer n) => fail (.wrongValue s!"integer `{n}`" "usize")
  | f => mismatch f "usize"

def list {α : Type} (item : Form → Except DocumentError α) : Form → Except DocumentError (List α)
  | .array items closed => do
    let xs ← items.mapM item
    if closed then return xs else throw .malformed
  | f => mismatch f "a sequence"

/-- Null stands for no value. -/
def option {α : Type} (value : Form → Except DocumentError α) :
    Form → Except DocumentError (Option α)
  | .null => .ok none
  | f => (value f).map some

def named {α : Type} (found : Except NamingError α) : Except DocumentError α :=
  found.mapError (.shape ∘ .badName)

def identifier (f : Form) : Except DocumentError Identifier := do
  named (Identifier.parse (← text f))

def javaType (f : Form) : Except DocumentError JavaType := do named (JavaType.parse (← text f))

def representerId (f : Form) : Except DocumentError RepresenterId := do return ⟨← javaType f⟩

/-! ## Variants

A variant without contents is its name; one with contents is an object with its name as the only
key. -/

/-- A variant from its name, and its contents if it has any. -/
def variant {α : Type} (read : String → Option Form → Except DocumentError α) :
    Form → Except DocumentError α
  | .string name => read name none
  | .object ((some name, content) :: more) closed => do
    let x ← read name (some content)
    if more.isEmpty && closed then return x else throw .malformed
  | _ => .error .malformed

/-- A variant without contents. -/
def plain {α : Type} (x : α) : Option Form → Except DocumentError α
  | none | some .null => .ok x
  | some f => mismatch f "unit"

def content {α : Type} (value : Form → Except DocumentError α) :
    Option Form → Except DocumentError α
  | none => fail (.wrongType "unit variant" "newtype variant")
  | some f => value f

end Shape

/-! ## Records -/

/-- What becomes of items behind the last field of a record that is written as an array. In a text
they are where it goes wrong. In a document they are refused, with a wording that depends on
whether the record was kept back before it was read, or they are not looked at. Where they are not
looked at, fields under other keys are, and must have values. -/
inductive Surplus where
  | malformed
  | refused
  | refusedLate
  | ignored

/-- Where a record finds its fields: under keys, or in an array by position. The label is what
messages call the record. -/
inductive FieldSource where
  | keyed (fields : List (Option String × Json.Form))
  | positional (items : List Json.Form) (label : String)

/-- A fault and the place where reading meets it. -/
structure Placed where
  place : Nat
  error : DocumentError

/-- The fields of a record in their declared order, and how to read them where the first is at the
given position. -/
structure Record (α : Type) where
  names : List String
  read : FieldSource → Nat → Except Placed α

namespace Record

open Json (Form)

/-- The places and values of the fields with a key. -/
def occurrences (fields : List (Option String × Form)) (name : String) : List (Nat × Form) :=
  fields.zipIdx.filterMap fun ((key, f), i) => if key = some name then some (i, f) else none

/-- A field that reads as `absent` says where it is not there: at the end of the record. -/
def field {α : Type} (name : String) (value : Form → Except DocumentError α)
    (absent : ShapeError → Except DocumentError α) : Record α where
  names := [name]
  read source i := match source with
    | .keyed fields => match occurrences fields name with
      | [] => (absent (.missingField name)).mapError (⟨fields.length, ·⟩)
      | [(place, f)] => (value f).mapError (⟨place, ·⟩)
      | (place, f) :: (again, _) :: _ => match value f with
        | .error e => .error ⟨place, e⟩
        | .ok _ => .error ⟨again, .shape (.duplicateField name)⟩
    | .positional items label => match items[i]? with
      | none => (absent (.wrongLength i label)).mapError (⟨items.length, ·⟩)
      | some f => (value f).mapError (⟨i, ·⟩)

def required {α : Type} (name : String) (value : Form → Except DocumentError α) : Record α :=
  field name value Shape.fail

/-- Absent and null are the same. -/
def optional {α : Type} (name : String) (value : Form → Except DocumentError α) :
    Record (Option α) :=
  field name (Shape.option value) fun _ => .ok none

/-- A key may be absent and stands for null then; an array has to give the item. -/
def nullable {α : Type} (name : String) (value : Form → Except DocumentError α) :
    Record (Option α) :=
  field name (Shape.option value) fun
    | .missingField _ => .ok none
    | e => Shape.fail e

def withDefault {α : Type} (name : String) (value : Form → Except DocumentError α)
    (standard : α) : Record α :=
  field name value fun _ => .ok standard

/-- Two records side by side; of two faults the one that is met first. -/
def combine {α β γ : Type} (f : α → β → γ) (a : Record α) (b : Record β) : Record γ where
  names := a.names ++ b.names
  read source i := match a.read source i, b.read source (i + a.names.length) with
    | .ok x, .ok y => .ok (f x y)
    | .error e, .error e' => .error (if e'.place < e.place then e' else e)
    | .error e, .ok _ => .error e
    | .ok _, .error e => .error e

instance : Applicative Record where
  pure x := ⟨[], fun _ _ => .ok x⟩
  seq f a := combine (fun g x => g x) f (a ())

/-- What reading gives where the text goes wrong at a place: a fault counts only in front of it. -/
def upTo {α : Type} (place : Option Nat) (found : Except Placed α) : Except DocumentError α :=
  match found, place with
  | .ok x, none => .ok x
  | .error e, none => .error e.error
  | .ok _, some _ => .error .malformed
  | .error e, some place => .error (if e.place < place then e.error else .malformed)

/-- The first place where an object goes wrong: a key without a value, a field that is kept back
and has no value, or the end. -/
def wrongPlace? (isKept : String → Bool) (fields : List (Option String × Form)) (closed : Bool) :
    Option Nat :=
  let isWrong : Option String × Form → Bool
    | (none, _) => true
    | (some key, f) => isKept key && f.value?.isNone
  (fields.findIdx? isWrong).or (if closed then none else some fields.length)

/-- The record from the fields of an object. -/
def ofFields {α : Type} (r : Record α) (fields : List (Option String × Form)) (closed : Bool) :
    Except DocumentError α :=
  upTo (wrongPlace? (fun _ => false) fields closed) (r.read (.keyed fields) 0)

/-- The record from an object whose other fields are kept back to be read later, for which they
must have values. -/
def ofOwnFields {α : Type} (r : Record α) (fields : List (Option String × Form)) (closed : Bool) :
    Except DocumentError α :=
  upTo (wrongPlace? (!r.names.contains ·) fields closed) (r.read (.keyed fields) 0)

def counted (n : Nat) : String := if n = 1 then "1 element" else s!"{n} elements"

/-- The record from the items of an array. -/
def ofItems {α : Type} (r : Record α) (name : String) (surplus : Surplus) (items : List Form)
    (closed : Bool) : Except DocumentError α := do
  let width := r.names.length
  let x ← upTo (if closed then none else some items.length)
    (r.read (.positional items s!"{name} with {counted width}") 0)
  if width < items.length then
    match surplus with
    | .malformed => throw .malformed
    | .refused => Shape.fail (.wrongLength items.length "fewer elements in array")
    | .refusedLate => Shape.fail (.wrongLength items.length s!"{counted width} in sequence")
    | .ignored => return x
  return x

/-- A record is an object, or an array of its fields in their declared order. -/
def ofForm {α : Type} (r : Record α) (name : String) (surplus : Surplus) :
    Form → Except DocumentError α
  | .object fields closed => match surplus with
    | .ignored => r.ofOwnFields fields closed
    | _ => r.ofFields fields closed
  | .array items closed => r.ofItems name surplus items closed
  | f => Shape.mismatch f name

end Record

/-- The contents of a variant with named fields. -/
def Shape.fields {α : Type} (r : Record α) (name : String) :
    Option Json.Form → Except DocumentError α
  | none => fail (.wrongType "unit variant" "struct variant")
  | some f => r.ofForm s!"struct variant {name}" .malformed f

end JsonMapping
