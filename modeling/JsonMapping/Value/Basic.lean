import JsonMapping.Json.Basic

/-! Values that mappers work on: JSON values with ordered maps, and instances of models. -/

namespace JsonMapping

/-- A model is known by the qualified name of its type, and holds the fields that were set. -/
inductive Value where
  | null
  | bool (value : Bool)
  | number (value : Number)
  | string (value : String)
  | map (entries : List (String × Value))
  | list (items : List Value)
  | model (type : String) (fields : List (String × Value))
deriving BEq, Inhabited

/-- What sort of value it is, as far as messages tell. -/
inductive ValueKind where
  | null
  | boolean
  | number
  | string
  | map
  | list
  | model (type : String)
deriving DecidableEq

def ValueKind.name : ValueKind → String
  | .null => "null"
  | .boolean => "boolean"
  | .number => "number"
  | .string => "string"
  | .map => "map"
  | .list => "list"
  | .model type => s!"model `{type}`"

namespace Value

def kind : Value → ValueKind
  | .null => .null
  | .bool _ => .boolean
  | .number _ => .number
  | .string _ => .string
  | .map _ => .map
  | .list _ => .list
  | .model type _ => .model type

def isNull : Value → Bool
  | .null => true
  | _ => false

def string? : Value → Option String
  | .string s => some s
  | _ => none

def bool? : Value → Option Bool
  | .bool b => some b
  | _ => none

def map? : Value → Option (Entries Value)
  | .map entries => some entries
  | _ => none

def list? : Value → Option (List Value)
  | .list items => some items
  | _ => none

/-- The type and the fields of a model. -/
def model? : Value → Option (String × Entries Value)
  | .model type fields => some (type, fields)
  | _ => none

/-- The value under a key; null where there is none. -/
def ofEntry (entries : Entries Value) (key : String) : Value := (entries.get? key).getD .null

mutual
/-- How deep maps, lists and models are nested. -/
def height : Value → Nat
  | .map entries => heightEntries entries + 1
  | .list items => heightItems items + 1
  | .model _ fields => heightEntries fields + 1
  | _ => 0
def heightItems : List Value → Nat
  | [] => 0
  | v :: rest => max (height v) (heightItems rest)
def heightEntries : List (String × Value) → Nat
  | [] => 0
  | (_, v) :: rest => max (height v) (heightEntries rest)
end

theorem height_lt_of_mem_list {v : Value} {items : List Value} (h : v ∈ items) :
    v.height < (Value.list items).height := by
  have : v.height ≤ heightItems items := by
    induction items with
    | nil => simp at h
    | cons u rest ih => grind [heightItems]
  simp only [height]; omega

theorem height_le_of_get? {key : String} {v : Value} {entries : Entries Value}
    (h : entries.get? key = some v) : v.height ≤ heightEntries entries := by
  induction entries with
  | nil => simp [Entries.get?] at h
  | cons e rest ih => grind [Entries.get?, heightEntries]

end Value

end JsonMapping
