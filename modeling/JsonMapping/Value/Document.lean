import JsonMapping.Run.Error

/-! Values and JSON documents. Every document is a value; a value is a document unless a model is
in it. -/

namespace JsonMapping.Value

mutual
def ofJson : Json → Value
  | .null => .null
  | .bool b => .bool b
  | .number n => .number n
  | .string s => .string s
  | .array items => .list (ofJsonItems items)
  | .object fields => .map (ofJsonFields fields)
def ofJsonItems : List Json → List Value
  | [] => []
  | j :: rest => ofJson j :: ofJsonItems rest
def ofJsonFields : List (String × Json) → List (String × Value)
  | [] => []
  | (key, j) :: rest => (key, ofJson j) :: ofJsonFields rest
end

mutual
/-- The document; the first model from the left has none. -/
def toJson : Value → Except RunError Json
  | .null => .ok .null
  | .bool b => .ok (.bool b)
  | .number n => .ok (.number n)
  | .string s => .ok (.string s)
  | .map entries => (toJsonEntries entries).map .object
  | .list items => (toJsonItems items).map .array
  | .model type _ => .error (.notSerializable type)
def toJsonItems : List Value → Except RunError (List Json)
  | [] => .ok []
  | v :: rest => do return (← toJson v) :: (← toJsonItems rest)
def toJsonEntries : List (String × Value) → Except RunError (List (String × Json))
  | [] => .ok []
  | (key, v) :: rest => do return (key, ← toJson v) :: (← toJsonEntries rest)
end

end JsonMapping.Value
