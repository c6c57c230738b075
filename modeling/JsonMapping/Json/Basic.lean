import JsonMapping.Decimal.Double
import JsonMapping.Entries

/-! JSON documents with ordered objects. A number is an integer of 64 bits, with or without sign,
or a double. -/

namespace JsonMapping

inductive Number where
  | integer (value : Int)
  | real (value : Double)
deriving DecidableEq

/-- Whether 64 bits hold an integer, with or without sign. -/
def Number.fits (n : Int) : Bool := -9223372036854775808 ≤ n && n ≤ 18446744073709551615

inductive Json where
  | null
  | bool (value : Bool)
  | number (value : Number)
  | string (value : String)
  | array (items : List Json)
  | object (fields : List (String × Json))
deriving BEq

namespace Json

mutual
/-- Every object with its repeated keys merged: the last value, at the place of the first. -/
def merged : Json → Json
  | .array items => .array (mergedItems items)
  | .object fields => .object (Entries.ofList (mergedFields fields))
  | j => j
def mergedItems : List Json → List Json
  | [] => []
  | j :: rest => merged j :: mergedItems rest
def mergedFields : List (String × Json) → List (String × Json)
  | [] => []
  | (key, j) :: rest => (key, merged j) :: mergedFields rest
end

def ofNat (n : Nat) : Json := .number (.integer n)

/-- A text, or null for none. -/
def ofOption (text : Option String) : Json := (text.map Json.string).getD .null

/-- The value under a key of an object. -/
def get? (j : Json) (key : String) : Option Json :=
  match j with
  | .object fields => Entries.get? fields key
  | _ => none

end Json

end JsonMapping
