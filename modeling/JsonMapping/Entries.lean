/-! Ordered entries under text keys. A new key goes to the end; a key that is there keeps its place
and gets the new value. -/

namespace JsonMapping

abbrev Entries (α : Type) := List (String × α)

namespace Entries

variable {α : Type}

def keys (es : Entries α) : List String := es.map Prod.fst

def get? : Entries α → String → Option α
  | [], _ => none
  | (k, v) :: rest, key => if k = key then some v else get? rest key

def insert : Entries α → String → α → Entries α
  | [], key, value => [(key, value)]
  | (k, v) :: rest, key, value =>
    if k = key then (k, value) :: rest else (k, v) :: insert rest key value

def insertAll (es more : Entries α) : Entries α :=
  more.foldl (fun acc (key, value) => acc.insert key value) es

/-- The pairs in order of first arrival, each key with its last value. -/
def ofList (pairs : List (String × α)) : Entries α := insertAll [] pairs

theorem get?_insert (es : Entries α) (key k : String) (value : α) :
    (es.insert key value).get? k = if key = k then some value else es.get? k := by
  induction es with
  | nil => simp [insert, get?]
  | cons e rest ih => grind [insert, get?]

/-- Keys stay as they are, up to a new one at the end. -/
theorem keys_insert (es : Entries α) (key : String) (value : α) :
    (es.insert key value).keys = if key ∈ es.keys then es.keys else es.keys ++ [key] := by
  induction es with
  | nil => simp [insert, keys]
  | cons e rest ih => grind [insert, keys]

theorem get?_eq_none_iff (es : Entries α) (key : String) :
    es.get? key = none ↔ key ∉ es.keys := by
  induction es with
  | nil => simp [get?, keys]
  | cons e rest ih => grind [get?, keys]

end Entries

end JsonMapping
