import JsonMapping.Decimal.Double
import JsonMapping.Entries

/-! TOML values, and how the statements of a document build one. A table may be defined once; which
statements may still add to it depends on how it came about. -/

namespace JsonMapping

inductive Toml where
  | string (value : String)
  | integer (value : Int)
  | float (value : Double)
  | bool (value : Bool)
  | dateTime (text : String)
  | array (items : List Toml)
  | table (fields : List (String × Toml))
  /-- A number that has no value. -/
  | unreadable

namespace Toml

/-- A line of a document: a table header, the header of one more table in an array, or a value for
a dotted key. -/
inductive Statement where
  | header (path : List String)
  | arrayHeader (path : List String)
  | pair (path : List String) (key : String) (value : Toml)

/-- How a table came about: on the way to another header, by a dotted key, or by a header or value
of its own. -/
inductive Origin where
  | implied
  | dotted
  | defined
deriving DecidableEq

/-- A part of a document that is being built. -/
inductive Node where
  | closed (value : Toml)
  | table (origin : Origin) (fields : List (String × Node))
  | tables (before : List (List (String × Node))) (last : List (String × Node))

namespace Node

mutual
def value : Node → Toml
  | .closed v => v
  | .table _ fields => .table (fieldValues fields)
  | .tables before last => .array (tableValues before ++ [.table (fieldValues last)])
def fieldValues : List (String × Node) → List (String × Toml)
  | [] => []
  | (key, node) :: rest => (key, value node) :: fieldValues rest
def tableValues : List (List (String × Node)) → List Toml
  | [] => []
  | fields :: rest => .table (fieldValues fields) :: tableValues rest
end

end Node

/-- A table that is being built: how it came about, and its fields. -/
abbrev Open := Origin × List (String × Node)

/-- Changes the table at a path and makes the tables on the way there that are missing. The way of
a dotted key does not lead through a table that has a definition of its own; no way leads through
a value. -/
def changeAt (dotted : Bool) (path : List String) (change : Open → Option Open) (t : Open) :
    Option Open :=
  match path with
  | [] => change t
  | key :: rest => do
    let next ← match Entries.get? t.2 key with
      | none =>
        let (origin, fields) ←
          changeAt dotted rest change (if dotted then .dotted else .implied, [])
        some (Node.table origin fields)
      | some (.closed _) => none
      | some (.tables before last) =>
        let (_, fields) ← changeAt dotted rest change (.defined, last)
        some (.tables before fields)
      | some (.table origin fields) =>
        if dotted && origin == .defined then none
        else
          let (origin, fields) ← changeAt dotted rest change (origin, fields)
          some (.table origin fields)
    some (t.1, Entries.insert t.2 key next)

/-- A new field. A table made by dotted keys grows by dotted keys only, any other by plain ones. -/
def addField (viaDots : Bool) (key : String) (node : Node) (t : Open) : Option Open :=
  if (t.1 == .dotted) != viaDots then none
  else match Entries.get? t.2 key with
    | some _ => none
    | none => some (t.1, Entries.insert t.2 key node)

/-- A value under a dotted key of the given table. -/
def addPair (path : List String) (key : String) (value : Toml) : Open → Option Open :=
  changeAt true path (addField (!path.isEmpty) key (.closed value))

def defineTable (key : String) (t : Open) : Option Open :=
  match Entries.get? t.2 key with
  | none => some (t.1, Entries.insert t.2 key (.table .defined []))
  | some (.table .implied fields) => some (t.1, Entries.insert t.2 key (.table .defined fields))
  | some _ => none

def appendTable (key : String) (t : Open) : Option Open :=
  match Entries.get? t.2 key with
  | none => some (t.1, Entries.insert t.2 key (.tables [] []))
  | some (.tables before last) =>
    some (t.1, Entries.insert t.2 key (.tables (before ++ [last]) []))
  | some _ => none

/-- The whole document so far, and the path of the table that pairs go to. -/
structure Draft where
  root : Open
  current : List String

def Draft.step (d : Draft) : Statement → Option Draft
  | .header path => do
    let key ← path.getLast?
    return ⟨← changeAt false path.dropLast (defineTable key) d.root, path⟩
  | .arrayHeader path => do
    let key ← path.getLast?
    return ⟨← changeAt false path.dropLast (appendTable key) d.root, path⟩
  | .pair path key value => do
    return { d with root := ← changeAt false d.current (addPair path key value) d.root }

/-- The document that statements build. -/
def ofStatements? (statements : List Statement) : Option Toml := do
  let d ← statements.foldlM Draft.step ⟨(.defined, []), []⟩
  return .table (Node.fieldValues d.root.2)

/-- The table that pairs inside braces build. -/
def ofPairs? (pairs : List (List String × String × Toml)) : Option Toml := do
  let t ← pairs.foldlM (fun t (path, key, value) => addPair path key value t) (.defined, [])
  return .table (Node.fieldValues t.2)

end Toml

end JsonMapping
