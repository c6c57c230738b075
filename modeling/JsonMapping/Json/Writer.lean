import JsonMapping.Json.Basic
import JsonMapping.Decimal.Shortest

/-! Writing JSON text, compact or indented. A writer puts its text in front of the text that
follows. -/

namespace JsonMapping

def Number.chars : Number → List Char
  | .integer n => (toString n).toList
  | .real d => if d.isFinite then Decimal.chars d else "null".toList

namespace Json

/-- Quotes, backslashes and control characters are escaped; all else stands for itself. -/
def escape (c : Char) : List Char :=
  if c = '"' then ['\\', '"']
  else if c = '\\' then ['\\', '\\']
  else if c = '\x08' then ['\\', 'b']
  else if c = '\x0c' then ['\\', 'f']
  else if c = '\n' then ['\\', 'n']
  else if c = '\x0d' then ['\\', 'r']
  else if c = '\t' then ['\\', 't']
  else if c.toNat < 0x20 then
    ['\\', 'u', '0', '0', Nat.digitChar (c.toNat / 16), Nat.digitChar (c.toNat % 16)]
  else [c]

def writeText (s : String) (rest : List Char) : List Char :=
  '"' :: s.toList.flatMap escape ++ '"' :: rest

mutual
def write : Json → List Char → List Char
  | .null, rest => 'n' :: 'u' :: 'l' :: 'l' :: rest
  | .bool true, rest => 't' :: 'r' :: 'u' :: 'e' :: rest
  | .bool false, rest => 'f' :: 'a' :: 'l' :: 's' :: 'e' :: rest
  | .number n, rest => n.chars ++ rest
  | .string s, rest => writeText s rest
  | .array [], rest => '[' :: ']' :: rest
  | .array (j :: items), rest => '[' :: write j (writeItems items (']' :: rest))
  | .object [], rest => '\x7b' :: '\x7d' :: rest
  | .object ((key, j) :: fields), rest =>
    '\x7b' :: writeText key (':' :: write j (writeFields fields ('\x7d' :: rest)))
def writeItems : List Json → List Char → List Char
  | [], rest => rest
  | j :: items, rest => ',' :: write j (writeItems items rest)
def writeFields : List (String × Json) → List Char → List Char
  | [], rest => rest
  | (key, j) :: fields, rest => ',' :: writeText key (':' :: write j (writeFields fields rest))
end

/-- The document on one line, without spaces. -/
def compact (j : Json) : String := String.ofList (write j [])

/-! ## Indented -/

/-- A new line at a depth of nesting, two spaces a level. -/
def newLine (depth : Nat) (rest : List Char) : List Char :=
  '\n' :: List.replicate (2 * depth) ' ' ++ rest

mutual
def writeIndented (depth : Nat) : Json → List Char → List Char
  | .array (j :: items), rest =>
    '[' :: newLine (depth + 1) (writeIndented (depth + 1) j
      (indentedItems (depth + 1) items (newLine depth (']' :: rest))))
  | .object ((key, j) :: fields), rest =>
    '\x7b' :: newLine (depth + 1) (writeText key (':' :: ' ' :: writeIndented (depth + 1) j
      (indentedFields (depth + 1) fields (newLine depth ('\x7d' :: rest)))))
  | .null, rest => write .null rest
  | .bool b, rest => write (.bool b) rest
  | .number n, rest => write (.number n) rest
  | .string s, rest => write (.string s) rest
  | .array [], rest => write (.array []) rest
  | .object [], rest => write (.object []) rest
def indentedItems (depth : Nat) : List Json → List Char → List Char
  | [], rest => rest
  | j :: items, rest =>
    ',' :: newLine depth (writeIndented depth j (indentedItems depth items rest))
def indentedFields (depth : Nat) : List (String × Json) → List Char → List Char
  | [], rest => rest
  | (key, j) :: fields, rest =>
    ',' :: newLine depth (writeText key (':' :: ' ' ::
      writeIndented depth j (indentedFields depth fields rest)))
end

/-- The document with a line for each item and field. -/
def pretty (j : Json) : String := String.ofList (writeIndented 0 j [])

end Json

end JsonMapping
