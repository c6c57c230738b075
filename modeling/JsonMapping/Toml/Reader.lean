import JsonMapping.Json.Reader
import JsonMapping.Toml.Scalar

/-! Reading TOML text. Each reader gives what it read and the rest of the text, and nothing where
the text is no TOML. -/

namespace JsonMapping.Toml

/-! ## Blanks and comments -/

/-- Characters that may stand in comments and strings as they are. -/
def isPlain (c : Char) : Bool := c == '\t' || (0x20 ≤ c.toNat && c.toNat ≠ 0x7F)

/-- Skips blanks, line ends and comments. -/
def skipLines (inComment : Bool) : List Char → Option (List Char)
  | [] => some []
  | '\n' :: rest => skipLines false rest
  | '\x0d' :: '\n' :: rest => skipLines false rest
  | c :: rest =>
    if inComment then if isPlain c then skipLines true rest else none
    else if isBlank c then skipLines false rest
    else if c = '#' then skipLines true rest
    else some (c :: rest)

/-- Skips blanks and a comment up to the end of a line, and the line end. -/
def endLine (inComment : Bool) : List Char → Option (List Char)
  | [] => some []
  | '\n' :: rest => some rest
  | '\x0d' :: '\n' :: rest => some rest
  | c :: rest =>
    if inComment then if isPlain c then endLine true rest else none
    else if isBlank c then endLine false rest
    else if c = '#' then endLine true rest
    else none

/-! ## Strings -/

/-- The character of a hexadecimal code; surrogates and codes beyond the last have none. -/
def codeChar? (digits : List Char) : Option Char := do
  let n ← Json.hexNumber? digits
  if h : n.isValidChar then some (Char.ofNatAux n h) else none

def escaped? : Char → Option Char
  | 'e' => some '\x1b'
  | '/' => none
  | c => Json.escaped? c

/-- An escape behind its backslash. -/
def readEscape : List Char → Option (Char × List Char)
  | 'x' :: a :: b :: rest => (codeChar? [a, b]).map (·, rest)
  | 'u' :: a :: b :: c :: d :: rest => (codeChar? [a, b, c, d]).map (·, rest)
  | 'U' :: a :: b :: c :: d :: e :: f :: g :: h :: rest =>
    (codeChar? [a, b, c, d, e, f, g, h]).map (·, rest)
  | c :: rest => (escaped? c).map (·, rest)
  | [] => none

/-- The rest of a string in quotes. The fuel bounds the characters. -/
def readBasic : Nat → List Char → Option (List Char × List Char)
  | 0, _ => none
  | fuel + 1, cs => match cs with
    | [] => none
    | '"' :: rest => some ([], rest)
    | '\\' :: rest => do
      let (c, rest) ← readEscape rest
      let (text, rest) ← readBasic fuel rest
      return (c :: text, rest)
    | c :: rest =>
      if isPlain c then (readBasic fuel rest).map fun (text, rest) => (c :: text, rest) else none

/-- The rest of a string in apostrophes, which has no escapes. -/
def readLiteral : List Char → Option (List Char × List Char)
  | [] => none
  | c :: rest =>
    if c = '\'' then some ([], rest)
    else if isPlain c then (readLiteral rest).map fun (text, rest) => (c :: text, rest) else none

/-- Skips a line end right behind the opening quotes. -/
def skipFirstLine : List Char → List Char
  | '\n' :: rest => rest
  | '\x0d' :: '\n' :: rest => rest
  | cs => cs

def startsLine (cs : List Char) : Bool :=
  match skipBlank cs with
  | '\n' :: _ => true
  | '\x0d' :: '\n' :: _ => true
  | _ => false

/-- Skips blanks and line ends. -/
def skipLineSpace : List Char → List Char
  | [] => []
  | '\x0d' :: '\n' :: rest => skipLineSpace rest
  | c :: rest => if isBlank c || c == '\n' then skipLineSpace rest else c :: rest

/-- Up to two quotes in front of three closing ones belong to the string. -/
def closing? (quote : Char) (cs : List Char) : Option (List Char × List Char) :=
  let run := (cs.takeWhile (· == quote)).length
  if run < 3 then none
  else
    let kept := min (run - 3) 2
    some (List.replicate kept quote, cs.drop (kept + 3))

/-- The rest of a string in three quotes, which keeps its line ends as they are. A backslash at the
end of a line swallows the space up to the next visible character. -/
def readLongBasic : Nat → List Char → Option (List Char × List Char)
  | 0, _ => none
  | fuel + 1, cs => match closing? '"' cs with
    | some found => some found
    | none => match cs with
      | [] => none
      | '\\' :: rest =>
        if startsLine rest then readLongBasic fuel (skipLineSpace rest)
        else do
          let (c, rest) ← readEscape rest
          let (text, rest) ← readLongBasic fuel rest
          return (c :: text, rest)
      | '\x0d' :: '\n' :: rest =>
        (readLongBasic fuel rest).map fun (text, rest) => ('\x0d' :: '\n' :: text, rest)
      | c :: rest =>
        if isPlain c || c == '\n' then
          (readLongBasic fuel rest).map fun (text, rest) => (c :: text, rest)
        else none

def readLongLiteral : Nat → List Char → Option (List Char × List Char)
  | 0, _ => none
  | fuel + 1, cs => match closing? '\'' cs with
    | some found => some found
    | none => match cs with
      | [] => none
      | '\x0d' :: '\n' :: rest =>
        (readLongLiteral fuel rest).map fun (text, rest) => ('\x0d' :: '\n' :: text, rest)
      | c :: rest =>
        if isPlain c || c == '\n' then
          (readLongLiteral fuel rest).map fun (text, rest) => (c :: text, rest)
        else none

/-- A string on one line, for keys. -/
def readString? : List Char → Option (List Char × List Char)
  | '"' :: rest => readBasic (rest.length + 1) rest
  | '\'' :: rest => readLiteral rest
  | _ => none

def readLongString? : List Char → Option (List Char × List Char)
  | '"' :: '"' :: '"' :: rest => readLongBasic (rest.length + 1) (skipFirstLine rest)
  | '\'' :: '\'' :: '\'' :: rest => readLongLiteral (rest.length + 1) (skipFirstLine rest)
  | _ => none

/-! ## Keys -/

def isKeyChar (c : Char) : Bool := c.isAlphanum || c == '_' || c == '-'

def readSimpleKey (cs : List Char) : Option (String × List Char) :=
  match cs.takeWhile isKeyChar with
  | [] => (readString? cs).map fun (text, rest) => (String.ofList text, rest)
  | word => some (String.ofList word, cs.dropWhile isKeyChar)

/-- At most `limit` keys with dots between them, blanks around each. -/
def readKeys : Nat → List Char → Option (List String × List Char)
  | 0, _ => none
  | limit + 1, cs => do
    let (key, rest) ← readSimpleKey (skipBlank cs)
    match skipBlank rest with
    | '.' :: rest =>
      let (keys, rest) ← readKeys limit rest
      return (key :: keys, rest)
    | rest => return ([key], rest)

/-- How deep arrays and inline tables may nest, and how long a dotted key may be. -/
def nestingLimit : Nat := 80

def readKey : List Char → Option (List String × List Char) := readKeys nestingLimit

/-! ## Values -/

mutual
def readValue : Nat → Nat → List Char → Option (Toml × List Char)
  | 0, _, _ => none
  | fuel + 1, depth, cs => match cs with
    | '[' :: rest => do
      if depth = 0 then none
      let (items, rest) ← readItems fuel (depth - 1) rest
      return (.array items, rest)
    | '\x7b' :: rest => do
      if depth = 0 then none
      let (pairs, rest) ← readPairs fuel (depth - 1) rest
      return (← ofPairs? pairs, rest)
    | _ => match (readLongString? cs).or (readString? cs) with
      | some (text, rest) => some (.string (String.ofList text), rest)
      | none =>
        let (token, rest) := cutScalar cs
        (scalar? token).map (·, rest)

/-- The rest of an array; a comma may follow the last item. -/
def readItems : Nat → Nat → List Char → Option (List Toml × List Char)
  | 0, _, _ => none
  | fuel + 1, depth, cs => do
    match ← skipLines false cs with
    | ']' :: rest => return ([], rest)
    | cs =>
      let (item, rest) ← readValue fuel depth cs
      match ← skipLines false rest with
      | ',' :: rest =>
        let (items, rest) ← readItems fuel depth rest
        return (item :: items, rest)
      | ']' :: rest => return ([item], rest)
      | _ => none

/-- The rest of a table in braces; a comma may follow the last pair. Lines may end anywhere but
inside a key. -/
def readPairs : Nat → Nat → List Char → Option (List (List String × String × Toml) × List Char)
  | 0, _, _ => none
  | fuel + 1, depth, cs => do
    match ← skipLines false cs with
    | '\x7d' :: rest => return ([], rest)
    | cs =>
      let (keys, rest) ← readKey cs
      let key ← keys.getLast?
      let '=' :: rest ← skipLines false rest | none
      let (value, rest) ← readValue fuel depth (← skipLines false rest)
      match ← skipLines false rest with
      | ',' :: rest =>
        let (pairs, rest) ← readPairs fuel depth rest
        return ((keys.dropLast, key, value) :: pairs, rest)
      | '\x7d' :: rest => return ([(keys.dropLast, key, value)], rest)
      | _ => none
end

/-! ## Documents -/

def readStatement : List Char → Option (Statement × List Char)
  | '[' :: '[' :: rest => do
    let (keys, rest) ← readKey rest
    let ']' :: ']' :: rest := rest | none
    return (.arrayHeader keys, rest)
  | '[' :: rest => do
    let (keys, rest) ← readKey rest
    let ']' :: rest := rest | none
    return (.header keys, rest)
  | cs => do
    let (keys, rest) ← readKey cs
    let key ← keys.getLast?
    let '=' :: rest := rest | none
    let (value, rest) ← readValue (2 * cs.length + 2) nestingLimit (skipBlank rest)
    return (.pair keys.dropLast key value, rest)

/-- Statements on lines of their own. -/
def readStatements : Nat → List Char → Option (List Statement)
  | 0, _ => none
  | fuel + 1, cs => do
    match ← skipLines false cs with
    | [] => return []
    | cs =>
      let (statement, rest) ← readStatement cs
      return statement :: (← readStatements fuel (← endLine false rest))

/-- The document that a text writes; a byte order mark may stand in front. -/
def parse? (text : String) : Option Toml := do
  let cs := match text.toList with
    | '\uFEFF' :: rest => rest
    | cs => cs
  ofStatements? (← readStatements (cs.length + 1) cs)

end JsonMapping.Toml
