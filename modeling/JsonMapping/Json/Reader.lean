import JsonMapping.Json.Form

/-! Reading JSON text. Each reader gives what it read and the rest of the text, and no rest where
the text goes wrong. -/

namespace JsonMapping.Json

def isSpace (c : Char) : Bool := c == ' ' || c == '\n' || c == '\t' || c == '\x0d'

def skipSpace (cs : List Char) : List Char := cs.dropWhile isSpace

/-! ## Strings -/

def hexValue? (c : Char) : Option Nat :=
  if c.isDigit then some (c.toNat - '0'.toNat)
  else if 'a' ≤ c && c ≤ 'f' then some (c.toNat - 'a'.toNat + 10)
  else if 'A' ≤ c && c ≤ 'F' then some (c.toNat - 'A'.toNat + 10)
  else none

/-- The number that hexadecimal digits write. -/
def hexNumber? (digits : List Char) : Option Nat :=
  digits.foldlM (fun n c => (hexValue? c).map (n * 16 + ·)) 0

/-- What a backslash and one character stand for. -/
def escaped? : Char → Option Char
  | '"' => some '"'
  | '\\' => some '\\'
  | '/' => some '/'
  | 'b' => some '\x08'
  | 'f' => some '\x0c'
  | 'n' => some '\n'
  | 'r' => some '\x0d'
  | 't' => some '\t'
  | _ => none

/-- The rest of a string behind its opening quote. -/
def readText : List Char → Option (List TextUnit × List Char)
  | [] => none
  | '"' :: rest => some ([], rest)
  | '\\' :: 'u' :: a :: b :: c :: d :: rest => do
    let n ← hexNumber? [a, b, c, d]
    let (units, rest) ← readText rest
    return (.code n :: units, rest)
  | '\\' :: e :: rest => do
    let c ← escaped? e
    let (units, rest) ← readText rest
    return (.char c :: units, rest)
  | c :: rest =>
    if c = '\\' ∨ c.toNat < 0x20 then none
    else (readText rest).map fun (units, rest) => (.char c :: units, rest)

/-- A key after any space. -/
def readKey (cs : List Char) : Option (Option String × List Char) :=
  match skipSpace cs with
  | '"' :: rest => (readText rest).map fun (units, rest) => (text? units, rest)
  | _ => none

/-! ## Numbers -/

def takeDigits (cs : List Char) : List Char × List Char :=
  (cs.takeWhile Char.isDigit, cs.dropWhile Char.isDigit)

/-- One zero, or digits that start with another digit. -/
def readWhole (cs : List Char) : Option (List Char × List Char) :=
  match takeDigits cs with
  | ([], _) => none
  | ('0' :: _ :: _, _) => none
  | found => some found

/-- A point and at least one digit, or nothing. -/
def readFraction : List Char → Option (List Char × List Char)
  | '.' :: rest => match takeDigits rest with
    | ([], _) => none
    | found => some found
  | cs => some ([], cs)

/-- The sign in an exponent: whether it is negative. -/
def readSign : List Char → Bool × List Char
  | '-' :: rest => (true, rest)
  | '+' :: rest => (false, rest)
  | cs => (false, cs)

def readExponent : List Char → Option (Bool × List Char × List Char)
  | [] => some (false, [], [])
  | c :: rest =>
    if c = 'e' ∨ c = 'E' then
      let (negative, rest) := readSign rest
      match takeDigits rest with
      | ([], _) => none
      | (digits, rest) => some (negative, digits, rest)
    else some (false, [], c :: rest)

def readMagnitude (negative : Bool) (cs : List Char) : Option (NumberForm × List Char) := do
  let (whole, rest) ← readWhole cs
  let (fraction, rest) ← readFraction rest
  let (exponentNegative, exponent, rest) ← readExponent rest
  return ({ negative, whole, fraction, exponentNegative, exponent }, rest)

def readNumber : List Char → Option (NumberForm × List Char)
  | '-' :: rest => readMagnitude true rest
  | cs => readMagnitude false cs

/-! ## Values -/

/-- An array or object under a limit of depth. -/
def limited (depth : Nat) (closed : Bool) (form : Form) : Form :=
  if depth = 0 then if closed then .unreadable else .broken else form

mutual
/-- A value after any space, where arrays and objects may nest `depth` deep. The fuel bounds the
calls in one another. -/
def readValue : Nat → Nat → List Char → Form × Option (List Char)
  | 0, _, _ => (.broken, none)
  | fuel + 1, depth, cs => match skipSpace cs with
    | 'n' :: 'u' :: 'l' :: 'l' :: rest => (.null, some rest)
    | 't' :: 'r' :: 'u' :: 'e' :: rest => (.bool true, some rest)
    | 'f' :: 'a' :: 'l' :: 's' :: 'e' :: rest => (.bool false, some rest)
    | '"' :: rest => match readText rest with
      | some (units, rest) => (((text? units).map .string).getD .unreadable, some rest)
      | none => (.broken, none)
    | '[' :: rest =>
      let (items, rest) := match skipSpace rest with
        | ']' :: rest => ([], some rest)
        | rest => readItems fuel (depth - 1) rest
      (limited depth rest.isSome (.array items rest.isSome), rest)
    | '\x7b' :: rest =>
      let (fields, rest) := match skipSpace rest with
        | '\x7d' :: rest => ([], some rest)
        | rest => readFields fuel (depth - 1) rest
      (limited depth rest.isSome (.object fields rest.isSome), rest)
    | cs => match readNumber cs with
      | some (n, rest) => ((n.value?.map .number).getD .unreadable, some rest)
      | none => (.broken, none)

/-- One item or more, and the bracket behind them. -/
def readItems : Nat → Nat → List Char → List Form × Option (List Char)
  | 0, _, _ => ([], none)
  | fuel + 1, depth, cs => match readValue fuel depth cs with
    | (item, none) => ([item], none)
    | (item, some rest) => match skipSpace rest with
      | ',' :: rest =>
        let (items, rest) := readItems fuel depth rest
        (item :: items, rest)
      | ']' :: rest => ([item], some rest)
      | _ => ([item], none)

/-- One field or more, and the brace behind them. -/
def readFields : Nat → Nat → List Char → List (Option String × Form) × Option (List Char)
  | 0, _, _ => ([], none)
  | fuel + 1, depth, cs => match readKey cs with
    | none => ([], none)
    | some (key, rest) => match skipSpace rest with
      | ':' :: rest => match readValue fuel depth rest with
        | (value, none) => ([(key, value)], none)
        | (value, some rest) => match skipSpace rest with
          | ',' :: rest =>
            let (fields, rest) := readFields fuel depth rest
            ((key, value) :: fields, rest)
          | '\x7d' :: rest => ([(key, value)], some rest)
          | _ => ([(key, value)], none)
      | _ => ([(key, .broken)], none)
end

/-- Texts that differ only in the spaces before them are read alike. -/
theorem readValue_congr {cs ds : List Char} (h : skipSpace ds = skipSpace cs) (fuel depth : Nat) :
    readValue fuel depth ds = readValue fuel depth cs := by
  cases fuel with
  | zero => simp [readValue]
  | succ fuel => simp only [readValue, h]

theorem readItems_congr {cs ds : List Char} (h : skipSpace ds = skipSpace cs) (fuel depth : Nat) :
    readItems fuel depth ds = readItems fuel depth cs := by
  cases fuel with
  | zero => simp [readItems]
  | succ fuel => simp only [readItems, readValue_congr h]

theorem readFields_congr {cs ds : List Char} (h : skipSpace ds = skipSpace cs) (fuel depth : Nat) :
    readFields fuel depth ds = readFields fuel depth cs := by
  cases fuel with
  | zero => simp [readFields]
  | succ fuel => simp only [readFields, readKey, h]

/-- How deep a document may nest. -/
def nestingLimit : Nat := 127

/-- The form of a text, and whether nothing but space is behind it. No call chain is longer than
twice the text. -/
def Form.ofText (text : String) : Form × Bool :=
  let cs := text.toList
  let (form, rest) := readValue (2 * cs.length + 2) nestingLimit cs
  (form, rest.any fun rest => (skipSpace rest).isEmpty)

/-- The document that a text writes, with repeated keys kept. -/
def read? (text : String) : Option Json :=
  match Form.ofText text with
  | (form, true) => form.value?
  | (_, false) => none

/-- The document that a text writes; of a repeated key the last value counts. -/
def parse? (text : String) : Option Json := (read? text).map merged

end JsonMapping.Json
