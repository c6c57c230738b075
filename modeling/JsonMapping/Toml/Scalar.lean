import JsonMapping.Json.Form
import JsonMapping.Text.Blank
import JsonMapping.Toml.Basic

/-! TOML values without quotes or brackets: booleans, numbers, dates and times. A number may look
right to the reader and still have no value; that is a fault only where somebody asks for it. -/

namespace JsonMapping.Toml

/-! ## Numbers -/

/-- Text without its underscores, each of which must stand between two digits. -/
def joinParts? (isDigit : Char → Bool) (cs : List Char) : Option (List Char) :=
  let parts := Text.pieces '_' cs
  if parts.all (!·.isEmpty) && (parts.drop 1).all (·.head?.any isDigit) &&
      parts.dropLast.all (·.getLast?.any isDigit) then
    some parts.flatten
  else none

/-- Digits without the underscores between them. -/
def joinDigits? (isDigit : Char → Bool) (cs : List Char) : Option (List Char) := do
  let digits ← joinParts? isDigit cs
  if digits.all isDigit then some digits else none

/-- Decimal digits that do not start with a needless zero. -/
def plainDigits? (cs : List Char) : Option (List Char) := do
  let digits ← joinDigits? Char.isDigit cs
  if digits.length > 1 && digits.head? == some '0' then none else some digits

def digitOf (c : Char) : Nat :=
  if c.isDigit then c.toNat - '0'.toNat else c.toLower.toNat - 'a'.toNat + 10

def digitIn (base : Nat) (c : Char) : Bool :=
  (c.isDigit || ('a' ≤ c.toLower && c.toLower ≤ 'f')) && digitOf c < base

/-- An integer has a value if 128 bits hold it, with or without sign. -/
def ofInt (n : Int) : Toml :=
  if -170141183460469231731687303715884105728 ≤ n ∧ n < 340282366920938463463374607431768211456
  then .integer n else .unreadable

/-- Digits in a base. No digits at all are written well, but have no value. -/
def inBase? (base : Nat) (cs : List Char) : Option Toml :=
  if cs.isEmpty then some .unreadable
  else (joinDigits? (digitIn base) cs).map fun digits =>
    ofInt (digits.foldl (fun n c => n * base + digitOf c) 0 : Nat)

/-- A sign, and what it stands before. -/
def cutSign : List Char → Bool × List Char
  | '-' :: rest => (true, rest)
  | '+' :: rest => (false, rest)
  | cs => (false, cs)

/-- The text before the first character of a kind, and the text behind it if there is one. -/
def cutAt (p : Char → Bool) (cs : List Char) : List Char × Option (List Char) :=
  match cs.dropWhile (!p ·) with
  | [] => (cs, none)
  | _ :: rest => (cs.takeWhile (!p ·), some rest)

/-- A decimal integer. Behind the first underscore it is written well whatever stands between the
digits at its underscores, but has a value only if that is digits. -/
def integer? (negative : Bool) (cs : List Char) : Option Toml := do
  let rest := cs.dropWhile Char.isDigit
  if cs.head? == some '0' && cs.length > 1 then none
  if rest.contains ' ' || rest.head?.any (· != '_') then none
  let text ← joinParts? (digitIn 16) cs
  if text.all Char.isDigit then
    let n : Int := Json.ofDigits text
    return ofInt (if negative then -n else n)
  else return .unreadable

def exponent? (cs : List Char) : Option Int := do
  let (negative, digits) := cutSign cs
  let n : Int := Json.ofDigits (← joinDigits? Char.isDigit digits)
  return if negative then -n else n

/-- A decimal number with a fraction, an exponent or both. It has no value if only infinity is as
near. -/
def float? (negative : Bool) (cs : List Char) : Option Toml := do
  let (mantissa, power) := cutAt (fun c => c == 'e' || c == 'E') cs
  let (whole, fraction) := cutAt (· == '.') mantissa
  let whole ← plainDigits? whole
  let fraction ← fraction.elim (some []) (joinDigits? Char.isDigit)
  let power ← power.elim (some 0) exponent?
  match Double.nearest? negative (Json.ofDigits (whole ++ fraction)) (power - fraction.length) with
  | some d => return .float d
  | none => return .unreadable

/-- A decimal number, which is no integer if it has a point or an exponent. -/
def decimal? (cs : List Char) : Option Toml :=
  let (negative, body) := cutSign cs
  if body.any fun c => c == '.' || c == 'e' || c == 'E' then float? negative body
  else integer? negative body

def special? (cs : List Char) : Option Toml :=
  let (negative, body) := cutSign cs
  if body = ['i', 'n', 'f'] then
    some (.float (.ofFloat (if negative then -(1.0 / 0.0) else 1.0 / 0.0)))
  else if body = ['n', 'a', 'n'] then some (.float (.ofFloat (0.0 / 0.0)))
  else none

/-! ## Dates and times

Each reader takes its part from the front and gives the rest. -/

def pair? (low high : Nat) : List Char → Option (Nat × List Char)
  | a :: b :: rest =>
    let n := digitOf a * 10 + digitOf b
    if a.isDigit && b.isDigit && low ≤ n && n ≤ high then some (n, rest) else none
  | _ => none

def daysIn (year month : Nat) : Nat :=
  if month = 2 then
    if year % 4 = 0 ∧ (year % 100 ≠ 0 ∨ year % 400 = 0) then 29 else 28
  else if month ∈ [4, 6, 9, 11] then 30 else 31

def date? (cs : List Char) : Option (List Char) := do
  let (century, rest) ← pair? 0 99 cs
  let (year, rest) ← pair? 0 99 rest
  let '-' :: rest := rest | none
  let (month, rest) ← pair? 1 12 rest
  let '-' :: rest := rest | none
  let (_, rest) ← pair? 1 (daysIn (century * 100 + year) month) rest
  return rest

/-- Seconds and their fraction may be absent. -/
def time? (cs : List Char) : Option (List Char) := do
  let (_, rest) ← pair? 0 23 cs
  let ':' :: rest := rest | none
  let (_, rest) ← pair? 0 59 rest
  match rest with
  | ':' :: rest =>
    let (_, rest) ← pair? 0 60 rest
    match rest with
    | '.' :: rest =>
      if rest.head?.any Char.isDigit then some (rest.dropWhile Char.isDigit) else none
    | rest => some rest
  | rest => some rest

def offset? : List Char → Option (List Char)
  | [] => some []
  | c :: rest =>
    if c = 'Z' ∨ c = 'z' then some rest
    else if c = '+' ∨ c = '-' then do
      let (_, rest) ← pair? 0 23 rest
      let ':' :: rest := rest | none
      let (_, rest) ← pair? 0 59 rest
      return rest
    else some (c :: rest)

/-- A date, a time, or a date with a time and perhaps an offset. -/
def dateTime? (cs : List Char) : Option Toml :=
  let whole (rest : Option (List Char)) : Option Toml :=
    if rest = some [] then some (.dateTime (String.ofList cs)) else none
  match date? cs with
  | none => whole (time? cs)
  | some [] => whole (some [])
  | some (c :: rest) =>
    if c = 'T' ∨ c = 't' ∨ c = ' ' then whole ((time? rest).bind offset?) else none

/-! ## Tokens -/

def isBlank (c : Char) : Bool := c == ' ' || c == '\t'

def skipBlank (cs : List Char) : List Char := cs.dropWhile isBlank

/-- Characters that do not end a word. -/
def isWordChar (c : Char) : Bool :=
  !(isBlank c || ['\n', '\x0d', '#', ',', '=', '[', ']', '\x7b', '\x7d'].contains c)

/-- Whether a word without quotes in front stands here. -/
def startsWord (cs : List Char) : Bool :=
  cs.head?.any fun c => isWordChar c && c != '"' && c != '\''

/-- The characters of a scalar, and the rest. Words with blanks between them are one scalar, as a
date and the time with it are. -/
def cutScalar : List Char → List Char × List Char
  | [] => ([], [])
  | c :: rest =>
    if isWordChar c || (isBlank c && startsWord (skipBlank rest)) then
      let (token, rest) := cutScalar rest
      (c :: token, rest)
    else ([], c :: rest)

/-- A value written without quotes or brackets. -/
def scalar? (token : List Char) : Option Toml :=
  match token with
  | ['t', 'r', 'u', 'e'] => some (.bool true)
  | ['f', 'a', 'l', 's', 'e'] => some (.bool false)
  | '0' :: 'x' :: digits => inBase? 16 digits
  | '0' :: 'o' :: digits => inBase? 8 digits
  | '0' :: 'b' :: digits => inBase? 2 digits
  | _ => (special? token).or ((decimal? token).or (dateTime? token))

end JsonMapping.Toml
