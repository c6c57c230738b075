import JsonMapping.Json.Basic

/-! The form of a JSON text: what it writes, from left to right, as far as it is well written. A
text may go wrong behind the part that somebody asks for, and a part that nobody asks for may be
JSON without a value: a number that is too large, a surrogate that stands alone, or arrays and
objects nested too deep. -/

namespace JsonMapping.Json

/-! ## Numbers -/

/-- The parts of a written number; the digits of a fraction or exponent are empty where there is
none. -/
structure NumberForm where
  negative : Bool
  whole : List Char
  fraction : List Char
  exponentNegative : Bool
  exponent : List Char

def digitValue (c : Char) : Nat := c.toNat - '0'.toNat

def ofDigits (digits : List Char) : Nat := digits.foldl (fun n c => n * 10 + digitValue c) 0

/-- Extends `n` by the digits that keep it below `2 ^ 64`, up to the first that does not. Gives the
number of digits left over, too. -/
def absorb (n : Nat) : List Char → Nat × Nat
  | [] => (n, 0)
  | c :: rest =>
    let next := n * 10 + digitValue c
    if next < Nat.pow 2 64 then absorb next rest else (n, rest.length + 1)

/-- A significand of 64 bits and a power of ten. -/
def NumberForm.decimal (f : NumberForm) : Nat × Int :=
  let (whole, dropped) := absorb 0 f.whole
  let (significand, left) := absorb whole f.fraction
  let written : Int := ofDigits f.exponent
  let shift := if f.exponentNegative then -written else written
  (significand, (dropped : Int) - (f.fraction.length - left : Nat) + shift)

/-- An integer keeps its value if 64 bits hold it. Negative zero is a double. -/
def NumberForm.value? (f : NumberForm) : Option Number :=
  let n : Int := ofDigits f.whole
  let value := if f.negative then -n else n
  let isInteger := f.fraction.isEmpty && f.exponent.isEmpty && !(f.negative && n == 0)
  if isInteger && Number.fits value then some (.integer value)
  else
    let (significand, exponent) := f.decimal
    (Double.ofDecimal? f.negative significand exponent).map .real

/-! ## Strings -/

/-- A character of a written string, or the code of a hexadecimal escape. -/
inductive TextUnit where
  | char (c : Char)
  | code (n : Nat)

/-- The characters of a string; two codes of a surrogate pair are one character. -/
def textChars? : List TextUnit → Option (List Char)
  | [] => some []
  | .char c :: rest => (textChars? rest).map (c :: ·)
  | .code n :: rest =>
    if n < 0xD800 || 0xDFFF < n then (textChars? rest).map (Char.ofNat n :: ·)
    else match rest with
      | .code m :: rest =>
        if n < 0xDC00 && 0xDC00 ≤ m && m ≤ 0xDFFF then
          (textChars? rest).map (Char.ofNat (0x10000 + (n - 0xD800) * 0x400 + (m - 0xDC00)) :: ·)
        else none
      | _ => none

def text? (units : List TextUnit) : Option String := (textChars? units).map String.ofList

/-! ## Documents -/

/-- A part of a text. An array or object that goes wrong keeps the parts in front of that place and
is not closed; a key without a value has none. -/
inductive Form where
  | null
  | bool (value : Bool)
  | number (value : Number)
  | string (value : String)
  | array (items : List Form) (closed : Bool)
  | object (fields : List (Option String × Form)) (closed : Bool)
  /-- Well written, but without a value. -/
  | unreadable
  /-- No JSON at all, or not to its end. -/
  | broken

mutual
/-- The document, if all of it is well written and has a value. -/
def Form.value? : Form → Option Json
  | .null => some .null
  | .bool b => some (.bool b)
  | .number n => some (.number n)
  | .string s => some (.string s)
  | .array items closed => if closed then (itemValues? items).map .array else none
  | .object fields closed => if closed then (fieldValues? fields).map .object else none
  | .unreadable => none
  | .broken => none
def itemValues? : List Form → Option (List Json)
  | [] => some []
  | f :: rest => do return (← f.value?) :: (← itemValues? rest)
def fieldValues? : List (Option String × Form) → Option (List (String × Json))
  | [] => some []
  | (key, f) :: rest => do return (← key, ← f.value?) :: (← fieldValues? rest)
end

mutual
/-- The form of every text that writes a document. -/
def form : Json → Form
  | .null => .null
  | .bool b => .bool b
  | .number n => .number n
  | .string s => .string s
  | .array items => .array (itemForms items) true
  | .object fields => .object (fieldForms fields) true
def itemForms : List Json → List Form
  | [] => []
  | j :: rest => form j :: itemForms rest
def fieldForms : List (String × Json) → List (Option String × Form)
  | [] => []
  | (key, j) :: rest => (some key, form j) :: fieldForms rest
end

mutual
theorem value?_form : ∀ j : Json, j.form.value? = some j
  | .null => rfl
  | .bool _ => rfl
  | .number _ => rfl
  | .string _ => rfl
  | .array items => by simp [form, Form.value?, itemValues?_itemForms items]
  | .object fields => by simp [form, Form.value?, fieldValues?_fieldForms fields]
theorem itemValues?_itemForms : ∀ items, itemValues? (itemForms items) = some items
  | [] => rfl
  | j :: rest => by simp [itemForms, itemValues?, value?_form j, itemValues?_itemForms rest]
theorem fieldValues?_fieldForms : ∀ fields, fieldValues? (fieldForms fields) = some fields
  | [] => rfl
  | (key, j) :: rest => by
    simp [fieldForms, fieldValues?, value?_form j, fieldValues?_fieldForms rest]
end

mutual
/-- How deep arrays and objects are nested. -/
def Form.height : Form → Nat
  | .array items _ => heightItems items + 1
  | .object fields _ => heightFields fields + 1
  | _ => 0
def heightItems : List Form → Nat
  | [] => 0
  | f :: rest => max f.height (heightItems rest)
def heightFields : List (Option String × Form) → Nat
  | [] => 0
  | (_, f) :: rest => max f.height (heightFields rest)
end

end JsonMapping.Json
