import JsonMapping.Text.CaseTable

/-! Letter case of whole texts. A character may have several lower or upper case characters, and a
capital sigma at the end of a word has a lower case form of its own. ASCII needs no table. -/

namespace JsonMapping.Text

private def rowsHave (rows : List (Nat × Nat × Nat)) (n : Nat) : Bool :=
  rows.any fun (first, last, step) => first ≤ n && n ≤ last && (n - first) % step == 0

private def rowsImage (rows : List (Nat × Nat × Nat × Nat)) (n : Nat) : Option Nat :=
  rows.findSome? fun (first, last, step, image) =>
    if first ≤ n && n ≤ last && (n - first) % step == 0 then some (image + (n - first)) else none

def isAscii (c : Char) : Bool := c.toNat < 0x80

def isUppercase (c : Char) : Bool :=
  if isAscii c then c.isUpper else rowsHave CaseTable.uppercase c.toNat

def isCased (c : Char) : Bool := rowsHave CaseTable.cased c.toNat

def isCaseIgnorable (c : Char) : Bool := rowsHave CaseTable.ignorable c.toNat

private def caseForm (several : List (Nat × List Nat)) (rows : List (Nat × Nat × Nat × Nat))
    (c : Char) : List Char :=
  match several.lookup c.toNat with
  | some forms => forms.map Char.ofNat
  | none => [((rowsImage rows c.toNat).map Char.ofNat).getD c]

/-- Lower case of a character that stands alone. -/
def lowerForm (c : Char) : List Char :=
  if isAscii c then [c.toLower] else caseForm CaseTable.toLowerSeveral CaseTable.toLower c

def upperForm (c : Char) : List Char :=
  if isAscii c then [c.toUpper] else caseForm CaseTable.toUpperSeveral CaseTable.toUpper c

theorem upperForm_of_isAscii {c : Char} (h : isAscii c) : upperForm c = [c.toUpper] := by
  simp [upperForm, h]

/-- Whether the first character that is not ignorable for case is a letter with case. -/
def leadsToCased (cs : List Char) : Bool :=
  (cs.dropWhile isCaseIgnorable).head?.any isCased

/-- Lower case of `cs` after the characters `before`, nearest first. A sigma ends a word when a
letter comes before it and none after. -/
def lowerAfter (before : List Char) : List Char → List Char
  | [] => []
  | c :: rest =>
    let form :=
      if c = 'Σ' then
        if leadsToCased before && !leadsToCased rest then ['ς'] else ['σ']
      else lowerForm c
    form ++ lowerAfter (c :: before) rest

def lower (cs : List Char) : List Char := lowerAfter [] cs

def upper (cs : List Char) : List Char := cs.flatMap upperForm

/-- Upper case for the first character alone. -/
def capitalize : List Char → List Char
  | [] => []
  | c :: rest => upperForm c ++ rest

end JsonMapping.Text
