import JsonMapping.Text.PrintTable

/-! Quoted texts in messages. Quotes, backslashes and the usual controls have short escapes, other
characters that do not print stand as their code in braces. -/

namespace JsonMapping.Text

private def spansHave (spans : List (Nat × Nat)) (n : Nat) : Bool :=
  spans.any fun (first, last) => first ≤ n && n ≤ last

/-- Whether a quoted text shows the character as it is. -/
def isPrintable (c : Char) : Bool :=
  !spansHave PrintTable.unprintable c.toNat && !spansHave PrintTable.extending c.toNat

def quotedChar (c : Char) : List Char :=
  if c = '"' then ['\\', '"']
  else if c = '\\' then ['\\', '\\']
  else if c = '\n' then ['\\', 'n']
  else if c = '\x0d' then ['\\', 'r']
  else if c = '\t' then ['\\', 't']
  else if c = '\x00' then ['\\', '0']
  else if isPrintable c then [c]
  else '\\' :: 'u' :: '\x7b' :: Nat.toDigits 16 c.toNat ++ ['\x7d']

def quoted (s : String) : String := String.ofList ('"' :: s.toList.flatMap quotedChar ++ ['"'])

end JsonMapping.Text
