/-! Blank characters, as the `White_Space` property of Unicode lists them, and the cuts that
follow them: a text without its blank ends, a text in pieces between separators. -/

namespace JsonMapping.Text

/-- The `White_Space` property. Zero-width spaces and the byte order mark do not have it. -/
def isBlank (c : Char) : Bool :=
  let n := c.toNat
  (9 ≤ n && n ≤ 13) || n == 0x20 || n == 0x85 || n == 0xA0 || n == 0x1680 ||
    (0x2000 ≤ n && n ≤ 0x200A) || n == 0x2028 || n == 0x2029 || n == 0x202F || n == 0x205F ||
    n == 0x3000

def trimStart (cs : List Char) : List Char := cs.dropWhile isBlank

def trimEnd (cs : List Char) : List Char := (cs.reverse.dropWhile isBlank).reverse

def trim (cs : List Char) : List Char := trimEnd (trimStart cs)

theorem length_trimStart_le (cs : List Char) : (trimStart cs).length ≤ cs.length :=
  (List.dropWhile_sublist isBlank).length_le

theorem length_trimEnd_le (cs : List Char) : (trimEnd cs).length ≤ cs.length := by
  simpa [trimEnd] using (List.dropWhile_sublist (l := cs.reverse) isBlank).length_le

theorem length_trim_le (cs : List Char) : (trim cs).length ≤ cs.length :=
  Nat.le_trans (length_trimEnd_le _) (length_trimStart_le cs)

/-! ## Pieces -/

/-- The pieces between the occurrences of `sep`; one more than there are occurrences. -/
def pieces (sep : Char) : List Char → List (List Char)
  | [] => [[]]
  | c :: rest =>
    if c = sep then [] :: pieces sep rest
    else match pieces sep rest with
      | [] => [[c]]
      | piece :: more => (c :: piece) :: more

theorem pieces_ne_nil (sep : Char) (cs : List Char) : pieces sep cs ≠ [] := by
  cases cs with
  | nil => simp [pieces]
  | cons c rest =>
    simp only [pieces]
    split
    · simp
    · split <;> simp

/-- Joining the pieces again gives the text. -/
theorem intercalate_pieces (sep : Char) (cs : List Char) :
    List.intercalate [sep] (pieces sep cs) = cs := by
  induction cs with
  | nil => rfl
  | cons c rest ih =>
    simp only [pieces]
    split
    · next h =>
      obtain ⟨p, ps, hp⟩ := List.exists_cons_of_ne_nil (pieces_ne_nil sep rest)
      rw [hp] at ih ⊢
      simpa [List.intercalate, h] using ih
    · split
      · next h => exact absurd h (pieces_ne_nil sep rest)
      · next p ps h =>
        rw [h] at ih
        cases ps <;> simp_all [List.intercalate]

end JsonMapping.Text
