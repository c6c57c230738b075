import JsonMapping.Json.Reader
import JsonMapping.Json.Writer
import Mathlib.Data.List.DropRight

/-! Written documents, read again. A text is read from left to right, so what is said of a document
holds in front of any rest, and of spaces only that they are skipped: `Reads` says of a text that
it is read as a document and a rest. The main statements are `ofText_compact` and `ofText_pretty`:
documents without numbers that do not nest too deep are read from both of their texts. -/

namespace JsonMapping.Json

/-! ## Documents without numbers -/

/-- The document is made of texts, flags and nulls, and its arrays and objects nest at most so
deep. -/
inductive Within : Nat → Json → Prop
  | null {depth : Nat} : Within depth .null
  | bool {depth : Nat} {b : Bool} : Within depth (.bool b)
  | string {depth : Nat} {s : String} : Within depth (.string s)
  | array {depth : Nat} {items : List Json} :
    (∀ j ∈ items, Within depth j) → Within (depth + 1) (.array items)
  | object {depth : Nat} {fields : List (String × Json)} :
    (∀ field ∈ fields, Within depth field.2) → Within (depth + 1) (.object fields)

theorem Within.mono {depth deeper : Nat} {j : Json} (h : Within depth j) (hle : depth ≤ deeper) :
    Within deeper j := by
  induction h generalizing deeper with
  | null => exact .null
  | bool => exact .bool
  | string => exact .string
  | array _ ih =>
    obtain ⟨deeper, rfl⟩ := Nat.exists_eq_add_of_le' (Nat.one_le_of_lt hle)
    exact .array fun j hj => ih j hj (Nat.le_of_succ_le_succ hle)
  | object _ ih =>
    obtain ⟨deeper, rfl⟩ := Nat.exists_eq_add_of_le' (Nat.one_le_of_lt hle)
    exact .object fun field hfield => ih field hfield (Nat.le_of_succ_le_succ hle)

@[simp] theorem within_null {depth : Nat} : Within depth .null := .null

@[simp] theorem within_bool {depth : Nat} {b : Bool} : Within depth (.bool b) := .bool

@[simp] theorem within_string {depth : Nat} {s : String} : Within depth (.string s) := .string

@[simp] theorem within_array_succ {depth : Nat} {items : List Json} :
    Within (depth + 1) (.array items) ↔ ∀ j ∈ items, Within depth j := by
  refine ⟨fun h => ?_, .array⟩
  cases h with
  | array h => exact h

@[simp] theorem within_object_succ {depth : Nat} {fields : List (String × Json)} :
    Within (depth + 1) (.object fields) ↔ ∀ field ∈ fields, Within depth field.2 := by
  refine ⟨fun h => ?_, .object⟩
  cases h with
  | object h => exact h

/-! ## Spaces -/

@[simp] theorem skipSpace_skipSpace (cs : List Char) : skipSpace (skipSpace cs) = skipSpace cs :=
  List.dropWhile_idempotent isSpace cs

theorem length_skipSpace_le (cs : List Char) : (skipSpace cs).length ≤ cs.length :=
  (List.dropWhile_sublist isSpace).length_le

theorem skipSpace_cons {c : Char} (h : isSpace c = false) (cs : List Char) :
    skipSpace (c :: cs) = c :: cs := by
  simp [skipSpace, h]

@[simp] theorem skipSpace_blank (cs : List Char) : skipSpace (' ' :: cs) = skipSpace cs := by
  simp [skipSpace, isSpace]

@[simp] theorem skipSpace_newLine (depth : Nat) (cs : List Char) :
    skipSpace (newLine depth cs) = skipSpace cs := by
  have hspace : ∀ c ∈ '\n' :: List.replicate (2 * depth) ' ', isSpace c = true := by
    intro c hc
    rcases List.mem_cons.mp hc with rfl | hc
    · rfl
    · rw [List.eq_of_mem_replicate hc]
      rfl
  exact List.dropWhile_append_of_pos hspace

theorem length_le_newLine (depth : Nat) (cs : List Char) :
    cs.length ≤ (newLine depth cs).length := by
  simp [newLine]
  omega

/-! ## Strings -/

theorem hexValue?_digitChar : ∀ n < 16, hexValue? (Nat.digitChar n) = some n := by decide

/-- The four digits of a character below 256. -/
theorem hexNumber?_digits {n : Nat} (h : n < 256) :
    hexNumber? ['0', '0', Nat.digitChar (n / 16), Nat.digitChar (n % 16)] = some n := by
  have hhigh := hexValue?_digitChar (n / 16) (by omega)
  have hlow := hexValue?_digitChar (n % 16) (by omega)
  have hzero : hexValue? '0' = some 0 := rfl
  simp only [hexNumber?, List.foldlM_cons, List.foldlM_nil, hzero, hhigh, hlow, Option.map_some,
    Option.bind_eq_bind, Option.bind_some, Option.pure_def]
  congr 1
  omega

/-- A character is written behind a backslash, by its code, or as it is. -/
theorem escape_cases (c : Char) :
    (∃ e, e ≠ 'u' ∧ escaped? e = some c ∧ escape c = ['\\', e]) ∨
    (c.toNat < 0x20 ∧ escape c =
      ['\\', 'u', '0', '0', Nat.digitChar (c.toNat / 16), Nat.digitChar (c.toNat % 16)]) ∨
    (c ≠ '"' ∧ c ≠ '\\' ∧ ¬ c.toNat < 0x20 ∧ escape c = [c]) := by
  by_cases hshort : c ∈ ['"', '\\', '\x08', '\x0c', '\n', '\x0d', '\t']
  · left
    simp only [List.mem_cons, List.not_mem_nil, or_false] at hshort
    rcases hshort with rfl | rfl | rfl | rfl | rfl | rfl | rfl
    · exact ⟨'"', by decide, rfl, rfl⟩
    · exact ⟨'\\', by decide, rfl, rfl⟩
    · exact ⟨'b', by decide, rfl, rfl⟩
    · exact ⟨'f', by decide, rfl, rfl⟩
    · exact ⟨'n', by decide, rfl, rfl⟩
    · exact ⟨'r', by decide, rfl, rfl⟩
    · exact ⟨'t', by decide, rfl, rfl⟩
  · right
    simp only [List.mem_cons, List.not_mem_nil, or_false, not_or] at hshort
    by_cases hcontrol : c.toNat < 0x20 <;> simp [escape, hshort, hcontrol]

/-- A written character is read as a unit that stands for the character. -/
theorem readText_escape (c : Char) (cs : List Char) :
    ∃ unit, readText (escape c ++ cs) =
        (readText cs).map (fun (units, rest) => (unit :: units, rest)) ∧
      ∀ units chars, textChars? units = some chars →
        textChars? (unit :: units) = some (c :: chars) := by
  have hchar : ∀ units chars, textChars? units = some chars →
      textChars? (.char c :: units) = some (c :: chars) := by
    intro units chars h
    simp [textChars?, h]
  rcases escape_cases c with ⟨e, hu, hescaped, hc⟩ | ⟨hcontrol, hc⟩ | ⟨hquote, hslash, hcontrol, hc⟩
  · refine ⟨.char c, ?_, hchar⟩
    rw [hc, List.cons_append, List.singleton_append,
      readText.eq_4 e cs (fun _ _ _ _ _ he _ => hu he), hescaped]
    cases readText cs <;> rfl
  · refine ⟨.code c.toNat, ?_, ?_⟩
    · rw [hc]
      simp only [List.cons_append, List.nil_append]
      rw [readText.eq_3, hexNumber?_digits (by omega)]
      cases readText cs <;> rfl
    · intro units chars h
      have hplain : c.toNat < 0xD800 := by omega
      rw [textChars?.eq_def]
      simp [hplain, h, Char.ofNat_toNat]
  · refine ⟨.char c, ?_, hchar⟩
    rw [hc, List.singleton_append, readText.eq_5 c cs hquote (fun _ _ _ _ _ he _ => hslash he)
      (fun _ _ he _ => hslash he), if_neg (by simp [hslash, hcontrol])]

theorem readText_flatMap_escape (s rest : List Char) :
    ∃ units, readText (s.flatMap escape ++ '"' :: rest) = some (units, rest) ∧
      textChars? units = some s := by
  induction s with
  | nil => exact ⟨[], rfl, rfl⟩
  | cons c s ih =>
    obtain ⟨units, hread, hchars⟩ := ih
    obtain ⟨unit, hunit, hmeans⟩ := readText_escape c (s.flatMap escape ++ '"' :: rest)
    refine ⟨unit :: units, ?_, hmeans units s hchars⟩
    rw [List.flatMap_cons, List.append_assoc, hunit, hread]
    rfl

/-- The text of a string, behind its opening quote. -/
theorem readText_string (s : String) (rest : List Char) :
    ∃ units, readText (s.toList.flatMap escape ++ '"' :: rest) = some (units, rest) ∧
      text? units = some s := by
  obtain ⟨units, hread, hchars⟩ := readText_flatMap_escape s.toList rest
  exact ⟨units, hread, by simp [text?, hchars]⟩

theorem readKey_writeText {cs rest : List Char} {key : String}
    (h : skipSpace cs = writeText key rest) : readKey cs = some (some key, rest) := by
  obtain ⟨units, hread, htext⟩ := readText_string key rest
  unfold readKey
  rw [h]
  simp only [writeText, List.cons_append]
  rw [hread, Option.map_some, htext]

/-! ## Values

The limit on the calls is twice the length of the text. Each value, item and field takes at least
one character, so the limit falls with the text that is left. -/

/-- The text is read as the document, and so much is left of it. -/
structure Reads (depth : Nat) (j : Json) (cs rest : List Char) : Prop where
  shorter : rest.length < cs.length
  readValue_eq : ∀ fuel, 2 * cs.length < fuel → readValue fuel depth cs = (j.form, some rest)

/-- The same for one item or more and the bracket behind them. -/
structure ReadsItems (depth : Nat) (items : List Json) (cs rest : List Char) : Prop where
  shorter : rest.length < cs.length
  readItems_eq : ∀ fuel, 2 * cs.length + 1 < fuel →
    readItems fuel depth cs = (itemForms items, some rest)

/-- The same for one field or more and the brace behind them. -/
structure ReadsFields (depth : Nat) (fields : List (String × Json)) (cs rest : List Char) :
    Prop where
  shorter : rest.length < cs.length
  readFields_eq : ∀ fuel, 2 * cs.length + 1 < fuel →
    readFields fuel depth cs = (fieldForms fields, some rest)

/-- Spaces in front of a document are skipped. -/
theorem Reads.of_skipSpace {depth : Nat} {j : Json} {cs ds rest : List Char}
    (h : Reads depth j cs rest) (hskip : skipSpace ds = skipSpace cs)
    (hlength : cs.length ≤ ds.length) : Reads depth j ds rest where
  shorter := by have := h.shorter; omega
  readValue_eq fuel hfuel := by
    rw [readValue_congr hskip]
    exact h.readValue_eq fuel (by omega)

theorem ReadsItems.of_skipSpace {depth : Nat} {items : List Json} {cs ds rest : List Char}
    (h : ReadsItems depth items cs rest) (hskip : skipSpace ds = skipSpace cs)
    (hlength : cs.length ≤ ds.length) : ReadsItems depth items ds rest where
  shorter := by have := h.shorter; omega
  readItems_eq fuel hfuel := by
    rw [readItems_congr hskip]
    exact h.readItems_eq fuel (by omega)

theorem ReadsFields.of_skipSpace {depth : Nat} {fields : List (String × Json)}
    {cs ds rest : List Char} (h : ReadsFields depth fields cs rest)
    (hskip : skipSpace ds = skipSpace cs) (hlength : cs.length ≤ ds.length) :
    ReadsFields depth fields ds rest where
  shorter := by have := h.shorter; omega
  readFields_eq fuel hfuel := by
    rw [readFields_congr hskip]
    exact h.readFields_eq fuel (by omega)

theorem reads_null (depth : Nat) (rest : List Char) :
    Reads depth .null (write .null rest) rest where
  shorter := by
    change rest.length < rest.length + 4
    omega
  readValue_eq fuel hfuel := by
    obtain ⟨fuel, rfl⟩ := Nat.exists_eq_add_of_lt hfuel
    rfl

theorem reads_bool (depth : Nat) (b : Bool) (rest : List Char) :
    Reads depth (.bool b) (write (.bool b) rest) rest where
  shorter := by
    cases b with
    | true =>
      change rest.length < rest.length + 4
      omega
    | false =>
      change rest.length < rest.length + 5
      omega
  readValue_eq fuel hfuel := by
    obtain ⟨fuel, rfl⟩ := Nat.exists_eq_add_of_lt hfuel
    cases b <;> rfl

theorem reads_string (depth : Nat) (s : String) (rest : List Char) :
    Reads depth (.string s) (write (.string s) rest) rest where
  shorter := by
    change rest.length < (writeText s rest).length
    simp [writeText]
    omega
  readValue_eq fuel hfuel := by
    obtain ⟨fuel, rfl⟩ := Nat.exists_eq_add_of_lt hfuel
    obtain ⟨units, hread, htext⟩ := readText_string s rest
    have hwrite : write (.string s) rest = '"' :: (s.toList.flatMap escape ++ '"' :: rest) := rfl
    rw [hwrite, readValue, skipSpace_cons (by decide)]
    simp only
    rw [hread]
    simp [htext, form]

/-! ## Arrays and objects -/

/-- No value starts with a closing bracket. -/
theorem readItems_closing (fuel depth : Nat) (cs : List Char) :
    (readItems fuel depth (']' :: cs)).2 = none := by
  cases fuel with
  | zero => rfl
  | succ fuel => cases fuel <;> rfl

/-- No key starts with a closing brace. -/
theorem readFields_closing (fuel depth : Nat) (cs : List Char) :
    (readFields fuel depth ('\x7d' :: cs)).2 = none := by
  cases fuel <;> rfl

theorem reads_array_nil (depth : Nat) (rest : List Char) :
    Reads (depth + 1) (.array []) (write (.array []) rest) rest where
  shorter := by
    change rest.length < rest.length + 2
    omega
  readValue_eq fuel hfuel := by
    obtain ⟨fuel, rfl⟩ := Nat.exists_eq_add_of_lt hfuel
    rfl

theorem reads_object_nil (depth : Nat) (rest : List Char) :
    Reads (depth + 1) (.object []) (write (.object []) rest) rest where
  shorter := by
    change rest.length < rest.length + 2
    omega
  readValue_eq fuel hfuel := by
    obtain ⟨fuel, rfl⟩ := Nat.exists_eq_add_of_lt hfuel
    rfl

/-- An array is a bracket and its items. -/
theorem ReadsItems.array {depth : Nat} {items : List Json} {cs rest : List Char}
    (h : ReadsItems depth items cs rest) : Reads (depth + 1) (.array items) ('[' :: cs) rest where
  shorter := by have := h.shorter; simp; omega
  readValue_eq fuel hfuel := by
    obtain ⟨fuel, rfl⟩ : ∃ n, fuel = n + 1 := ⟨fuel - 1, by omega⟩
    have hitems := h.readItems_eq fuel (by simp at hfuel; omega)
    rw [← readItems_congr (skipSpace_skipSpace cs)] at hitems
    rw [readValue.eq_2, skipSpace_cons (by decide)]
    simp only [Nat.add_sub_cancel]
    split
    · rename_i tail hclosing
      have hnone := readItems_closing fuel depth tail
      rw [← hclosing, hitems] at hnone
      cases hnone
    · rw [hitems]
      rfl

/-- An object is a brace and its fields. -/
theorem ReadsFields.object {depth : Nat} {fields : List (String × Json)} {cs rest : List Char}
    (h : ReadsFields depth fields cs rest) :
    Reads (depth + 1) (.object fields) ('\x7b' :: cs) rest where
  shorter := by have := h.shorter; simp; omega
  readValue_eq fuel hfuel := by
    obtain ⟨fuel, rfl⟩ : ∃ n, fuel = n + 1 := ⟨fuel - 1, by omega⟩
    have hfields := h.readFields_eq fuel (by simp at hfuel; omega)
    rw [← readFields_congr (skipSpace_skipSpace cs)] at hfields
    rw [readValue.eq_2, skipSpace_cons (by decide)]
    simp only [Nat.add_sub_cancel]
    split
    · rename_i tail hclosing
      have hnone := readFields_closing fuel depth tail
      rw [← hclosing, hfields] at hnone
      cases hnone
    · rw [hfields]
      rfl

theorem ReadsItems.last {depth : Nat} {j : Json} {cs after rest : List Char}
    (h : Reads depth j cs after) (hafter : skipSpace after = ']' :: rest) :
    ReadsItems depth [j] cs rest where
  shorter := by
    have := h.shorter
    have := length_skipSpace_le after
    rw [hafter] at this
    simp at this
    omega
  readItems_eq fuel hfuel := by
    obtain ⟨fuel, rfl⟩ : ∃ n, fuel = n + 1 := ⟨fuel - 1, by omega⟩
    rw [readItems.eq_2, h.readValue_eq fuel (by omega)]
    simp only [hafter]
    rfl

theorem ReadsItems.cons {depth : Nat} {j : Json} {items : List Json}
    {cs after more rest : List Char} (h : Reads depth j cs after)
    (hafter : skipSpace after = ',' :: more) (hitems : ReadsItems depth items more rest) : ReadsItems depth (j :: items) cs rest where
  shorter := by
    have := h.shorter
    have := hitems.shorter
    have := length_skipSpace_le after
    rw [hafter] at this
    simp at this
    omega
  readItems_eq fuel hfuel := by
    obtain ⟨fuel, rfl⟩ : ∃ n, fuel = n + 1 := ⟨fuel - 1, by omega⟩
    have hless : more.length < cs.length := by
      have := h.shorter
      have := length_skipSpace_le after
      rw [hafter] at this
      simp at this
      omega
    rw [readItems.eq_2, h.readValue_eq fuel (by omega)]
    simp only [hafter, hitems.readItems_eq fuel (by omega)]
    rfl

/-- A key and a colon stand in front of a text. -/
def Keyed (key : String) (cs value : List Char) : Prop :=
  ∃ behind, skipSpace cs = writeText key behind ∧ skipSpace behind = ':' :: value

theorem Keyed.shorter {key : String} {cs value : List Char} (h : Keyed key cs value) :
    value.length < cs.length := by
  obtain ⟨behind, hkey, hcolon⟩ := h
  have hcs := length_skipSpace_le cs
  have hbehind := length_skipSpace_le behind
  rw [hkey] at hcs
  rw [hcolon] at hbehind
  simp [writeText] at hcs hbehind
  omega

theorem ReadsFields.last {depth : Nat} {key : String} {j : Json} {cs value after rest : List Char}
    (hkey : Keyed key cs value) (h : Reads depth j value after)
    (hafter : skipSpace after = '\x7d' :: rest) : ReadsFields depth [(key, j)] cs rest where
  shorter := by
    have := hkey.shorter
    have := h.shorter
    have := length_skipSpace_le after
    rw [hafter] at this
    simp at this
    omega
  readFields_eq fuel hfuel := by
    obtain ⟨fuel, rfl⟩ : ∃ n, fuel = n + 1 := ⟨fuel - 1, by omega⟩
    have hless := hkey.shorter
    obtain ⟨behind, hread, hcolon⟩ := hkey
    rw [readFields.eq_2, readKey_writeText hread]
    simp only [hcolon, h.readValue_eq fuel (by omega), hafter]
    rfl

theorem ReadsFields.cons {depth : Nat} {key : String} {j : Json} {fields : List (String × Json)}
    {cs value after more rest : List Char} (hkey : Keyed key cs value)
    (h : Reads depth j value after) (hafter : skipSpace after = ',' :: more)
    (hfields : ReadsFields depth fields more rest) :
    ReadsFields depth ((key, j) :: fields) cs rest where
  shorter := by
    have := hkey.shorter
    have := h.shorter
    have := hfields.shorter
    have := length_skipSpace_le after
    rw [hafter] at this
    simp at this
    omega
  readFields_eq fuel hfuel := by
    obtain ⟨fuel, rfl⟩ : ∃ n, fuel = n + 1 := ⟨fuel - 1, by omega⟩
    have hless := hkey.shorter
    have hmore : more.length < value.length := by
      have := h.shorter
      have := length_skipSpace_le after
      rw [hafter] at this
      simp at this
      omega
    obtain ⟨behind, hread, hcolon⟩ := hkey
    rw [readFields.eq_2, readKey_writeText hread]
    simp only [hcolon, h.readValue_eq fuel (by omega), hafter,
      hfields.readFields_eq fuel (by omega)]
    rfl

/-! ## Both writers

They differ in the spaces that they put between the parts. What they share is said of a writer of
items or fields and of what it puts behind one of them. -/

section Laid

variable {depth : Nat} (item : Json → List Char → List Char)

theorem readsItems_laid (behind : List Json → List Char → List Char)
    (hlast : ∀ rest, skipSpace (behind [] rest) = ']' :: rest)
    (hmore : ∀ j items rest, ∃ cs, skipSpace (behind (j :: items) rest) = ',' :: cs ∧
      skipSpace cs = skipSpace (item j (behind items rest)) ∧
      (item j (behind items rest)).length ≤ cs.length)
    {j : Json} {items : List Json}
    (h : ∀ i ∈ j :: items, ∀ rest, Reads depth i (item i rest) rest) (rest : List Char) :
    ReadsItems depth (j :: items) (item j (behind items rest)) rest := by
  induction items generalizing j with
  | nil => exact .last (h j List.mem_cons_self _) (hlast rest)
  | cons k items ih =>
    obtain ⟨cs, hcomma, hskip, hlength⟩ := hmore k items rest
    have hrest := ih fun i hi => h i (List.mem_cons_of_mem _ hi)
    exact .cons (h j List.mem_cons_self _) hcomma (hrest.of_skipSpace hskip hlength)

theorem readsFields_laid (key : String → List Char → List Char)
    (behind : List (String × Json) → List Char → List Char)
    (hkey : ∀ name value, Keyed name (key name value) value)
    (hlast : ∀ rest, skipSpace (behind [] rest) = '\x7d' :: rest)
    (hmore : ∀ name j fields rest, ∃ cs, skipSpace (behind ((name, j) :: fields) rest) = ',' :: cs ∧
      skipSpace cs = skipSpace (key name (item j (behind fields rest))) ∧
      (key name (item j (behind fields rest))).length ≤ cs.length)
    {name : String} {j : Json} {fields : List (String × Json)}
    (h : ∀ field ∈ (name, j) :: fields, ∀ rest, Reads depth field.2 (item field.2 rest) rest)
    (rest : List Char) :
    ReadsFields depth ((name, j) :: fields) (key name (item j (behind fields rest))) rest := by
  induction fields generalizing name j with
  | nil => exact .last (hkey _ _) (h _ List.mem_cons_self _) (hlast rest)
  | cons field fields ih =>
    obtain ⟨name', k⟩ := field
    obtain ⟨cs, hcomma, hskip, hlength⟩ := hmore name' k fields rest
    have hrest := ih fun f hf => h f (List.mem_cons_of_mem _ hf)
    exact .cons (hkey _ _) (h _ List.mem_cons_self _) hcomma (hrest.of_skipSpace hskip hlength)

end Laid

theorem keyed_writeText (key : String) (value : List Char) :
    Keyed key (writeText key (':' :: value)) value := by
  refine ⟨':' :: value, ?_, skipSpace_cons (by decide) _⟩
  rw [writeText, List.cons_append, skipSpace_cons (by decide)]

theorem reads_write {depth : Nat} {j : Json} (h : Within depth j) (rest : List Char) :
    Reads depth j (write j rest) rest := by
  induction h generalizing rest with
  | null => exact reads_null _ rest
  | bool => exact reads_bool _ _ rest
  | string => exact reads_string _ _ rest
  | @array depth items _ ih =>
    cases items with
    | nil => exact reads_array_nil depth rest
    | cons j items =>
      rw [write]
      refine (readsItems_laid write (fun items rest => writeItems items (']' :: rest))
        ?_ ?_ ih rest).array
      · intro rest
        rw [writeItems, skipSpace_cons (by decide)]
      · intro j items rest
        rw [writeItems, skipSpace_cons (by decide)]
        exact ⟨_, rfl, rfl, Nat.le_refl _⟩
  | @object depth fields _ ih =>
    cases fields with
    | nil => exact reads_object_nil depth rest
    | cons field fields =>
      obtain ⟨name, j⟩ := field
      rw [write]
      refine (readsFields_laid write (fun name value => writeText name (':' :: value))
        (fun fields rest => writeFields fields ('\x7d' :: rest)) ?_ ?_ ?_ ih rest).object
      · exact keyed_writeText
      · intro rest
        rw [writeFields, skipSpace_cons (by decide)]
      · intro name j fields rest
        rw [writeFields, skipSpace_cons (by decide)]
        exact ⟨_, rfl, rfl, Nat.le_refl _⟩

theorem reads_writeIndented {depth : Nat} {j : Json} (h : Within depth j) (level : Nat)
    (rest : List Char) : Reads depth j (writeIndented level j rest) rest := by
  induction h generalizing level rest with
  | null => exact reads_null _ rest
  | bool => exact reads_bool _ _ rest
  | string => exact reads_string _ _ rest
  | @array depth items _ ih =>
    cases items with
    | nil => exact reads_array_nil depth rest
    | cons j items =>
      have hitems := readsItems_laid (writeIndented (level + 1))
        (fun items rest => indentedItems (level + 1) items (newLine level (']' :: rest))) ?_ ?_
        (fun i hi => ih i hi (level + 1)) rest
      · rw [writeIndented]
        exact (hitems.of_skipSpace (skipSpace_newLine _ _) (length_le_newLine _ _)).array
      · intro rest
        rw [indentedItems, skipSpace_newLine, skipSpace_cons (by decide)]
      · intro j items rest
        rw [indentedItems, skipSpace_cons (by decide)]
        exact ⟨_, rfl, skipSpace_newLine _ _, length_le_newLine _ _⟩
  | @object depth fields _ ih =>
    cases fields with
    | nil => exact reads_object_nil depth rest
    | cons field fields =>
      obtain ⟨name, j⟩ := field
      have hvalue : ∀ field ∈ (name, j) :: fields, ∀ rest,
          Reads depth field.2 (' ' :: writeIndented (level + 1) field.2 rest) rest := by
        intro field hfield rest
        exact (ih field hfield (level + 1) rest).of_skipSpace (skipSpace_blank _) (by simp)
      have hfields := readsFields_laid (fun j rest => ' ' :: writeIndented (level + 1) j rest)
        (fun name value => writeText name (':' :: value))
        (fun fields rest => indentedFields (level + 1) fields (newLine level ('\x7d' :: rest)))
        keyed_writeText ?_ ?_ hvalue rest
      · rw [writeIndented]
        exact (hfields.of_skipSpace (skipSpace_newLine _ _) (length_le_newLine _ _)).object
      · intro rest
        rw [indentedFields, skipSpace_newLine, skipSpace_cons (by decide)]
      · intro name j fields rest
        rw [indentedFields, skipSpace_cons (by decide)]
        exact ⟨_, rfl, skipSpace_newLine _ _, length_le_newLine _ _⟩

/-! ## Whole texts -/

theorem ofText_of_reads {j : Json} {cs : List Char} (h : Reads nestingLimit j cs []) :
    Form.ofText (String.ofList cs) = (j.form, true) := by
  simp only [Form.ofText, String.toList_ofList]
  rw [h.readValue_eq _ (by omega)]
  rfl

theorem ofText_compact {j : Json} (h : Within nestingLimit j) :
    Form.ofText j.compact = (j.form, true) :=
  ofText_of_reads (reads_write h [])

theorem ofText_pretty {j : Json} (h : Within nestingLimit j) :
    Form.ofText j.pretty = (j.form, true) :=
  ofText_of_reads (reads_writeIndented h 0 [])

end JsonMapping.Json
