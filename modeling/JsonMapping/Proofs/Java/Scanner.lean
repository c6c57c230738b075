import JsonMapping.Java.Line
import JsonMapping.Json.Reader
import JsonMapping.Proofs.Naming.Grammar

/-! A scan of Java code that reads its string literals and matches its brackets. It works on raw
characters: Unicode escapes are resolved on the way, and only behind an even number of backslashes.
The code that is scanned has no comments and no character literals, so a scan refuses the characters
that such could start with. What a text does to a scan is told for its parts: `Reads` holds of parts
that leave nothing open, and is put together as the text is. -/

namespace JsonMapping.Java

/-- How the raw characters just read bear on the next one. -/
inductive Raw where
  /-- Behind an even number of backslashes. -/
  | even
  /-- Behind an odd number of backslashes, of which the last is still to be placed. -/
  | odd
  /-- Behind the `u` of a Unicode escape, which may be repeated. -/
  | marker
  /-- Within a Unicode escape: the digits that are missing, and the code so far. -/
  | digits (missing code : Nat)
deriving DecidableEq

inductive Place where
  | code
  | literal (value : List Char)
  /-- Behind a backslash in a literal. -/
  | escape (value : List Char)
deriving DecidableEq

/-- A scan at work: the closing brackets that are awaited, innermost first, and the literals that
are closed. -/
structure Scan where
  raw : Raw
  place : Place
  awaited : List Char
  literals : List String
deriving DecidableEq

namespace Scan

/-- What a backslash and one character stand for in a literal. -/
def unescaped? : Char → Option Char
  | '"' => some '"'
  | '\\' => some '\\'
  | 'n' => some '\n'
  | 'r' => some '\x0d'
  | 't' => some '\t'
  | _ => none

/-- The characters that open and close something in code, or could start a comment or a literal. -/
def special : List Char := ['"', '(', ')', '\x7b', '\x7d', '\\', '\'', '/']

def isPlain (c : Char) : Bool := c ∉ special

def codeChar (s : Scan) (c : Char) : Option Scan :=
  if c = '"' then some { s with place := .literal [] }
  else if c = '(' then some { s with awaited := ')' :: s.awaited }
  else if c = '\x7b' then some { s with awaited := '\x7d' :: s.awaited }
  else if c = ')' ∨ c = '\x7d' then
    if s.awaited.head? = some c then some { s with awaited := s.awaited.tail } else none
  else if isPlain c then some s
  else none

/-- No line ends within a literal. -/
def literalChar (s : Scan) (value : List Char) (c : Char) : Option Scan :=
  if c = '"' then some { s with place := .code, literals := s.literals ++ [String.ofList value] }
  else if c = '\\' then some { s with place := .escape value }
  else if c = '\n' ∨ c = '\x0d' then none
  else some { s with place := .literal (value ++ [c]) }

/-- A character behind the Unicode escapes. -/
def feed (s : Scan) (c : Char) : Option Scan :=
  match s.place with
  | .code => s.codeChar c
  | .literal value => s.literalChar value c
  | .escape value => (unescaped? c).map fun d => { s with place := .literal (value ++ [d]) }

/-- The code of a Unicode escape. A surrogate is no character. -/
def feedCode (s : Scan) (code : Nat) : Option Scan :=
  if code.isValidChar then { s with raw := .even }.feed (Char.ofNat code) else none

/-- A raw character. -/
def step (s : Scan) (c : Char) : Option Scan :=
  match s.raw with
  | .even => if c = '\\' then some { s with raw := .odd } else s.feed c
  | .odd =>
    if c = 'u' then some { s with raw := .marker }
    else do ({ (← s.feed '\\') with raw := .even }).feed c
  | .marker =>
    if c = 'u' then some s
    else (Json.hexValue? c).map fun n => { s with raw := .digits 3 n }
  | .digits missing code => do
    let code := code * 16 + (← Json.hexValue? c)
    if missing ≤ 1 then s.feedCode code else some { s with raw := .digits (missing - 1) code }

def run (s : Scan) (cs : List Char) : Option Scan := cs.foldlM step s

/-- In code, with nothing left open but brackets. -/
def inCode (awaited : List Char) (literals : List String) : Scan :=
  ⟨.even, .code, awaited, literals⟩

end Scan

/-- The literals of a text, if it scans and all its brackets are closed at its end. -/
def scan (text : String) : Option (List String) := do
  let s ← (Scan.inCode [] []).run text.toList
  if s = .inCode [] s.literals then some s.literals else none

example : scan "f(\"\\\\u0022\") \x7b\x7d" = some ["\\u0022"] := by decide

/-- Before the literal is read, the escape ends it. -/
example : scan "f(\"\\u0022)" = some [""] := by decide

/-! ## Texts that leave nothing open -/

namespace Scan

variable {s t : Scan} {c : Char} {cs ds : List Char}

@[simp] theorem run_nil (s : Scan) : s.run [] = some s := rfl

@[simp] theorem run_cons (s : Scan) (c : Char) (cs : List Char) :
    s.run (c :: cs) = (s.step c).bind (·.run cs) := rfl

theorem run_append (s : Scan) (cs ds : List Char) :
    s.run (cs ++ ds) = (s.run cs).bind (·.run ds) :=
  List.foldlM_append

/-- What has a property that special characters do not have is plain. -/
theorem isPlain_of {p : Char → Bool} (h : special.any p = false) (hc : p c = true) :
    isPlain c = true :=
  decide_eq_true fun hmem => List.any_eq_false.mp h c hmem hc

theorem ne_of_isPlain (h : isPlain c = true) {d : Char} (hd : d ∈ special) : c ≠ d := by
  rintro rfl
  exact of_decide_eq_true h hd

theorem codeChar_plain (s : Scan) (h : isPlain c = true) : s.codeChar c = some s := by
  have hc : ∀ d ∈ special, c ≠ d := fun d => ne_of_isPlain h
  simp only [special, List.forall_mem_cons] at hc
  simp [codeChar, h, hc]

theorem step_plain (awaited : List Char) (read : List String) (h : isPlain c = true) :
    (inCode awaited read).step c = some (inCode awaited read) := by
  have hslash : c ≠ '\\' := ne_of_isPlain h (by decide)
  simp only [step, feed, inCode, if_neg hslash]
  exact codeChar_plain _ h

end Scan

open Scan

/-- In code, the text is read with its literals, and leaves open what was open before. -/
def Reads (cs : List Char) (literals : List String) : Prop :=
  ∀ awaited read, (inCode awaited read).run cs = some (inCode awaited (read ++ literals))

/-- A text of plain characters only. -/
def Plain (cs : List Char) : Prop := ∀ c ∈ cs, isPlain c = true

instance (cs : List Char) : Decidable (Plain cs) :=
  decidable_of_iff (cs.all isPlain = true) List.all_eq_true

namespace Plain

theorem cons {c : Char} {cs : List Char} (hc : isPlain c = true) (h : Plain cs) :
    Plain (c :: cs) :=
  List.forall_mem_cons.mpr ⟨hc, h⟩

theorem append {cs ds : List Char} (h : Plain cs) (h' : Plain ds) : Plain (cs ++ ds) :=
  List.forall_mem_append.mpr ⟨h, h'⟩

theorem space : Plain " ".toList := by decide

theorem comma : Plain ", ".toList := by decide

theorem equals : Plain " = ".toList := by decide

theorem semicolon : Plain ";".toList := by decide

end Plain

namespace Reads

variable {cs ds : List Char} {literals more : List String}

theorem nil : Reads [] [] := fun awaited read => by simp

theorem append (h : Reads cs literals) (h' : Reads ds more) :
    Reads (cs ++ ds) (literals ++ more) := by
  intro awaited read
  rw [run_append, h, Option.bind_some, h', List.append_assoc]

theorem plain (h : Plain cs) : Reads cs [] := by
  intro awaited read
  induction cs with
  | nil => simp
  | cons c rest ih =>
    rw [run_cons, step_plain _ _ (h c List.mem_cons_self), Option.bind_some]
    exact ih fun d hd => h d (List.mem_cons_of_mem _ hd)

theorem newline : Reads ['\n'] [] := plain (List.forall_mem_singleton.mpr rfl)

/-- Brackets of a kind with a text between them that is read in code. -/
theorem bracketed {opening closing : Char} (h : Reads cs literals)
    (hopen : ∀ awaited read, (inCode awaited read).step opening =
      some (inCode (closing :: awaited) read))
    (hclose : ∀ awaited read, (inCode (closing :: awaited) read).step closing =
      some (inCode awaited read)) :
    Reads (opening :: cs ++ [closing]) literals := by
  intro awaited read
  rw [List.cons_append, run_cons, hopen, Option.bind_some, run_append, h, Option.bind_some,
    run_cons, hclose, Option.bind_some, run_nil]

theorem parens (h : Reads cs literals) : Reads ('(' :: cs ++ [')']) literals :=
  h.bracketed (fun _ _ => rfl) fun _ _ => rfl

theorem braces (h : Reads cs literals) : Reads ('\x7b' :: cs ++ ['\x7d']) literals :=
  h.bracketed (fun _ _ => rfl) fun _ _ => rfl

/-- A name with arguments behind it. -/
theorem call {name : List Char} (h : Reads cs literals) (hname : Plain name) :
    Reads (name ++ '(' :: cs ++ [')']) literals := by
  simpa using (Reads.plain hname).append h.parens

theorem scan_eq {text : String} (h : Reads text.toList literals) : scan text = some literals := by
  have hrun := h [] []
  rw [scan, hrun]
  exact if_pos rfl

end Reads

/-! ## Literals -/

/-- A character is written behind a backslash, or as it is. -/
theorem escape_cases (c : Char) :
    (∃ e, e ≠ 'u' ∧ unescaped? e = some c ∧ escape c = ['\\', e]) ∨
    (c ≠ '"' ∧ c ≠ '\\' ∧ c ≠ '\n' ∧ c ≠ '\x0d' ∧ escape c = [c]) := by
  by_cases hshort : c ∈ ['"', '\\', '\n', '\x0d', '\t']
  · left
    simp only [List.mem_cons, List.not_mem_nil, or_false] at hshort
    rcases hshort with rfl | rfl | rfl | rfl | rfl
    · exact ⟨'"', by decide, rfl, rfl⟩
    · exact ⟨'\\', by decide, rfl, rfl⟩
    · exact ⟨'n', by decide, rfl, rfl⟩
    · exact ⟨'r', by decide, rfl, rfl⟩
    · exact ⟨'t', by decide, rfl, rfl⟩
  · right
    simp only [List.mem_cons, List.not_mem_nil, or_false, not_or] at hshort
    simp [escape, hshort]

/-- A written character is read as the character, whatever stands before it in the literal. -/
theorem run_escape (awaited : List Char) (read : List String) (value : List Char) (c : Char) :
    (⟨.even, .literal value, awaited, read⟩ : Scan).run (escape c) =
      some ⟨.even, .literal (value ++ [c]), awaited, read⟩ := by
  rcases escape_cases c with ⟨e, hu, hescaped, hc⟩ | ⟨hquote, hslash, hline, hreturn, hc⟩
  · simp [hc, step, feed, literalChar, hu, hescaped]
  · simp [hc, step, feed, literalChar, hquote, hslash, hline, hreturn]

theorem run_flatMap_escape (awaited : List Char) (read : List String) (value cs : List Char) :
    (⟨.even, .literal value, awaited, read⟩ : Scan).run (cs.flatMap escape) =
      some ⟨.even, .literal (value ++ cs), awaited, read⟩ := by
  induction cs generalizing value with
  | nil => simp
  | cons c rest ih =>
    rw [List.flatMap_cons, run_append, run_escape, Option.bind_some, ih, List.append_assoc,
      List.singleton_append]

theorem Reads.literal (value : String) : Reads (Piece.literal value).chars [value] := by
  intro awaited read
  have hopen : (inCode awaited read).step '"' = some ⟨.even, .literal [], awaited, read⟩ := rfl
  have hclose : (⟨.even, .literal value.toList, awaited, read⟩ : Scan).step '"' =
      some (inCode awaited (read ++ [value])) := by
    simp [step, feed, literalChar, inCode]
  rw [Piece.chars, List.cons_append, run_cons, hopen, Option.bind_some, run_append,
    run_flatMap_escape, Option.bind_some, List.nil_append, run_cons, hclose, Option.bind_some,
    run_nil]

/-! ## Blank ends of lines

A line ends in code only. What blanks before its end lead to is code as well, and so they change
nothing. -/

namespace Scan

variable {s t : Scan} {c : Char} {cs rest : List Char}

theorem isPlain_of_isBlank (h : Text.isBlank c = true) : isPlain c = true :=
  isPlain_of (by decide) h

theorem hexValue?_of_isBlank (h : Text.isBlank c = true) : Json.hexValue? c = none := by
  have hcode : ¬ (48 ≤ c.toNat ∧ c.toNat ≤ 57) ∧ ¬ (97 ≤ c.toNat ∧ c.toNat ≤ 102) ∧
      ¬ (65 ≤ c.toNat ∧ c.toNat ≤ 70) := by
    simp only [Text.isBlank, Bool.or_eq_true, Bool.and_eq_true, decide_eq_true_eq,
      beq_iff_eq] at h
    omega
  simp [Json.hexValue?, Char.isDigit, Char.le_def, UInt32.le_iff_toNat_le, hcode]

/-- A blank that is placed in code changes nothing. -/
theorem feed_blank (hc : Text.isBlank c = true) (h : s.feed c = some t) (ht : t.place = .code) :
    t = s := by
  unfold feed at h
  split at h
  · rw [codeChar_plain s (isPlain_of_isBlank hc)] at h
    exact (Option.some.inj h).symm
  · rename_i value _
    have hquote : c ≠ '"' := ne_of_isPlain (isPlain_of_isBlank hc) (by decide)
    have hslash : c ≠ '\\' := ne_of_isPlain (isPlain_of_isBlank hc) (by decide)
    simp only [literalChar, hquote, hslash, if_false] at h
    split at h
    · cases h
    · cases h
      cases ht
  · obtain ⟨d, -, rfl⟩ := Option.map_eq_some_iff.mp h
    cases ht

/-- A backslash is not placed in code. -/
theorem place_ne_code_of_feed (h : s.feed '\\' = some t) : t.place ≠ .code := by
  unfold feed at h
  split at h
  · cases h
  · cases h
    simp
  · obtain ⟨d, -, rfl⟩ := Option.map_eq_some_iff.mp h
    simp

theorem place_of_feed_newline (h : s.feed '\n' = some t) : t.place = .code := by
  unfold feed at h
  split at h
  · rename_i hplace
    rw [codeChar_plain s (by decide)] at h
    cases h
    exact hplace
  · cases h
  · cases h

/-- A blank leads to code from code only, and behind no backslash that is still to be placed. -/
theorem step_blank (hc : Text.isBlank c = true) (h : s.step c = some t) (ht : t.place = .code) :
    t = s ∧ s.raw = .even := by
  have hplain := isPlain_of_isBlank hc
  have hslash : c ≠ '\\' := ne_of_isPlain hplain (by decide)
  have hu : c ≠ 'u' := by
    rintro rfl
    cases hc
  unfold step at h
  split at h
  · rename_i hraw
    rw [if_neg hslash] at h
    exact ⟨feed_blank hc h ht, hraw⟩
  · rw [if_neg hu] at h
    obtain ⟨u, hu, h⟩ := Option.bind_eq_some_iff.mp h
    obtain rfl := feed_blank hc h ht
    exact (place_ne_code_of_feed hu ht).elim
  · rw [if_neg hu, hexValue?_of_isBlank hc] at h
    cases h
  · rw [hexValue?_of_isBlank hc] at h
    cases h

theorem place_of_step_newline (h : s.step '\n' = some t) : t.place = .code := by
  unfold step at h
  split at h
  · exact place_of_feed_newline h
  · obtain ⟨u, -, h⟩ := Option.bind_eq_some_iff.mp h
    exact place_of_feed_newline h
  · cases h
  · cases h

theorem run_newline (awaited : List Char) (read : List String) (cs : List Char) :
    (inCode awaited read).run ('\n' :: cs) = (inCode awaited read).run cs := by
  rw [run_cons, step_plain _ _ (by decide), Option.bind_some]

/-- Blanks that end a line stand in code, where they change nothing. -/
theorem run_blank_line (hcs : Text.Blank cs) (h : s.run (cs ++ '\n' :: rest) = some t) :
    s = inCode s.awaited s.literals ∧ s.run rest = some t := by
  induction cs generalizing s with
  | nil =>
    obtain ⟨u, hu, h⟩ := Option.bind_eq_some_iff.mp h
    have hplace := place_of_step_newline hu
    obtain ⟨rfl, hraw⟩ := step_blank (by decide) hu hplace
    obtain ⟨raw, place, awaited, literals⟩ := u
    cases hraw
    cases hplace
    exact ⟨rfl, h⟩
  | cons c cs ih =>
    obtain ⟨u, hu, h⟩ := Option.bind_eq_some_iff.mp h
    obtain ⟨hcode, hrest⟩ := ih (fun d hd => hcs d (List.mem_cons_of_mem _ hd)) h
    have hplace : u.place = .code := by rw [hcode]; rfl
    obtain ⟨rfl, -⟩ := step_blank (hcs c List.mem_cons_self) hu hplace
    exact ⟨hcode, hrest⟩

/-- At the end of each line of a text that scans, nothing is open but brackets. -/
theorem exists_inCode_of_run {before after : List Char}
    (h : s.run (before ++ '\n' :: after) = some t) :
    ∃ awaited literals, s.run before = some (inCode awaited literals) := by
  rw [run_append] at h
  obtain ⟨u, hu, h⟩ := Option.bind_eq_some_iff.mp h
  obtain ⟨hcode, -⟩ := run_blank_line (List.forall_mem_nil _) h
  exact ⟨u.awaited, u.literals, hcode ▸ hu⟩

end Scan

end JsonMapping.Java
