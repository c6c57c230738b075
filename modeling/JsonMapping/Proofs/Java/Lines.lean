import JsonMapping.Proofs.Java.Scanner
import Mathlib.Data.List.Forall2

/-! Scans of lines. Indentation and blank ends of lines do not matter to a scan, and so the text of
lines is read as the lines are. The main statement is `ReadsLines.textOf`. -/

namespace JsonMapping.Java

open Scan

/-! ## Lines with their ends -/

section Ended

variable {s t : Scan}

/-- Lines, each with its end. -/
def ended (ls : List (List Char)) : List Char := ls.flatMap (· ++ ['\n'])

@[simp] theorem ended_nil : ended [] = [] := rfl

@[simp] theorem ended_cons (l : List Char) (ls : List (List Char)) :
    ended (l :: ls) = l ++ '\n' :: ended ls := by
  simp [ended]

@[simp] theorem ended_append (ls ls' : List (List Char)) :
    ended (ls ++ ls') = ended ls ++ ended ls' :=
  List.flatMap_append

theorem intercalate_newline {ls : List (List Char)} (h : ls ≠ []) :
    List.intercalate ['\n'] ls ++ ['\n'] = ended ls := by
  induction ls with
  | nil => exact absurd rfl h
  | cons l rest ih =>
    cases rest with
    | nil => simp [ended]
    | cons l' rest => simp [ended_cons, List.intercalate_cons_cons, ← ih]

/-- A text that scans does so with the blank ends of its lines taken off. -/
theorem run_trimmed {ls : List (List Char)} (h : s.run (ended ls) = some t) :
    s.run (ended (ls.map Text.trimEnd)) = some t := by
  induction ls generalizing s with
  | nil => exact h
  | cons l rest ih =>
    obtain ⟨blanks, hblanks, hl⟩ := Text.exists_blank_trimEnd l
    rw [ended_cons, hl, List.append_assoc, run_append] at h
    obtain ⟨u, hu, h⟩ := Option.bind_eq_some_iff.mp h
    obtain ⟨hcode, h⟩ := run_blank_line hblanks h
    rw [List.map_cons, ended_cons, run_append, hu, Option.bind_some, hcode, run_newline, ← hcode]
    exact ih h

end Ended

/-- The characters of a line without its indentation. -/
def Line.bare (l : Line) : List Char := l.pieces.flatMap Piece.chars

@[simp] theorem Line.bare_ofPieces (pieces : List Piece) :
    (ofPieces pieces).bare = pieces.flatMap Piece.chars := rfl

@[simp] theorem Line.bare_code (text : String) : (code text).bare = text.toList :=
  List.append_nil _

@[simp] theorem Line.bare_blank : blank.bare = [] := rfl

@[simp] theorem Line.bare_nested (l : Line) : l.nested.bare = l.bare := rfl

/-- Indentation does not matter either, where the first line starts in code. -/
theorem run_indented (indent : Nat) {ls : List Line} {awaited : List Char} {read : List String}
    {t : Scan} (h : (inCode awaited read).run (ended (ls.map Line.bare)) = some t) :
    (inCode awaited read).run (ended (ls.map (Line.chars indent))) = some t := by
  induction ls generalizing awaited read with
  | nil => exact h
  | cons l rest ih =>
    have hspaces : Reads (List.replicate (indent * l.depth) ' ') [] := .plain fun c hc => by
      rw [List.eq_of_mem_replicate hc]
      rfl
    rw [List.map_cons, ended_cons, run_append] at h
    obtain ⟨u, hu, h⟩ := Option.bind_eq_some_iff.mp h
    obtain ⟨hcode, h⟩ := run_blank_line (List.forall_mem_nil _) h
    rw [hcode] at h
    rw [List.map_cons, ended_cons, Line.chars, List.append_assoc, run_append, hspaces,
      Option.bind_some, List.append_nil, run_append, ← Line.bare, hu, Option.bind_some, hcode,
      run_newline]
    exact ih h

/-! ## Lines that are read -/

/-- The lines are read in code, wherever they are indented. -/
def ReadsLines (ls : List Line) (literals : List String) : Prop :=
  Reads (ended (ls.map Line.bare)) literals

namespace ReadsLines

variable {ls ls' : List Line} {header : List Piece} {literals more : List String}

theorem nil : ReadsLines [] [] := Reads.nil

theorem append (h : ReadsLines ls literals) (h' : ReadsLines ls' more) :
    ReadsLines (ls ++ ls') (literals ++ more) := by
  simpa [ReadsLines] using Reads.append h h'

theorem ofPieces (h : Reads (header.flatMap Piece.chars) literals) :
    ReadsLines [.ofPieces header] literals := by
  simpa [ReadsLines] using h.append .newline

theorem nested (h : ReadsLines ls literals) : ReadsLines (ls.map Line.nested) literals := by
  simpa [ReadsLines, Function.comp_def] using h

/-- A header, and what a brace at the end of its line opens. -/
theorem opened (hheader : Reads (header.flatMap Piece.chars) literals)
    (h : ReadsLines (.code "\x7b" :: ls) more) :
    ReadsLines (.ofPieces (header ++ [.code " \x7b"]) :: ls) (literals ++ more) := by
  simpa [ReadsLines, Piece.chars] using hheader.append ((Reads.plain .space).append h)

/-- A brace, the lines of a body, and a brace that closes. -/
theorem closed (h : ReadsLines ls literals) :
    ReadsLines (.code "\x7b" :: (ls ++ [.code "\x7d"])) literals := by
  simpa [ReadsLines] using (Reads.newline.append h).braces.append .newline

/-- Behind the brace that closes, the next block starts on the same line. -/
theorem chained {last : List String} (h : ReadsLines ls literals)
    (hheader : Reads (header.flatMap Piece.chars) more)
    (hnext : ReadsLines (.code "\x7b" :: ls') last) :
    ReadsLines (.code "\x7b" ::
        (ls ++ .ofPieces (.code "\x7d else " :: header ++ [.code " \x7b"]) :: ls'))
      (literals ++ (more ++ last)) := by
  have helse : Reads " else ".toList [] := .plain (by decide)
  simpa [ReadsLines, Piece.chars] using
    (Reads.newline.append h).braces.append
      (helse.append (hheader.append ((Reads.plain .space).append hnext)))

theorem block (hheader : Reads (header.flatMap Piece.chars) literals) (h : ReadsLines ls more) :
    ReadsLines (Line.block header ls) (literals ++ more) :=
  opened hheader h.nested.closed

/-- Groups with a blank line between them. -/
theorem spaced {groups : List (List Line)} {literals : List (List String)}
    (h : List.Forall₂ ReadsLines groups literals) :
    ReadsLines (Line.spaced groups) literals.flatten := by
  unfold Line.spaced
  induction h with
  | nil => exact nil
  | cons hfirst hrest ih =>
    cases hrest with
    | nil => simpa using hfirst
    | cons _ _ =>
      have hblank : ReadsLines [.blank] [] := .ofPieces .nil
      rw [List.intercalate_cons_cons, List.append_assoc]
      exact hfirst.append (hblank.append ih)

end ReadsLines

/-! ## Texts of lines -/

/-- The lines of a text are the given ones up to their blank ends. Where a name breaks one of them,
it counts as several. -/
theorem toList_textOf (indent : Nat) {ls : List Line} (h : ls ≠ []) :
    ∃ raw, ended raw = ended (ls.map (Line.chars indent)) ∧
      (Line.textOf indent ls).toList = ended (raw.map Text.trimEnd) := by
  refine ⟨Text.pieces '\n' (List.intercalate ['\n'] (ls.map (Line.chars indent))), ?_, ?_⟩
  · rw [← intercalate_newline (Text.pieces_ne_nil _ _), Text.intercalate_pieces,
      intercalate_newline (by simpa using h)]
  · simp [Line.textOf, ended, List.flatMap_map]

/-- The text of lines is read as the lines are. -/
theorem ReadsLines.textOf {ls : List Line} {literals : List String} (h : ReadsLines ls literals)
    (hne : ls ≠ []) (indent : Nat) : Reads (Line.textOf indent ls).toList literals := by
  intro awaited read
  obtain ⟨raw, hraw, htext⟩ := toList_textOf indent hne
  rw [htext]
  refine run_trimmed ?_
  rw [hraw]
  exact run_indented indent (h awaited read)

theorem intercalate_newline_append {ls ls' : List (List Char)} (h : ls ≠ []) (h' : ls' ≠ []) :
    List.intercalate ['\n'] (ls ++ ls') =
      List.intercalate ['\n'] ls ++ '\n' :: List.intercalate ['\n'] ls' := by
  have hne : ls ++ ls' ≠ [] := by simp [h]
  have hends : List.intercalate ['\n'] (ls ++ ls') ++ ['\n'] =
      (List.intercalate ['\n'] ls ++ '\n' :: List.intercalate ['\n'] ls') ++ ['\n'] := by
    rw [List.append_assoc, List.cons_append, intercalate_newline hne, intercalate_newline h',
      ended_append, ← intercalate_newline h, List.append_assoc, List.singleton_append]
  exact List.append_cancel_right hends

theorem textOf_append (indent : Nat) {ls ls' : List Line} (h : ls ≠ []) (h' : ls' ≠ []) :
    Line.textOf indent (ls ++ ls') = Line.textOf indent ls ++ Line.textOf indent ls' := by
  have hraw : ls.map (Line.chars indent) ≠ [] := by simpa using h
  have hraw' : ls'.map (Line.chars indent) ≠ [] := by simpa using h'
  simp only [Line.textOf, List.map_append, intercalate_newline_append hraw hraw',
    Text.pieces_append, List.flatMap_append, String.ofList_append]

/-- A line without line breaks stands first as it is, up to its blank end. -/
theorem toList_textOf_cons (indent : Nat) {l : Line} {ls : List Line} (hne : ls ≠ [])
    (h : '\n' ∉ l.chars indent) : (Line.textOf indent (l :: ls)).toList =
      Text.trimEnd (l.chars indent) ++ '\n' :: (Line.textOf indent ls).toList := by
  rw [← List.singleton_append, textOf_append indent (by simp) hne]
  simp [Line.textOf, Text.pieces_of_not_mem h]

end JsonMapping.Java
