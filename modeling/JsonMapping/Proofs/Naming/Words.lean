import JsonMapping.Naming.Words
import Mathlib.Data.List.Basic

/-! Words as a normal form. Splitting loses the underscores and nothing else, and what it gives are
words: not empty, without underscores, and upper case in their first character only. Words with
underscores between them are split into the same words again, and no other lists are, so names that
were split and joined once stay as they are. -/

namespace JsonMapping.Words

/-- Nothing in these characters ends a word. They may be no word yet, as before the first one. -/
structure Unbroken (word : List Char) : Prop where
  no_underscore : '_' ∉ word
  upper_first : ∀ c ∈ word.tail, Text.isUppercase c = false

structure IsWord (word : List Char) : Prop extends Unbroken word where
  ne_nil : word ≠ []

/-! ## What splitting gives -/

theorem Unbroken.nil : Unbroken [] := ⟨List.not_mem_nil, List.forall_mem_nil _⟩

theorem Unbroken.singleton {c : Char} (h : c ≠ '_') : Unbroken [c] :=
  ⟨by simpa using h.symm, List.forall_mem_nil _⟩

theorem Unbroken.concat {word : List Char} {c : Char} (hword : Unbroken word) (hc : c ≠ '_')
    (hlower : Text.isUppercase c = false) : Unbroken (word ++ [c]) := by
  cases word with
  | nil => exact .singleton hc
  | cons first rest =>
    refine ⟨fun h => ?_, List.forall_mem_append.mpr
      ⟨hword.upper_first, List.forall_mem_singleton.mpr hlower⟩⟩
    exact (List.mem_append.mp h).elim hword.no_underscore fun h =>
      hc (List.mem_singleton.mp h).symm

theorem isWord_of_mem_finish {word w : List Char} (hword : Unbroken word) (h : w ∈ finish word) :
    IsWord w := by
  cases word with
  | nil => cases h
  | cons c rest =>
    obtain rfl := List.mem_singleton.mp h
    exact ⟨hword, List.cons_ne_nil c rest⟩

theorem isWord_of_mem_splitFrom {word cs w : List Char} (hword : Unbroken word)
    (h : w ∈ splitFrom word cs) : IsWord w := by
  induction cs generalizing word with
  | nil => exact isWord_of_mem_finish hword h
  | cons c rest ih =>
    rw [splitFrom] at h
    split at h
    · exact (List.mem_append.mp h).elim (isWord_of_mem_finish hword) (ih .nil)
    rename_i hc
    split at h
    · exact (List.mem_append.mp h).elim (isWord_of_mem_finish hword) (ih (.singleton hc))
    · rename_i hlower
      exact ih (hword.concat hc (by simpa using hlower)) h

theorem isWord_of_mem_split {cs w : List Char} (h : w ∈ split cs) : IsWord w :=
  isWord_of_mem_splitFrom .nil h

theorem flatten_finish (word : List Char) : (finish word).flatten = word := by
  cases word <;> simp [finish]

theorem flatten_splitFrom (word cs : List Char) :
    (splitFrom word cs).flatten = word ++ cs.filter (· ≠ '_') := by
  induction cs generalizing word with
  | nil => simp [splitFrom, flatten_finish]
  | cons c rest ih =>
    rw [splitFrom]
    split
    · rename_i hc
      simp [flatten_finish, ih, hc]
    split
    · rename_i hc _
      simp [flatten_finish, ih, hc]
    · rename_i hc _
      simp [ih, hc]

/-- Nothing but the underscores is lost. -/
theorem flatten_split (cs : List Char) : (split cs).flatten = cs.filter (· ≠ '_') :=
  flatten_splitFrom [] cs

theorem forall_mem_split {p : Char → Prop} {cs : List Char} (h : ∀ c ∈ cs, p c) :
    ∀ w ∈ split cs, ∀ c ∈ w, p c := by
  intro w hw c hc
  have hmem : c ∈ (split cs).flatten := List.mem_flatten_of_mem hw hc
  rw [flatten_split] at hmem
  exact h c (List.mem_of_mem_filter hmem)

/-- Words in a row start with the first character that belongs to a word. -/
theorem head?_join_split (cs : List Char) :
    (join (split cs)).head? = cs.find? (· ≠ '_') := by
  have hjoin : (join (split cs)).head? = (split cs).flatten.head? := by
    cases hs : split cs with
    | nil => rfl
    | cons w rest =>
      have hmem : w ∈ split cs := hs ▸ List.mem_cons_self
      obtain ⟨c, more, hw⟩ := List.exists_cons_of_ne_nil (isWord_of_mem_split hmem).ne_nil
      cases rest <;> simp [join, hw, List.intercalate_cons_cons]
  rw [hjoin, flatten_split, List.head?_filter]

/-! ## Words that are split again -/

theorem splitFrom_underscore (word rest : List Char) :
    splitFrom word ('_' :: rest) = finish word ++ split rest := by
  simp [splitFrom, split]

/-- Characters that end no word are read into the word that came before them. -/
theorem splitFrom_append {word more rest : List Char} (hunderscore : '_' ∉ more)
    (hlower : ∀ c ∈ more, Text.isUppercase c = false) :
    splitFrom word (more ++ rest) = splitFrom (word ++ more) rest := by
  induction more generalizing word with
  | nil => simp
  | cons c more ih =>
    obtain ⟨hc, hunderscore⟩ := not_or.mp (List.mem_cons.not.mp hunderscore)
    obtain ⟨hclower, hlower⟩ := List.forall_mem_cons.mp hlower
    rw [List.cons_append, splitFrom, if_neg (Ne.symm hc), if_neg (by simp [hclower]),
      ih hunderscore hlower, List.append_assoc, List.singleton_append]

theorem IsWord.splitFrom_nil {word : List Char} (h : IsWord word) (rest : List Char) :
    splitFrom [] (word ++ rest) = splitFrom word rest := by
  obtain ⟨c, more, rfl⟩ := List.exists_cons_of_ne_nil h.ne_nil
  obtain ⟨hc, hunderscore⟩ := not_or.mp (List.mem_cons.not.mp h.no_underscore)
  -- whether the first character is upper case or not, it starts the word
  have hfirst : splitFrom [] (c :: (more ++ rest)) = splitFrom [c] (more ++ rest) := by
    rw [splitFrom, if_neg (Ne.symm hc)]
    split <;> rfl
  rw [List.cons_append, hfirst, splitFrom_append hunderscore h.upper_first,
    List.singleton_append]

theorem IsWord.finish_eq {word : List Char} (h : IsWord word) : finish word = [word] := by
  cases word with
  | nil => exact absurd rfl h.ne_nil
  | cons c rest => rfl

theorem split_join {words : List (List Char)} (h : ∀ w ∈ words, IsWord w) :
    split (join words) = words := by
  induction words with
  | nil => rfl
  | cons word rest ih =>
    obtain ⟨hword, hrest⟩ := List.forall_mem_cons.mp h
    cases rest with
    | nil =>
      calc split (join [word]) = splitFrom [] (word ++ []) := by simp [split, join]
        _ = finish word := hword.splitFrom_nil []
        _ = [word] := hword.finish_eq
    | cons second more =>
      have hjoin : join (word :: second :: more) = word ++ '_' :: join (second :: more) := by
        simp [join, List.intercalate_cons_cons]
      rw [hjoin, split, hword.splitFrom_nil, splitFrom_underscore, hword.finish_eq, ih hrest,
        List.singleton_append]

/-- Splitting gives words, which are the name without its underscores and stay the same when they
are joined and split again. The lists that joining and splitting keep are those of words. -/
theorem split_normal_form :
    (∀ cs, (∀ w ∈ split cs, IsWord w) ∧ (split cs).flatten = cs.filter (· ≠ '_') ∧
      split (join (split cs)) = split cs) ∧
    ∀ words, split (join words) = words ↔ ∀ w ∈ words, IsWord w := by
  refine ⟨fun cs => ?_, fun words => ⟨fun h w hw => ?_, split_join⟩⟩
  · have hwords : ∀ w ∈ split cs, IsWord w := fun _ => isWord_of_mem_split
    exact ⟨hwords, flatten_split cs, split_join hwords⟩
  · have hmem : w ∈ split (join words) := h.symm ▸ hw
    exact isWord_of_mem_split hmem

/-- Underscores at both ends and in a row, a run of capitals, and an upper case letter that is not
in ASCII. -/
example : (split "_ofHTTPCall__Änderung1_".toList).map String.ofList =
    ["of", "H", "T", "T", "P", "Call", "Änderung1"] := by
  decide +kernel

end JsonMapping.Words
