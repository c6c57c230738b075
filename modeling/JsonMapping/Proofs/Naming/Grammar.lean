import JsonMapping.Proofs.Naming.Dotted
import Mathlib.Data.List.TakeWhile

/-! The grammar of type names. A type is a head, `ident ('.' ident)*` with blanks around it, or a
head and one or more types with commas between them, in angle brackets that blanks may follow.
`Spells` tells which texts are derived, and what type each of them names. The main statement is
`parse_spells`: exactly these texts are read, and as these types. -/

namespace JsonMapping

/-! ## Blank ends -/

namespace Text

/-- A run of blank characters. -/
def Blank (cs : List Char) : Prop := ∀ c ∈ cs, isBlank c = true

theorem blank_takeWhile (cs : List Char) : Blank (cs.takeWhile isBlank) :=
  fun _ hc => List.mem_takeWhile_imp hc

theorem Blank.append {cs ds : List Char} (hc : Blank cs) (hd : Blank ds) : Blank (cs ++ ds) := by
  intro c hmem
  rcases List.mem_append.mp hmem with h | h
  · exact hc c h
  · exact hd c h

theorem exists_blank_trimEnd (cs : List Char) :
    ∃ after, Blank after ∧ cs = trimEnd cs ++ after := by
  refine ⟨(cs.reverse.takeWhile isBlank).reverse, ?_, ?_⟩
  · intro c hc
    exact blank_takeWhile _ c (List.mem_reverse.mp hc)
  · rw [trimEnd, ← List.reverse_append, List.takeWhile_append_dropWhile, List.reverse_reverse]

/-- A text is what trimming leaves of it, between blanks. -/
theorem exists_blank_trim (cs : List Char) :
    ∃ before after, Blank before ∧ Blank after ∧ cs = before ++ trim cs ++ after := by
  obtain ⟨after, hafter, hend⟩ := exists_blank_trimEnd (trimStart cs)
  refine ⟨cs.takeWhile isBlank, after, blank_takeWhile cs, hafter, ?_⟩
  rw [trim, List.append_assoc, ← hend, trimStart, List.takeWhile_append_dropWhile]

theorem dropWhile_isBlank_eq_self {cs : List Char} (h : ∀ c ∈ cs.head?, isBlank c = false) :
    cs.dropWhile isBlank = cs := by
  cases cs with
  | nil => rfl
  | cons c rest => simp [h c rfl]

/-- Trimming cuts off blanks, and stops at what is not blank. -/
theorem trim_append {before cs after : List Char} (hbefore : Blank before) (hafter : Blank after)
    (hne : cs ≠ []) (hfirst : ∀ c ∈ cs.head?, isBlank c = false)
    (hlast : ∀ c ∈ cs.getLast?, isBlank c = false) : trim (before ++ cs ++ after) = cs := by
  have hstart : trimStart (before ++ cs ++ after) = cs ++ after := by
    have hhead : (cs ++ after).head? = cs.head? := by
      cases cs with
      | nil => exact absurd rfl hne
      | cons c rest => rfl
    rw [trimStart, List.append_assoc, List.dropWhile_append_of_pos hbefore]
    exact dropWhile_isBlank_eq_self (by rwa [hhead])
  have hrev : ∀ c ∈ after.reverse, isBlank c = true := fun c hc =>
    hafter c (List.mem_reverse.mp hc)
  rw [trim, hstart, trimEnd, List.reverse_append, List.dropWhile_append_of_pos hrev,
    dropWhile_isBlank_eq_self (by rwa [List.head?_reverse]), List.reverse_reverse]

end Text

open Text

namespace Identifier

/-- The codes of the characters that identifiers have. -/
theorem toNat_of_isPart {c : Char} (h : isPart c = true) :
    c.toNat = 36 ∨ 48 ≤ c.toNat ∧ c.toNat ≤ 57 ∨ 65 ≤ c.toNat ∧ c.toNat ≤ 90 ∨ c.toNat = 95 ∨
      97 ≤ c.toNat ∧ c.toNat ≤ 122 := by
  -- letters of both cases, digits, and the two other characters
  have hcases : (((decide (65 ≤ c.val ∧ c.val ≤ 90) ||
      (decide (97 ≤ c.val) && decide (c.val ≤ 122))) ||
        (decide (48 ≤ c.val) && decide (c.val ≤ 57))) || c == '_' || c == '$') = true := h
  simp only [Bool.or_eq_true, Bool.and_eq_true, beq_iff_eq, decide_eq_true_eq,
    UInt32.le_iff_toNat_le] at hcases
  rcases hcases with (((⟨hlow, hhigh⟩ | ⟨hlow, hhigh⟩) | ⟨hlow, hhigh⟩) | rfl) | rfl
  · exact .inr (.inr (.inl ⟨hlow, hhigh⟩))
  · exact .inr (.inr (.inr (.inr ⟨hlow, hhigh⟩)))
  · exact .inr (.inl ⟨hlow, hhigh⟩)
  · exact .inr (.inr (.inr (.inl rfl)))
  · exact .inl rfl

theorem isPart_eq_false_of_isBlank {c : Char} (h : isBlank c = true) : isPart c = false := by
  simp only [isBlank, Bool.or_eq_true, Bool.and_eq_true, decide_eq_true_eq, beq_iff_eq] at h
  by_contra hpart
  have hcode := toNat_of_isPart (by simpa using hpart)
  omega

end Identifier

namespace JavaType

/-! ## The grammar -/

/-- The type that a head and arguments name. Of the segments before the last one, those that start
with a lower case letter are the package, as far as they lead. -/
def place (outer : List Identifier) (simple : Identifier) (args : List JavaType) : JavaType :=
  .mk (outer.takeWhile startsLower) (outer.dropWhile startsLower) simple args

/-- `W ident ('.' ident)* W`, where `simple` is the last of the segments. -/
def Heads (cs : List Char) (outer : List Identifier) (simple : Identifier) : Prop :=
  ∃ before after, Blank before ∧ Blank after ∧
    cs = before ++ dotted (outer ++ [simple]) ++ after

/-- The text is derived from the grammar `T = W H W | W H W '<' T (',' T)* '>' W`, and it names the
type. -/
inductive Spells : List Char → JavaType → Prop
  | head {cs : List Char} {outer : List Identifier} {simple : Identifier} :
    Heads cs outer simple → Spells cs (place outer simple [])
  | generic {cs after : List Char} {outer : List Identifier} {simple : Identifier}
      {args : List (List Char × JavaType)} :
    Heads cs outer simple → args ≠ [] → (∀ arg ∈ args, Spells arg.1 arg.2) → Blank after →
      Spells (cs ++ '<' :: List.intercalate [','] (args.map Prod.fst) ++ '>' :: after)
        (place outer simple (args.map Prod.snd))

/-! ## Heads -/

section Lists

variable {α β : Type} {f : α → Option β}

theorem mapM_map_fst {pairs : List (α × β)} (h : ∀ p ∈ pairs, f p.1 = some p.2) :
    (pairs.map Prod.fst).mapM f = some (pairs.map Prod.snd) := by
  induction pairs with
  | nil => rfl
  | cons p rest ih =>
    simp [h p List.mem_cons_self, ih fun q hq => h q (List.mem_cons_of_mem _ hq)]

/-- A list that is read whole is read element by element. -/
theorem exists_of_mapM_eq_some {as : List α} {bs : List β} (h : as.mapM f = some bs) :
    ∃ pairs : List (α × β), as = pairs.map Prod.fst ∧ bs = pairs.map Prod.snd ∧
      ∀ p ∈ pairs, f p.1 = some p.2 := by
  induction as generalizing bs with
  | nil =>
    cases h
    exact ⟨[], rfl, rfl, by simp⟩
  | cons a rest ih =>
    rw [List.mapM_cons] at h
    obtain ⟨b, hb, h⟩ := Option.bind_eq_some_iff.mp h
    obtain ⟨cs, hcs, h⟩ := Option.bind_eq_some_iff.mp h
    cases h
    obtain ⟨pairs, rfl, rfl, hpairs⟩ := ih hcs
    exact ⟨(a, b) :: pairs, rfl, rfl, List.forall_mem_cons.mpr ⟨hb, hpairs⟩⟩

end Lists

theorem names?_dotted {names : List Identifier} (h : names ≠ []) :
    names? (dotted names) = some names := by
  have hread : ∀ p ∈ names.map (fun n => (n.text.toList, n)),
      Identifier.ofChars? p.1 = some p.2 := by
    intro p hp
    obtain ⟨n, -, rfl⟩ := List.mem_map.mp hp
    rw [Identifier.ofChars?, String.ofList_toList, Identifier.ofString?_text]
  rw [names?, pieces_dotted h]
  simpa [Function.comp_def] using mapM_map_fst hread

theorem place?_append (outer : List Identifier) (simple : Identifier) (args : List JavaType) :
    place? (outer ++ [simple]) args = some (place outer simple args) := by
  simp [place?, place]

/-- Names that are placed are those of a head. -/
theorem exists_place {names : List Identifier} {args : List JavaType} {t : JavaType}
    (h : place? names args = some t) :
    ∃ outer simple, names = outer ++ [simple] ∧ t = place outer simple args := by
  obtain ⟨simple, hsimple, rfl⟩ := Option.map_eq_some_iff.mp h
  refine ⟨names.dropLast, simple, ?_, rfl⟩
  rw [List.dropLast_append_getLast? _ hsimple]

theorem isBlank_eq_false_of_mem_dotted {names : List Identifier} {c : Char}
    (h : c ∈ dotted names) : isBlank c = false := by
  by_contra hblank
  have hblank : isBlank c = true := by simpa using hblank
  refine not_mem_dotted (Identifier.isPart_eq_false_of_isBlank hblank) ?_ names h
  rintro rfl
  exact absurd hblank (by decide)

theorem trim_of_heads {cs : List Char} {outer : List Identifier} {simple : Identifier}
    (h : Heads cs outer simple) : trim cs = dotted (outer ++ [simple]) := by
  obtain ⟨before, after, hbefore, hafter, rfl⟩ := h
  refine trim_append hbefore hafter (mt dotted_eq_nil_iff.mp (by simp)) ?_ ?_
  · exact fun c hc => isBlank_eq_false_of_mem_dotted (List.mem_of_mem_head? hc)
  · exact fun c hc => isBlank_eq_false_of_mem_dotted (List.mem_of_mem_getLast? hc)

theorem not_mem_of_heads {cs : List Char} {outer : List Identifier} {simple : Identifier} {c : Char}
    (h : Heads cs outer simple) (hpart : Identifier.isPart c = false) (hdot : c ≠ '.')
    (hblank : isBlank c = false) : c ∉ cs := by
  obtain ⟨before, after, hbefore, hafter, rfl⟩ := h
  have hends : ∀ ds, Blank ds → c ∉ ds := by
    intro ds hds hc
    rw [hds c hc] at hblank
    cases hblank
  simp only [List.mem_append, not_or]
  exact ⟨⟨hends _ hbefore, not_mem_dotted hpart hdot _⟩, hends _ hafter⟩

/-! ## Arguments -/

theorem splitArgs_ne_nil {depth : Nat} {cs : List Char} {parts : List (List Char)}
    (h : splitArgs depth cs = some parts) : parts ≠ [] := by
  cases cs with
  | nil =>
    simp only [splitArgs] at h
    split at h
    · cases h
      simp
    · cases h
  | cons c rest =>
    simp only [splitArgs] at h
    split at h
    · obtain ⟨ps, -, rfl⟩ := Option.map_eq_some_iff.mp h
      simp
    · split at h
      · cases h
      · obtain ⟨ps, -, rfl⟩ := Option.map_eq_some_iff.mp h
        cases ps <;> simp

/-- The parts of a text with commas between them are the text. -/
theorem intercalate_of_splitArgs {depth : Nat} {cs : List Char} {parts : List (List Char)}
    (h : splitArgs depth cs = some parts) : List.intercalate [','] parts = cs := by
  induction cs generalizing depth parts with
  | nil =>
    simp only [splitArgs] at h
    split at h <;> cases h
    rfl
  | cons c rest ih =>
    simp only [splitArgs] at h
    split at h
    · rename_i hc
      obtain ⟨ps, hps, rfl⟩ := Option.map_eq_some_iff.mp h
      obtain ⟨q, qs, rfl⟩ := List.exists_cons_of_ne_nil (splitArgs_ne_nil hps)
      rw [List.intercalate_cons_cons, ih hps, hc.1]
      rfl
    · split at h
      · cases h
      · obtain ⟨ps, hps, rfl⟩ := Option.map_eq_some_iff.mp h
        obtain ⟨q, qs, rfl⟩ := List.exists_cons_of_ne_nil (splitArgs_ne_nil hps)
        rw [← ih hps]
        cases qs with
        | nil => simp
        | cons r rs => simp [List.intercalate_cons_cons]

/-- In front of any text, at least `depth` brackets deep, the text goes to the first part. -/
def Sticks (depth : Nat) (cs : List Char) : Prop :=
  ∀ extra rest part parts, splitArgs (depth + extra) rest = some (part :: parts) →
    splitArgs (depth + extra) (cs ++ rest) = some ((cs ++ part) :: parts)

theorem Sticks.nil (depth : Nat) : Sticks depth [] := fun _ _ _ _ h => h

theorem Sticks.append {depth : Nat} {cs ds : List Char} (hc : Sticks depth cs)
    (hd : Sticks depth ds) : Sticks depth (cs ++ ds) := by
  intro extra rest part parts h
  rw [List.append_assoc, List.append_assoc]
  exact hc extra _ _ _ (hd extra _ _ _ h)

/-- A comma in brackets ends no part. -/
theorem Sticks.comma (depth : Nat) : Sticks (depth + 1) [','] := by
  intro extra rest part parts h
  simp [splitArgs, h]

theorem Sticks.plain (depth : Nat) {cs : List Char} (hcomma : ',' ∉ cs) (hopen : '<' ∉ cs)
    (hclose : '>' ∉ cs) : Sticks depth cs := by
  induction cs with
  | nil => exact .nil depth
  | cons c rest ih =>
    simp only [List.mem_cons, not_or] at hcomma hopen hclose
    have hfirst : Sticks depth [c] := by
      intro extra more part parts h
      simp [splitArgs, h, Ne.symm hcomma.1, Ne.symm hopen.1, Ne.symm hclose.1]
    exact hfirst.append (ih hcomma.2 hopen.2 hclose.2)

/-- What sticks inside of brackets sticks together with them. -/
theorem Sticks.brackets {depth : Nat} {cs : List Char} (h : Sticks (depth + 1) cs) :
    Sticks depth ('<' :: cs ++ ['>']) := by
  intro extra rest part parts hrest
  have hclose : splitArgs (depth + extra + 1) ('>' :: rest) = some (('>' :: part) :: parts) := by
    simp [splitArgs, hrest]
  rw [Nat.add_right_comm] at hclose
  have hinside := h extra _ _ _ hclose
  rw [Nat.add_right_comm] at hinside
  simp [splitArgs, hinside]

theorem sticks_intercalate {depth : Nat} {parts : List (List Char)}
    (h : ∀ part ∈ parts, Sticks (depth + 1) part) :
    Sticks (depth + 1) (List.intercalate [','] parts) := by
  induction parts with
  | nil => exact .nil _
  | cons part rest ih =>
    have hpart := h part List.mem_cons_self
    have hrest := ih fun q hq => h q (List.mem_cons_of_mem _ hq)
    cases rest with
    | nil => simpa using hpart
    | cons q qs =>
      rw [List.intercalate_cons_cons]
      exact (hpart.append (.comma depth)).append hrest

theorem sticks_of_heads {cs : List Char} {outer : List Identifier} {simple : Identifier}
    (h : Heads cs outer simple) (depth : Nat) : Sticks depth cs :=
  .plain depth (not_mem_of_heads h (by decide) (by decide) (by decide))
    (not_mem_of_heads h (by decide) (by decide) (by decide))
    (not_mem_of_heads h (by decide) (by decide) (by decide))

theorem sticks_of_blank {cs : List Char} (h : Blank cs) (depth : Nat) : Sticks depth cs := by
  have hne : ∀ c, isBlank c = false → c ∉ cs := by
    intro c hc hmem
    rw [h c hmem] at hc
    cases hc
  exact .plain depth (hne _ (by decide)) (hne _ (by decide)) (hne _ (by decide))

/-- A type keeps together: its commas stand in its brackets. -/
theorem Spells.sticks {cs : List Char} {t : JavaType} (h : Spells cs t) (depth : Nat) :
    Sticks depth cs := by
  induction h generalizing depth with
  | head hhead => exact sticks_of_heads hhead depth
  | @generic cs after outer simple args hhead _ _ hafter ih =>
    have hargs : Sticks (depth + 1) (List.intercalate [','] (args.map Prod.fst)) := by
      refine sticks_intercalate ?_
      intro part hpart
      obtain ⟨arg, harg, rfl⟩ := List.mem_map.mp hpart
      exact ih arg harg (depth + 1)
    have hall := ((sticks_of_heads hhead depth).append hargs.brackets).append
      (sticks_of_blank hafter depth)
    simpa using hall

/-- Types with commas between them are split into the texts of the types. -/
theorem splitArgs_intercalate {parts : List (List Char)} (hne : parts ≠ [])
    (h : ∀ part ∈ parts, Sticks 0 part) :
    splitArgs 0 (List.intercalate [','] parts) = some parts := by
  have hend : ∀ part, Sticks 0 part → ∀ rest more, splitArgs 0 rest = some ([] :: more) →
      splitArgs 0 (part ++ rest) = some (part :: more) := by
    intro part hpart rest more hrest
    simpa using hpart 0 rest [] more hrest
  induction parts with
  | nil => exact absurd rfl hne
  | cons part rest ih =>
    have hpart := h part List.mem_cons_self
    cases rest with
    | nil => simpa using hend part hpart [] [] rfl
    | cons q qs =>
      have hrest := ih (by simp) fun r hr => h r (List.mem_cons_of_mem _ hr)
      rw [List.intercalate_cons_cons, List.append_assoc, List.singleton_append]
      refine hend part hpart _ _ ?_
      simp [splitArgs, hrest]

/-! ## Layout -/

theorem cutBracket_of_not_mem {cs : List Char} (h : '<' ∉ cs) : cutBracket cs = (cs, none) := by
  have hnil : cs.dropWhile (· != '<') = [] := by
    rw [List.dropWhile_eq_nil_iff]
    intro c hc
    simpa using fun he : c = '<' => h (he ▸ hc)
  simp [cutBracket, hnil]

theorem cutBracket_append {cs : List Char} (h : '<' ∉ cs) (rest : List Char) :
    cutBracket (cs ++ '<' :: rest) = (cs, some rest) := by
  have hne : ∀ c ∈ cs, (c != '<') = true := fun c hc => by
    simpa using fun he : c = '<' => h (he ▸ hc)
  simp [cutBracket, List.dropWhile_append_of_pos hne, List.takeWhile_append_of_pos hne]

theorem eq_of_cutBracket {cs head rest : List Char} (h : cutBracket cs = (head, some rest)) :
    cs = head ++ '<' :: rest := by
  unfold cutBracket at h
  split at h
  · cases h
  · rename_i c tail hd
    have hc : c = '<' := by
      have := List.head?_dropWhile_not (· != '<') cs
      rw [hd] at this
      simpa using this
    subst hc
    cases h
    rw [← hd, List.takeWhile_append_dropWhile]

theorem layout?_of_heads {cs : List Char} {outer : List Identifier} {simple : Identifier}
    (h : Heads cs outer simple) : layout? cs = some (dotted (outer ++ [simple]), []) := by
  have hopen : '<' ∉ dotted (outer ++ [simple]) := not_mem_dotted (by decide) (by decide) _
  simp [layout?, trim_of_heads h, cutBracket_of_not_mem hopen]

theorem layout?_generic {cs after : List Char} {outer : List Identifier} {simple : Identifier}
    {parts : List (List Char)} (h : Heads cs outer simple) (hafter : Blank after)
    (hne : parts ≠ []) (hparts : ∀ part ∈ parts, Sticks 0 part) :
    layout? (cs ++ '<' :: List.intercalate [','] parts ++ '>' :: after) =
      some (dotted (outer ++ [simple]), parts) := by
  obtain ⟨before, between, hbefore, hbetween, rfl⟩ := h
  have hhead : Heads (dotted (outer ++ [simple]) ++ between) outer simple :=
    ⟨[], between, by simp [Blank], hbetween, by simp⟩
  have htrim : trim (before ++ dotted (outer ++ [simple]) ++ between ++
      '<' :: List.intercalate [','] parts ++ '>' :: after) =
        dotted (outer ++ [simple]) ++ between ++
          '<' :: (List.intercalate [','] parts ++ ['>']) := by
    have hdotted : dotted (outer ++ [simple]) ≠ [] := mt dotted_eq_nil_iff.mp (by simp)
    obtain ⟨c, rest, hc⟩ := List.exists_cons_of_ne_nil hdotted
    have hblank : isBlank c = false :=
      isBlank_eq_false_of_mem_dotted (hc ▸ List.mem_cons_self : c ∈ dotted (outer ++ [simple]))
    have hfirst : ∀ d ∈ (dotted (outer ++ [simple]) ++ between ++
        '<' :: (List.intercalate [','] parts ++ ['>'])).head?, isBlank d = false := by
      intro d hd
      rw [hc] at hd
      cases hd
      exact hblank
    have hlast : ∀ d ∈ (dotted (outer ++ [simple]) ++ between ++
        '<' :: (List.intercalate [','] parts ++ ['>'])).getLast?, isBlank d = false := by
      intro d hd
      rw [← List.cons_append, ← List.append_assoc, List.getLast?_concat] at hd
      cases hd
      decide
    rw [← trim_append hbefore hafter (by simp) hfirst hlast]
    simp
  have hopen : '<' ∉ dotted (outer ++ [simple]) ++ between :=
    not_mem_of_heads hhead (by decide) (by decide) (by decide)
  have hclosing : beforeClosing? (List.intercalate [','] parts ++ ['>']) =
      some (List.intercalate [','] parts) := by
    simp [beforeClosing?]
  unfold layout?
  rw [htrim, cutBracket_append hopen]
  simp [hclosing, splitArgs_intercalate hne hparts, trim_of_heads hhead]

theorem eq_of_beforeClosing? {cs inner : List Char} (h : beforeClosing? cs = some inner) :
    cs = inner ++ ['>'] := by
  unfold beforeClosing? at h
  split at h
  · rename_i hlast
    cases h
    exact (List.dropLast_append_getLast? _ hlast).symm
  · cases h

/-- The text of a layout is its head, or its head and its parts in brackets. -/
theorem exists_of_layout? {cs head : List Char} {parts : List (List Char)}
    (h : layout? cs = some (head, parts)) :
    ∃ before between, Blank before ∧ Blank between ∧
      (parts = [] ∧ cs = before ++ head ++ between ∨
        parts ≠ [] ∧ ∃ after, Blank after ∧ cs =
          before ++ head ++ between ++ '<' :: List.intercalate [','] parts ++ '>' :: after) := by
  obtain ⟨before, after, hbefore, hafter, hcs⟩ := exists_blank_trim cs
  unfold layout? at h
  split at h
  · rename_i head' hcut
    have hhead : head' = trim cs := by
      unfold cutBracket at hcut
      split at hcut
      · cases hcut
        rfl
      · cases hcut
    cases h
    rw [← hhead] at hcs
    exact ⟨before, after, hbefore, hafter, .inl ⟨rfl, hcs⟩⟩
  · rename_i head' rest hcut
    obtain ⟨inner, hinner, h⟩ := Option.bind_eq_some_iff.mp h
    obtain ⟨ps, hps, h⟩ := Option.bind_eq_some_iff.mp h
    cases h
    obtain ⟨before', between, hbefore', hbetween, hhead⟩ := exists_blank_trim head'
    refine ⟨before ++ before', between, hbefore.append hbefore', hbetween,
      .inr ⟨splitArgs_ne_nil hps, after, hafter, ?_⟩⟩
    calc cs = before ++ (head' ++ '<' :: (inner ++ ['>'])) ++ after := by
          rw [← eq_of_beforeClosing? hinner, ← eq_of_cutBracket hcut]
          exact hcs
      _ = before ++ (before' ++ trim head' ++ between ++ '<' :: (inner ++ ['>'])) ++ after := by
          rw [← hhead]
      _ = before ++ before' ++ trim head' ++ between ++
            '<' :: List.intercalate [','] parts ++ '>' :: after := by
          simp [intercalate_of_splitArgs hps]

/-! ## Reading -/

theorem ofChars?_eq (cs : List Char) :
    ofChars? cs = (layout? cs).bind fun laid =>
      (laid.2.mapM ofChars?).bind fun args =>
        (names? laid.1).bind fun names => place? names args := by
  rw [ofChars?]
  split
  · rename_i h
    rw [h]
    rfl
  · rename_i head parts h
    rw [h]
    simp

/-- Texts of the grammar are read. -/
theorem ofChars?_of_spells {cs : List Char} {t : JavaType} (h : Spells cs t) :
    ofChars? cs = some t := by
  induction h with
  | @head cs outer simple hhead =>
    rw [ofChars?_eq, layout?_of_heads hhead]
    simp [names?_dotted, place?_append]
  | @generic cs after outer simple args hhead hne hargs hafter ih =>
    have hsticks : ∀ part ∈ args.map Prod.fst, Sticks 0 part := by
      intro part hpart
      obtain ⟨arg, harg, rfl⟩ := List.mem_map.mp hpart
      exact (hargs arg harg).sticks 0
    rw [ofChars?_eq, layout?_generic hhead hafter (by simpa using hne) hsticks]
    simp [mapM_map_fst ih, names?_dotted, place?_append]

/-- What is read is a text of the grammar. -/
theorem spells_of_ofChars? {cs : List Char} {t : JavaType} (h : ofChars? cs = some t) :
    Spells cs t := by
  rw [ofChars?_eq] at h
  obtain ⟨⟨head, parts⟩, hlayout, h⟩ := Option.bind_eq_some_iff.mp h
  obtain ⟨args, hargs, h⟩ := Option.bind_eq_some_iff.mp h
  obtain ⟨names, hnames, h⟩ := Option.bind_eq_some_iff.mp h
  obtain ⟨outer, simple, rfl, rfl⟩ := exists_place h
  obtain ⟨pairs, rfl, rfl, hpairs⟩ := exists_of_mapM_eq_some hargs
  obtain rfl := dotted_of_names? hnames
  -- every argument is shorter than the whole text
  have hspells : ∀ arg ∈ pairs, Spells arg.1 arg.2 := fun arg harg =>
    spells_of_ofChars? (hpairs arg harg)
  obtain ⟨before, between, hbefore, hbetween, hcs⟩ := exists_of_layout? hlayout
  have hhead : Heads (before ++ dotted (outer ++ [simple]) ++ between) outer simple :=
    ⟨before, between, hbefore, hbetween, rfl⟩
  rcases hcs with ⟨hnil, rfl⟩ | ⟨hne, after, hafter, rfl⟩
  · obtain rfl := List.map_eq_nil_iff.mp hnil
    exact .head hhead
  · exact .generic hhead (by simpa using hne) hspells hafter
termination_by cs.length
decreasing_by exact length_lt_of_mem_layout? hlayout (List.mem_map_of_mem harg)

/-- A text of the grammar is read as the one type that it names, and any other text is refused
whole. -/
theorem parse_spells (s : String) :
    (∀ t, parse s = .ok t ↔ Spells s.toList t) ∧
      ∀ e, parse s = .error e ↔
        (∀ t, ¬ Spells s.toList t) ∧ e = .badType (String.ofList (trim s.toList)) := by
  have hiff : ∀ t, ofChars? s.toList = some t ↔ Spells s.toList t := fun t =>
    ⟨spells_of_ofChars?, ofChars?_of_spells⟩
  simp only [← hiff, parse]
  cases hread : ofChars? s.toList with
  | none => simp [eq_comm]
  | some t => simp

end JavaType

end JsonMapping
