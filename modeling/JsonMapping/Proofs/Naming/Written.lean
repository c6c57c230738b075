import JsonMapping.Java.Library
import JsonMapping.Proofs.Naming.Grammar

/-! Written types, read again. The text of a type does not tell where its package ends, so a reader
guesses that from the case of the segments: `reread` is the type that it finds. Where the guess is
right the type is canonical. The main statement is `parse_text`: every text of a type is read as a
type of the same text and names, and as the type itself exactly if that is canonical, as all types
are that come from a text. -/

namespace JsonMapping

namespace JavaType

open Text

/-! ## Canonical types -/

mutual
/-- The segments of the package start with lower case letters, and the outermost class does not,
unless it is the only one. The same holds of the arguments. -/
def Canonical : JavaType → Prop
  | .mk p e _ as => (∀ n ∈ p, startsLower n = true) ∧ (∀ n ∈ e.head?, startsLower n = false) ∧
      AllCanonical as
def AllCanonical : List JavaType → Prop
  | [] => True
  | t :: rest => Canonical t ∧ AllCanonical rest
end

theorem allCanonical_iff {ts : List JavaType} : AllCanonical ts ↔ ∀ t ∈ ts, t.Canonical := by
  induction ts with
  | nil => simp [AllCanonical]
  | cons t rest ih => simp [AllCanonical, ih]

theorem Canonical.package {t : JavaType} (h : t.Canonical) :
    ∀ n ∈ t.package, startsLower n = true := by
  cases t
  exact h.1

mutual
private def decideCanonical (t : JavaType) : Decidable t.Canonical :=
  match t with
  | .mk p e _ as =>
    haveI := decideAllCanonical as
    decidable_of_iff ((∀ n ∈ p, startsLower n = true) ∧ (∀ n ∈ e.head?, startsLower n = false) ∧
      AllCanonical as) (by rw [Canonical])
private def decideAllCanonical (ts : List JavaType) : Decidable (AllCanonical ts) :=
  match ts with
  | [] => isTrue (by trivial)
  | t :: rest =>
    haveI := decideCanonical t
    haveI := decideAllCanonical rest
    decidable_of_iff (t.Canonical ∧ AllCanonical rest) (by rw [AllCanonical])
end

instance : DecidablePred Canonical := decideCanonical

theorem canonical_place {outer : List Identifier} {simple : Identifier} {args : List JavaType}
    (h : ∀ t ∈ args, t.Canonical) : (place outer simple args).Canonical := by
  refine ⟨?_, ?_, allCanonical_iff.mpr h⟩
  · exact fun n hn => List.mem_takeWhile_imp hn
  · intro n hn
    have hstop := List.head?_dropWhile_not startsLower outer
    rw [Option.mem_def.mp hn] at hstop
    simpa using hstop

theorem canonical_of_spells {cs : List Char} {t : JavaType} (h : Spells cs t) : t.Canonical := by
  induction h with
  | head _ => exact canonical_place (by simp)
  | generic _ _ _ _ ih =>
    refine canonical_place ?_
    intro t ht
    obtain ⟨arg, harg, rfl⟩ := List.mem_map.mp ht
    exact ih arg harg

theorem canonical_of_parse {s : String} {t : JavaType} (h : parse s = .ok t) : t.Canonical :=
  canonical_of_spells (((parse_spells s).1 t).mp h)

/-! ## What a reader makes of a type -/

mutual
/-- The type with its names distributed over package and class as a reader does it. -/
def reread : JavaType → JavaType
  | .mk p e n as => place (p ++ e) n (rereadAll as)
def rereadAll : List JavaType → List JavaType
  | [] => []
  | t :: rest => reread t :: rereadAll rest
end

theorem rereadAll_eq_map (ts : List JavaType) : rereadAll ts = ts.map reread := by
  induction ts with
  | nil => rfl
  | cons t rest ih => rw [rereadAll, ih, List.map_cons]

theorem place_append_eq_iff {p e : List Identifier} {n : Identifier} {as bs : List JavaType} :
    place (p ++ e) n as = .mk p e n bs ↔
      (∀ m ∈ p, startsLower m = true) ∧ (∀ m ∈ e.head?, startsLower m = false) ∧ as = bs := by
  simp only [place, mk.injEq, true_and]
  constructor
  · rintro ⟨htake, hdrop, rfl⟩
    refine ⟨?_, ?_, rfl⟩
    · rw [← htake]
      exact fun m hm => List.mem_takeWhile_imp hm
    · intro m hm
      have hstop := List.head?_dropWhile_not startsLower (p ++ e)
      rw [hdrop, Option.mem_def.mp hm] at hstop
      simpa using hstop
  · rintro ⟨hlower, hupper, rfl⟩
    have htake : e.takeWhile startsLower = [] ∧ e.dropWhile startsLower = e := by
      cases e with
      | nil => exact ⟨rfl, rfl⟩
      | cons m rest => simp [hupper m rfl]
    rw [List.takeWhile_append_of_pos hlower, List.dropWhile_append_of_pos hlower, htake.1,
      htake.2, List.append_nil]
    exact ⟨rfl, rfl, rfl⟩

mutual
/-- A reader finds the type itself exactly if the type is canonical. -/
theorem reread_eq_self_iff : ∀ t : JavaType, t.reread = t ↔ t.Canonical
  | .mk p e n as => by rw [reread, place_append_eq_iff, Canonical, rereadAll_eq_self_iff as]
theorem rereadAll_eq_self_iff : ∀ ts : List JavaType, rereadAll ts = ts ↔ AllCanonical ts
  | [] => by simp [rereadAll, AllCanonical]
  | t :: rest => by
    rw [rereadAll, List.cons.injEq, AllCanonical, reread_eq_self_iff t, rereadAll_eq_self_iff rest]
end

/-! ## Texts -/

theorem dotted_place (outer : List Identifier) (simple : Identifier) (args : List JavaType) :
    dotted ((place outer simple args).package ++ (place outer simple args).enclosing ++
      [(place outer simple args).simple]) = dotted (outer ++ [simple]) := by
  simp [place, package, enclosing, JavaType.simple]

theorem qualifiedName_reread (t : JavaType) : t.reread.qualifiedName = t.qualifiedName := by
  obtain ⟨p, e, n, as⟩ := t
  rw [qualifiedName, reread, dotted_place, qualifiedName, package, enclosing, simple]

mutual
theorem chars_reread : ∀ t : JavaType, t.reread.chars = t.chars
  | .mk p e n as => by
    have hnames : (p ++ e).takeWhile startsLower ++ (p ++ e).dropWhile startsLower = p ++ e :=
      List.takeWhile_append_dropWhile
    rw [reread, place]
    cases as with
    | nil => rw [rereadAll, chars, chars, hnames]
    | cons a rest =>
      rw [rereadAll, chars, chars, hnames, chars_reread a, argChars_rereadAll rest]
theorem argChars_rereadAll : ∀ ts : List JavaType, argChars (rereadAll ts) = argChars ts
  | [] => rfl
  | t :: rest => by rw [rereadAll, argChars, argChars, chars_reread t, argChars_rereadAll rest]
end

theorem text_reread (t : JavaType) : t.reread.text = t.text := by
  rw [text, chars_reread, text]

/-- The text of a type is the text of its first argument and so on, with commas between them. -/
theorem append_argChars (cs : List Char) (ts : List JavaType) :
    cs ++ argChars ts = List.intercalate [','] (cs :: ts.map fun t => ' ' :: t.chars) ++ ['>'] := by
  induction ts generalizing cs with
  | nil => simp [argChars]
  | cons t rest ih =>
    rw [argChars, List.map_cons, List.intercalate_cons_cons, List.append_assoc, ← ih]
    simp

/-- A blank may stand in front of a type. -/
theorem Spells.blank_cons {cs : List Char} {t : JavaType} (h : Spells cs t) :
    Spells (' ' :: cs) t := by
  have hhead : ∀ {cs outer simple}, Heads cs outer simple → Heads (' ' :: cs) outer simple := by
    rintro cs outer simple ⟨before, after, hbefore, hafter, rfl⟩
    have hblank : Blank (' ' :: before) := List.forall_mem_cons.mpr ⟨by decide, hbefore⟩
    exact ⟨' ' :: before, after, hblank, hafter, rfl⟩
  cases h with
  | head h => exact .head (hhead h)
  | generic h hne hargs hafter => exact .generic (hhead h) hne hargs hafter

mutual
/-- The text of a type spells what a reader makes of the type. -/
theorem spells_chars : ∀ t : JavaType, Spells t.chars t.reread
  | .mk p e n as => by
    have hhead : Heads (dotted (p ++ e ++ [n])) (p ++ e) n :=
      ⟨[], [], by simp [Blank], by simp [Blank], by simp⟩
    cases as with
    | nil => simpa [chars, reread, rereadAll] using Spells.head hhead
    | cons a rest =>
      -- all arguments but the first have a blank in front of them
      have hargs : ∀ arg ∈ (a.chars, a.reread) :: rest.map (fun t => (' ' :: t.chars, t.reread)),
          Spells arg.1 arg.2 := by
        refine List.forall_mem_cons.mpr ⟨spells_chars a, ?_⟩
        intro arg harg
        obtain ⟨t, ht, rfl⟩ := List.mem_map.mp harg
        exact (spells_chars_of_mem rest t ht).blank_cons
      have hafter : Blank [] := by simp [Blank]
      have hspells := Spells.generic hhead (by simp) hargs hafter
      rw [chars, reread, rereadAll, rereadAll_eq_map]
      simpa [Function.comp_def, append_argChars] using hspells
theorem spells_chars_of_mem : ∀ ts : List JavaType, ∀ t ∈ ts, Spells t.chars t.reread
  | [], _, h => by cases h
  | t :: rest, u, h => by
    rcases List.mem_cons.mp h with hu | h
    · exact hu ▸ spells_chars t
    · exact spells_chars_of_mem rest u h
end

theorem parse_text_eq (t : JavaType) : parse t.text = .ok t.reread := by
  refine ((parse_spells t.text).1 t.reread).mpr ?_
  rw [text, String.toList_ofList]
  exact spells_chars t

theorem parse_text_of_canonical {t : JavaType} (h : t.Canonical) : parse t.text = .ok t := by
  rw [parse_text_eq, (reread_eq_self_iff t).mpr h]

/-- The types that come from texts are the canonical ones. -/
theorem exists_parse_iff {t : JavaType} : (∃ s, parse s = .ok t) ↔ t.Canonical := by
  constructor
  · rintro ⟨s, hs⟩
    exact canonical_of_parse hs
  · exact fun h => ⟨t.text, parse_text_of_canonical h⟩

/-! ## Names -/

mutual
/-- Two types have one qualified name, and so have their arguments, place by place. -/
def SameNames : JavaType → JavaType → Prop
  | .mk p e n as, .mk q f m bs =>
    (mk p e n as).qualifiedName = (mk q f m bs).qualifiedName ∧ AllSameNames as bs
def AllSameNames : List JavaType → List JavaType → Prop
  | [], [] => True
  | s :: ss, t :: ts => SameNames s t ∧ AllSameNames ss ts
  | [], _ :: _ | _ :: _, [] => False
end

mutual
theorem sameNames_reread : ∀ t : JavaType, SameNames t.reread t
  | .mk p e n as => by
    have hname := qualifiedName_reread (.mk p e n as)
    rw [reread, place] at hname ⊢
    exact ⟨hname, allSameNames_rereadAll as⟩
theorem allSameNames_rereadAll : ∀ ts : List JavaType, AllSameNames (rereadAll ts) ts
  | [] => by rw [rereadAll, AllSameNames]; trivial
  | t :: rest => by
    rw [rereadAll, AllSameNames]
    exact ⟨sameNames_reread t, allSameNames_rereadAll rest⟩
end

/-- Every type is built from the names of its package and its class, but for its arguments. -/
theorem ofNames_eq_erased (t : JavaType) : ofNames t.packageName t.className = .ok t.erased := by
  obtain ⟨p, e, n, as⟩ := t
  have hclass : names? (className (mk p e n as)).toList = some (e ++ [n]) := by
    rw [className, String.toList_ofList]
    exact names?_dotted (by simp)
  have herased : erased (mk p e n as) = mk p e n [] := rfl
  by_cases hp : p = []
  · subst hp
    have hempty : packageName (mk [] e n as) = "" := rfl
    simp [ofNames, hempty, hclass, herased]
  · have hne : packageName (mk p e n as) ≠ "" := by
      simpa [packageName, package, dotted_eq_nil_iff] using hp
    have hpackage : names? (packageName (mk p e n as)).toList = some p := by
      rw [packageName, String.toList_ofList]
      exact names?_dotted hp
    simp [ofNames, hne, hpackage, hclass, herased]

/-- The text of every type is read. The type that is found has the same text and the same names in
all places, and it is the one that was written exactly if that is canonical. What is read from any
text is canonical, so it is found again in its own text, and its text tells it from all other types
that are read. -/
theorem parse_text :
    (∀ t : JavaType, ∃ u, parse t.text = .ok u ∧ u.text = t.text ∧
      u.qualifiedName = t.qualifiedName ∧ SameNames u t ∧ (u = t ↔ t.Canonical)) ∧
    ∀ s t, parse s = .ok t → t.Canonical ∧ parse t.text = .ok t ∧
      ∀ s' t', parse s' = .ok t' → t'.text = t.text → t' = t := by
  constructor
  · intro t
    exact ⟨t.reread, parse_text_eq t, text_reread t, qualifiedName_reread t, sameNames_reread t,
      reread_eq_self_iff t⟩
  · intro s t h
    have hagain := parse_text_of_canonical (canonical_of_parse h)
    refine ⟨canonical_of_parse h, hagain, ?_⟩
    intro s' t' h' htext
    have hagain' := parse_text_of_canonical (canonical_of_parse h')
    rw [htext, hagain] at hagain'
    exact (Except.ok.inj hagain').symm

end JavaType

/-! ## A list as a sample -/

namespace Sample

def listOfOrders : JavaType :=
  Java.list.withArgs [.mk [⟨"shop", by decide⟩] [] ⟨"Order", by decide⟩ []]

theorem parse_text_listOfOrders :
    JavaType.parse "java.util.List<shop.Order>" = .ok listOfOrders ∧
      JavaType.parse listOfOrders.text = .ok listOfOrders := by
  have htext : listOfOrders.text = "java.util.List<shop.Order>" := by decide
  have hcanonical : listOfOrders.Canonical := by decide
  have hread : JavaType.parse "java.util.List<shop.Order>" = .ok listOfOrders := by
    rw [← htext]
    exact JavaType.parse_text_of_canonical hcanonical
  exact ⟨hread, (JavaType.parse_text.2 _ _ hread).2.1⟩

end Sample

end JsonMapping
