import JsonMapping.Naming.JavaType.Reading
import Mathlib.Data.List.Basic

/-! Texts that are joined with separators, and names that are joined with dots. No identifier has a
dot, so a dotted text tells the names that it is joined from. -/

namespace JsonMapping

namespace Text

variable {sep : Char} {p : List Char}

theorem pieces_of_not_mem (h : sep ∉ p) : pieces sep p = [p] := by
  induction p with
  | nil => rfl
  | cons c p ih =>
    have hc : c ≠ sep := fun he => h (he ▸ List.mem_cons_self)
    have hrest := ih fun hmem => h (List.mem_cons_of_mem _ hmem)
    simp [pieces, hc, hrest]

theorem pieces_append (sep : Char) (cs rest : List Char) :
    pieces sep (cs ++ sep :: rest) = pieces sep cs ++ pieces sep rest := by
  induction cs with
  | nil => simp [pieces]
  | cons c cs ih =>
    by_cases hc : c = sep
    · simp [pieces, hc, ih]
    · cases hpieces : pieces sep cs with
      | nil => exact absurd hpieces (pieces_ne_nil sep cs)
      | cons piece more => simp [pieces, hc, ih, hpieces]

theorem pieces_append_cons (h : sep ∉ p) (rest : List Char) :
    pieces sep (p ++ sep :: rest) = p :: pieces sep rest := by
  rw [pieces_append, pieces_of_not_mem h, List.singleton_append]

/-- A text that is joined from pieces has these pieces. -/
theorem pieces_intercalate {ps : List (List Char)} (hne : ps ≠ []) (h : ∀ p ∈ ps, sep ∉ p) :
    pieces sep (List.intercalate [sep] ps) = ps := by
  induction ps with
  | nil => exact absurd rfl hne
  | cons p rest ih =>
    have hp := h p List.mem_cons_self
    cases rest with
    | nil => simpa using pieces_of_not_mem hp
    | cons q more =>
      have hrest := ih (by simp) fun r hr => h r (List.mem_cons_of_mem _ hr)
      rw [List.intercalate_cons_cons, List.append_assoc, List.singleton_append,
        pieces_append_cons hp, hrest]

/-- What stands before and behind the last separator. -/
theorem append_cons_inj {xs ys a b : List Char} (ha : sep ∉ a) (hb : sep ∉ b)
    (h : xs ++ sep :: a = ys ++ sep :: b) : xs = ys ∧ a = b := by
  rcases List.append_eq_append_iff.mp h with ⟨c, rfl, hrest⟩ | ⟨c, rfl, hrest⟩
  · cases c with
    | nil => simpa using hrest
    | cons x c =>
      simp only [List.cons_append, List.cons.injEq] at hrest
      exact absurd (by simp [hrest.2]) ha
  · cases c with
    | nil => simpa using hrest.symm
    | cons x c =>
      simp only [List.cons_append, List.cons.injEq] at hrest
      exact absurd (by simp [hrest.2]) hb

end Text

/-! ## Written names -/

namespace Identifier

theorem isPart_of_isStart {c : Char} (h : isStart c = true) : isPart c = true := by
  unfold isStart isPart at *
  simp only [Char.isAlphanum, Bool.or_eq_true] at h ⊢
  rcases h with (h | h) | h
  · exact .inl (.inl (.inl h))
  · exact .inl (.inr h)
  · exact .inr h

/-- A character that no identifier has. -/
theorem not_mem_text {c : Char} (h : isPart c = false) (n : Identifier) :
    c ∉ n.text.toList := by
  intro hmem
  have hvalid := n.valid
  cases htext : n.text.toList with
  | nil =>
    rw [htext] at hmem
    cases hmem
  | cons first rest =>
    rw [htext] at hmem hvalid
    simp only [isValid, Bool.and_eq_true, List.all_eq_true] at hvalid
    have hpart : isPart c = true := by
      rcases List.mem_cons.mp hmem with rfl | hrest
      · exact isPart_of_isStart hvalid.1
      · exact hvalid.2 c hrest
    rw [h] at hpart
    cases hpart

theorem text_ne_nil (n : Identifier) : n.text.toList ≠ [] := by
  intro h
  have hvalid := n.valid
  rw [h] at hvalid
  cases hvalid

end Identifier

namespace JavaType

theorem dotted_cons_cons (n m : Identifier) (rest : List Identifier) :
    dotted (n :: m :: rest) = n.text.toList ++ '.' :: dotted (m :: rest) := by
  simp [dotted, List.intercalate_cons_cons]

theorem dotted_append {names more : List Identifier} (hnames : names ≠ []) (hmore : more ≠ []) :
    dotted (names ++ more) = dotted names ++ '.' :: dotted more := by
  obtain ⟨m, ms, rfl⟩ := List.exists_cons_of_ne_nil hmore
  induction names with
  | nil => exact absurd rfl hnames
  | cons n rest ih =>
    cases rest with
    | nil =>
      rw [List.singleton_append, dotted_cons_cons]
      simp [dotted]
    | cons n' rest =>
      have hrest := ih (by simp)
      rw [List.cons_append] at hrest
      rw [List.cons_append, List.cons_append, dotted_cons_cons, dotted_cons_cons, hrest]
      simp

theorem not_mem_dotted {c : Char} (hpart : Identifier.isPart c = false) (hdot : c ≠ '.')
    (names : List Identifier) : c ∉ dotted names := by
  induction names with
  | nil => exact List.not_mem_nil
  | cons n rest ih =>
    have hn := n.not_mem_text hpart
    cases rest with
    | nil => simpa [dotted] using hn
    | cons m rest =>
      rw [dotted_cons_cons]
      simp only [List.mem_append, List.mem_cons, not_or]
      exact ⟨hn, hdot, ih⟩

theorem dotted_eq_nil_iff {names : List Identifier} : dotted names = [] ↔ names = [] := by
  constructor
  · intro h
    cases names with
    | nil => rfl
    | cons n rest =>
      have hne := n.text_ne_nil
      cases rest with
      | nil => simp [dotted, hne] at h
      | cons n' rest => simp [dotted_cons_cons] at h
  · rintro rfl
    rfl

theorem pieces_dotted {names : List Identifier} (h : names ≠ []) :
    Text.pieces '.' (dotted names) = names.map fun n => n.text.toList := by
  refine Text.pieces_intercalate (by simpa using h) ?_
  intro p hp
  obtain ⟨n, -, rfl⟩ := List.mem_map.mp hp
  exact n.not_mem_text (by decide)

theorem packageName_eq_empty_iff {t : JavaType} : t.packageName = "" ↔ t.package = [] := by
  rw [packageName, String.ofList_eq_empty_iff, dotted_eq_nil_iff]

/-- The qualified name is the class, behind the package if there is one. -/
theorem qualifiedName_toList (t : JavaType) :
    t.qualifiedName.toList = if t.packageName.toList = [] then t.className.toList else
      t.packageName.toList ++ '.' :: t.className.toList := by
  have hclass : t.enclosing ++ [t.simple] ≠ [] := by simp
  simp only [qualifiedName, packageName, className, String.toList_ofList, List.append_assoc]
  by_cases hp : t.package = []
  · simp [hp, dotted_eq_nil_iff]
  · rw [dotted_append hp hclass, if_neg (mt dotted_eq_nil_iff.mp hp)]

theorem dotted_of_names? {cs : List Char} {names : List Identifier} (h : names? cs = some names) :
    dotted names = cs := by
  have htexts : ∀ (ps : List (List Char)) (names : List Identifier),
      ps.mapM Identifier.ofChars? = some names → names.map (fun n => n.text.toList) = ps := by
    intro ps
    induction ps with
    | nil =>
      intro names h
      cases h
      rfl
    | cons p rest ih =>
      intro names h
      rw [List.mapM_cons] at h
      obtain ⟨n, hn, h⟩ := Option.bind_eq_some_iff.mp h
      obtain ⟨ns, hns, h⟩ := Option.bind_eq_some_iff.mp h
      cases h
      have htext := Identifier.ofString?_eq_some hn
      simp [htext, ih ns hns]
  unfold dotted
  rw [htexts _ _ h, Text.intercalate_pieces]

theorem className_of_names? {package : List Identifier} {className : String} {t : JavaType}
    (h : ((names? className.toList).bind fun c =>
      c.getLast?.map fun simple => mk package c.dropLast simple []) = some t) :
    t.package = package ∧ t.className = className := by
  obtain ⟨names, hnames, h⟩ := Option.bind_eq_some_iff.mp h
  obtain ⟨simple, hsimple, rfl⟩ := Option.map_eq_some_iff.mp h
  refine ⟨rfl, ?_⟩
  change String.ofList (dotted (names.dropLast ++ [simple])) = className
  rw [List.dropLast_append_getLast? _ hsimple, dotted_of_names? hnames, String.ofList_toList]

/-- A type from a package and a class is written with these. -/
theorem ofNames_ok {package className : String} {t : JavaType}
    (h : ofNames package className = .ok t) :
    t.packageName = package ∧ t.className = className := by
  unfold ofNames at h
  dsimp only at h
  split at h
  · rename_i u hu
    cases h
    split at hu
    · rename_i hempty
      obtain ⟨hpackage, hclass⟩ := className_of_names? hu
      have hname : package = "" := by simpa using hempty
      exact ⟨by rw [packageName, hpackage, hname]; rfl, hclass⟩
    · obtain ⟨names, hnames, hu⟩ := Option.bind_eq_some_iff.mp hu
      obtain ⟨hpackage, hclass⟩ := className_of_names? hu
      refine ⟨?_, hclass⟩
      rw [packageName, hpackage, dotted_of_names? hnames, String.ofList_toList]
  · cases h

end JavaType

end JsonMapping
