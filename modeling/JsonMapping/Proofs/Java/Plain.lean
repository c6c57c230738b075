import JsonMapping.Proofs.Derive.Constants
import JsonMapping.Proofs.Java.Meaning
import JsonMapping.Proofs.Java.Scanner
import JsonMapping.Proofs.Naming.Words

/-! Names in source files are plain: those of variables and methods, of accessors, of types however
they are written, and of the constants of derived mappers. So they open and close nothing in the
code that they stand in. -/

namespace JsonMapping

open Java (Plain TypeNames)

theorem forall_mem_intercalate {p : Char → Prop} {separator : List Char} {parts : List (List Char)}
    (hseparator : ∀ c ∈ separator, p c) (h : ∀ part ∈ parts, ∀ c ∈ part, p c) :
    ∀ c ∈ List.intercalate separator parts, p c := by
  induction parts with
  | nil => exact List.forall_mem_nil _
  | cons first rest ih =>
    obtain ⟨hfirst, hrest⟩ := List.forall_mem_cons.mp h
    cases rest with
    | nil => simpa using hfirst
    | cons second more =>
      rw [List.intercalate_cons_cons, List.forall_mem_append, List.forall_mem_append]
      exact ⟨⟨hfirst, hseparator⟩, ih hrest⟩

/-! ## Identifiers and types -/

namespace Identifier

theorem isPart_of_mem_text {n : Identifier} : ∀ c ∈ n.text.toList, isPart c = true := by
  intro c hc
  by_contra hpart
  exact n.not_mem_text (by simpa using hpart) hc

theorem plain_text (n : Identifier) : Plain n.text.toList := fun c hc =>
  Java.Scan.isPlain_of (by decide) (isPart_of_mem_text c hc)

/-- Identifiers stay plain in upper case. -/
theorem plain_upperForm {c : Char} (h : isPart c = true) : Plain (Text.upperForm c) := by
  have hascii : ∀ n < 128, isPart (Char.ofNat n) = true →
      Plain (Text.upperForm (Char.ofNat n)) := by
    decide
  have hcode := toNat_of_isPart h
  have hplain := hascii c.toNat (by omega)
  rw [Char.ofNat_toNat] at hplain
  exact hplain h

theorem plain_upper {cs : List Char} (h : ∀ c ∈ cs, isPart c = true) : Plain (Text.upper cs) := by
  intro d hd
  obtain ⟨c, hc, hd⟩ := List.mem_flatMap.mp hd
  exact plain_upperForm (h c hc) d hd

theorem plain_capitalized (n : Identifier) : Plain n.capitalized.toList := by
  have hpart := n.isPart_of_mem_text
  have hplain := n.plain_text
  rw [capitalized, String.toList_ofList]
  cases htext : n.text.toList with
  | nil => exact List.forall_mem_nil _
  | cons c rest =>
    rw [htext] at hpart hplain
    exact (plain_upperForm (hpart c List.mem_cons_self)).append (List.forall_mem_cons.mp hplain).2

end Identifier

namespace Java.TypeNames

/-- The characters that types are written with. -/
def isWritten (c : Char) : Bool := Identifier.isPart c || c ∈ ['.', '<', '>', ',', ' ']

theorem isWritten_of_mem_text (n : Identifier) : ∀ c ∈ n.text.toList, isWritten c = true :=
  fun c hc => Bool.or_eq_true_iff.mpr (.inl (n.isPart_of_mem_text c hc))

theorem isWritten_of_mem_className (names : TypeNames) (t : JavaType) :
    ∀ c ∈ (names.className t).toList, isWritten c = true := by
  rcases names.className_cases t with h | ⟨h, -⟩
  · rw [h, JavaType.qualifiedName, String.toList_ofList]
    refine forall_mem_intercalate (List.forall_mem_singleton.mpr rfl) fun part hpart => ?_
    obtain ⟨n, -, rfl⟩ := List.mem_map.mp hpart
    exact isWritten_of_mem_text n
  · rw [h]
    exact isWritten_of_mem_text t.simple

mutual
theorem isWritten_of_mem_chars (names : TypeNames) (t : JavaType) :
    ∀ c ∈ names.chars t, isWritten c = true := by
  match t with
  | .mk p e n [] =>
    simpa only [chars, List.append_nil] using names.isWritten_of_mem_className (.mk p e n [])
  | .mk p e n (a :: rest) =>
    rw [chars, List.forall_mem_append, List.cons_append, List.forall_mem_cons,
      List.forall_mem_append]
    exact ⟨names.isWritten_of_mem_className _, by decide, isWritten_of_mem_chars names a,
      isWritten_of_mem_argChars names rest⟩
theorem isWritten_of_mem_argChars (names : TypeNames) (ts : List JavaType) :
    ∀ c ∈ names.argChars ts, isWritten c = true := by
  match ts with
  | [] => exact List.forall_mem_singleton.mpr (by decide)
  | a :: rest =>
    rw [argChars, List.cons_append, List.cons_append, List.forall_mem_cons, List.forall_mem_cons,
      List.forall_mem_append]
    exact ⟨by decide, by decide, isWritten_of_mem_chars names a,
      isWritten_of_mem_argChars names rest⟩
end

theorem isWritten_of_mem_write {names : TypeNames} {t : JavaType} :
    ∀ c ∈ (names.write t).toList, isWritten c = true := by
  rw [write, String.toList_ofList]
  exact names.isWritten_of_mem_chars t

theorem plain_write (names : TypeNames) (t : JavaType) : Plain (names.write t).toList :=
  fun c hc => Java.Scan.isPlain_of (by decide) (isWritten_of_mem_write c hc)

theorem plain_member (names : TypeNames) (t : JavaType) {name : List Char} (h : Plain name) :
    Plain ((names.write t).toList ++ '.' :: name) :=
  (names.plain_write t).append (.cons (by decide) h)

theorem plain_new (names : TypeNames) (t : JavaType) :
    Plain ("new ".toList ++ (names.write t).toList) :=
  (by decide : Plain "new ".toList).append (names.plain_write t)

theorem newline_not_mem_write (names : TypeNames) (t : JavaType) :
    '\n' ∉ (names.write t).toList := fun h => nomatch isWritten_of_mem_write _ h

end Java.TypeNames

theorem ValueType.plain_java (names : TypeNames) (t : ValueType) : Plain (t.java names).toList := by
  have hlist : ∀ u, Plain (s!"{names.write Java.list}<{names.write u}>").toList := by
    intro u
    have hargs : Plain ('<' :: (names.write u).toList ++ ['>']) :=
      .append (.cons (by decide) (names.plain_write u)) (by decide)
    simpa [ToString.toString] using (names.plain_write Java.list).append hargs
  cases t with
  | declared t => exact names.plain_write t
  | declaredList t => exact hlist t
  | container => exact names.plain_write _
  | containerList => exact hlist _
  | serializedList => exact names.plain_write _
  | requestContext => exact names.plain_write _

theorem Var.plain_javaName (v : Var) : Plain v.javaName.toList := by
  cases v <;> decide

theorem Var.plain_member (v : Var) {name : List Char} (h : Plain name) :
    Plain (v.javaName.toList ++ '.' :: name) :=
  v.plain_javaName.append (.cons (by decide) h)

theorem MethodKind.plain_methodName (k : MethodKind) : Plain k.methodName.toList := by
  cases k <;> decide

theorem Method.plain_params (names : TypeNames) (m : Method) :
    Plain (", ".intercalate (m.params.map (paramJava names))).toList := by
  rw [String.toList_intercalate]
  refine forall_mem_intercalate Plain.comma fun part hpart => ?_
  simp only [List.map_map, List.mem_map, Function.comp_apply] at hpart
  obtain ⟨p, -, rfl⟩ := hpart
  have hname : Plain (' ' :: p.var.javaName.toList) := .cons (by decide) p.var.plain_javaName
  change Plain (paramJava names p).toList
  simpa [paramJava, ToString.toString] using (p.type.plain_java names).append hname

/-! ## Constants -/

namespace Derive

theorem plain_baseName (use : HelperUse) : Plain (baseName use).toList := by
  have hwords : Plain (Words.screamingCase (Words.split use.1.simpleName.toList)) :=
    Identifier.plain_upper <| forall_mem_intercalate (List.forall_mem_singleton.mpr rfl) <|
      Words.forall_mem_split use.1.simple.isPart_of_mem_text
  rw [← String.toList_ofList (l := Words.screamingCase _)] at hwords
  obtain ⟨t, role⟩ := use
  cases role with
  | linksProvider => exact (by decide : Plain "LINKS_PROVIDER".toList)
  | serializer | deserializer | customDeserializer => exact hwords

theorem plain_candidate {base : String} (h : Plain base.toList) (n : Nat) :
    Plain (candidate base n).toList := by
  by_cases hn : n ≤ 1
  · rwa [candidate, if_pos hn]
  · rw [candidate_of_two_le (by omega), Nat.toList_repr]
    refine h.append (.cons (by decide) fun c hc => ?_)
    have hdigit : c.isDigit = true := Nat.isDigit_of_mem_toDigits (by decide) (by decide) hc
    exact Java.Scan.isPlain_of (by decide) hdigit

theorem plain_seekName {base : String} (h : Plain base.toList) (taken : List String)
    (tries n : Nat) : Plain (seekName taken base tries n).toList := by
  induction tries generalizing n with
  | zero => exact plain_candidate h n
  | succ tries ih =>
    rw [seekName]
    split
    · exact ih (n + 1)
    · exact plain_candidate h n

theorem plain_declareHelper {table : List Constant} (h : ∀ c ∈ table, Plain c.name.toList)
    (use : HelperUse) : ∀ c ∈ declareHelper table use, Plain c.name.toList := by
  unfold declareHelper
  split
  · exact h
  · rw [List.forall_mem_append, List.forall_mem_singleton]
    exact ⟨h, plain_seekName (plain_baseName use) _ _ _⟩

theorem plain_constantsFor (uses : List HelperUse) :
    ∀ c ∈ constantsFor uses, Plain c.name.toList := by
  have hfold : ∀ table : List Constant, (∀ c ∈ table, Plain c.name.toList) →
      ∀ c ∈ uses.foldl declareHelper table, Plain c.name.toList := by
    induction uses with
    | nil => exact fun _ h => h
    | cons use rest ih => exact fun table h => ih _ (plain_declareHelper h use)
  exact hfold [] (List.forall_mem_nil _)

theorem plain_constantName (uses : List HelperUse) (t : JavaType) :
    Plain (constantName (constantsFor uses) t).toList := by
  unfold constantName
  cases hfind : (constantsFor uses).find? (·.type = t) with
  | none => exact List.forall_mem_nil _
  | some c => exact plain_constantsFor uses c (List.mem_of_find?_eq_some hfind)

end Derive

end JsonMapping
