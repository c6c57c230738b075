import JsonMapping.Proofs.Java.Meaning
import JsonMapping.Proofs.Java.Named

/-! The imports of a source file. What is imported is what the file names by its simple name, and
types of different names are never written alike. The main statement is `imports_exact`. -/

namespace JsonMapping

/-! ## Types with the same names -/

namespace JavaType

mutual
theorem SameNames.of_common {s t u : JavaType} (hs : SameNames u s) (ht : SameNames u t) :
    SameNames s t := by
  obtain ⟨p, e, n, as⟩ := s
  obtain ⟨q, f, m, bs⟩ := t
  obtain ⟨r, g, o, cs⟩ := u
  exact ⟨hs.1.symm.trans ht.1, AllSameNames.of_common hs.2 ht.2⟩
theorem AllSameNames.of_common {ss ts us : List JavaType} (hs : AllSameNames us ss)
    (ht : AllSameNames us ts) : AllSameNames ss ts := by
  match us, ss, ts, hs, ht with
  | [], [], [], _, _ => trivial
  | _ :: _, _ :: _, _ :: _, ⟨hs, hss⟩, ⟨ht, hts⟩ => exact ⟨hs.of_common ht, hss.of_common hts⟩
end

/-- Types of one text agree in all names. -/
theorem sameNames_of_chars_eq {s t : JavaType} (h : s.chars = t.chars) : SameNames s t := by
  have htext : s.text = t.text := congrArg String.ofList h
  have hread : s.reread = t.reread := by
    have hparse := s.parse_text_eq.symm.trans ((congrArg parse htext).trans t.parse_text_eq)
    exact Except.ok.inj hparse
  exact SameNames.of_common s.sameNames_reread (hread ▸ t.sameNames_reread)

theorem simpleName_eq_of_qualifiedName_eq {s t : JavaType}
    (h : s.qualifiedName = t.qualifiedName) : s.simpleName = t.simpleName := by
  rw [← s.lastSegment_qualifiedName, h, t.lastSegment_qualifiedName]

end JavaType

namespace Java.TypeNames

open JavaType

variable {names : TypeNames} {package : String} {s t : JavaType}

/-! ## What is written alike -/

theorem className_congr (h : s.qualifiedName = t.qualifiedName) :
    names.className s = names.className t := by
  rw [className, className, simpleName_eq_of_qualifiedName_eq h, h]

/-- Classes of packages are written alike only if they are the same class. -/
theorem className_eq_iff (hs : s.packageName ≠ "") (ht : t.packageName ≠ "") :
    names.className s = names.className t ↔ s.qualifiedName = t.qualifiedName := by
  refine ⟨fun h => ?_, className_congr⟩
  have hdot : ∀ {u v : JavaType}, u.packageName ≠ "" → u.qualifiedName ≠ v.simpleName :=
    fun hu he => dot_not_mem_simpleName _ (he ▸ dot_mem_qualifiedName_iff.mpr (.inl hu))
  rcases names.className_cases s with hqs | ⟨hss, o, ho, hos⟩
  · rcases names.className_cases t with hqt | ⟨hst, -⟩
    · rw [← hqs, h, hqt]
    · exact absurd (hqs.symm.trans (h.trans hst)) (hdot hs)
  · rcases names.className_cases t with hqt | ⟨hst, o', ho', hot⟩
    · exact absurd (hqt.symm.trans (h.symm.trans hss)) (hdot ht)
    · -- both have the owner of their simple name
      rw [← hss, h, hst, ho'] at ho
      obtain rfl := Option.some.inj ho
      rw [← hos, hot]

mutual
/-- The type whose text is what the file writes. -/
def renamed (names : TypeNames) : JavaType → JavaType
  | .mk p e n as =>
    if names.className (.mk p e n as) = n.text then .mk [] [] n (renamedAll names as)
    else .mk p e n (renamedAll names as)
def renamedAll (names : TypeNames) : List JavaType → List JavaType
  | [] => []
  | t :: rest => renamed names t :: renamedAll names rest
end

theorem renamed_cases (names : TypeNames) (p e : List Identifier) (n : Identifier)
    (as : List JavaType) : ∃ q f, names.renamed (.mk p e n as) = .mk q f n (names.renamedAll as) ∧
      dotted (q ++ f ++ [n]) = (names.className (.mk p e n as)).toList := by
  rw [renamed]
  split
  · rename_i hname
    exact ⟨[], [], rfl, by simp [hname, dotted]⟩
  · rename_i hname
    refine ⟨p, e, rfl, ?_⟩
    rcases names.className_cases (.mk p e n as) with hqualified | ⟨hsimple, -⟩
    · rw [hqualified, qualifiedName, String.toList_ofList]
      rfl
    · exact absurd hsimple hname

mutual
theorem chars_renamed (names : TypeNames) (t : JavaType) :
    (names.renamed t).chars = names.chars t := by
  obtain ⟨p, e, n, as⟩ := t
  obtain ⟨q, f, hrenamed, hname⟩ := names.renamed_cases p e n as
  rw [hrenamed]
  cases as with
  | nil => simp only [JavaType.chars, chars, renamedAll, hname]
  | cons a rest =>
    simp only [JavaType.chars, chars, renamedAll, hname, chars_renamed names a,
      argChars_renamedAll names rest]
theorem argChars_renamedAll (names : TypeNames) (ts : List JavaType) :
    JavaType.argChars (names.renamedAll ts) = names.argChars ts := by
  match ts with
  | [] => rfl
  | t :: rest =>
    simp [JavaType.argChars, argChars, renamedAll, chars_renamed names t,
      argChars_renamedAll names rest]
end

mutual
theorem sameNames_of_renamed {s t : JavaType} (hs : ∀ u ∈ s.withParts, u.packageName ≠ "")
    (ht : ∀ u ∈ t.withParts, u.packageName ≠ "")
    (h : SameNames (names.renamed s) (names.renamed t)) : SameNames s t := by
  obtain ⟨p, e, n, as⟩ := s
  obtain ⟨q, f, m, bs⟩ := t
  obtain ⟨p', e', hs', hsname⟩ := names.renamed_cases p e n as
  obtain ⟨q', f', ht', htname⟩ := names.renamed_cases q f m bs
  rw [hs', ht'] at h
  rw [withParts, List.forall_mem_cons] at hs ht
  -- the renamed types have the written names for qualified names
  have hclass : names.className (.mk p e n as) = names.className (.mk q f m bs) := by
    have hdotted : dotted (p' ++ e' ++ [n]) = dotted (q' ++ f' ++ [m]) := String.ofList_inj.mp h.1
    rw [hsname, htname] at hdotted
    exact String.toList_inj.mp hdotted
  exact ⟨(className_eq_iff hs.1 ht.1).mp hclass, allSameNames_of_renamed hs.2 ht.2 h.2⟩
theorem allSameNames_of_renamed {ss ts : List JavaType}
    (hs : ∀ u ∈ partsOfAll ss, u.packageName ≠ "") (ht : ∀ u ∈ partsOfAll ts, u.packageName ≠ "")
    (h : AllSameNames (names.renamedAll ss) (names.renamedAll ts)) : AllSameNames ss ts := by
  match ss, ts, h with
  | [], [], _ => trivial
  | s :: ss, t :: ts, ⟨hhead, hrest⟩ =>
    rw [partsOfAll, List.forall_mem_append] at hs ht
    exact ⟨sameNames_of_renamed hs.1 ht.1 hhead, allSameNames_of_renamed hs.2 ht.2 hrest⟩
end

mutual
theorem chars_congr {s t : JavaType} (h : SameNames s t) : names.chars s = names.chars t := by
  obtain ⟨p, e, n, as⟩ := s
  obtain ⟨q, f, m, bs⟩ := t
  have hclass : names.className (.mk p e n as) = names.className (.mk q f m bs) :=
    className_congr h.1
  match as, bs, h.2 with
  | [], [], _ => simp [chars, hclass]
  | a :: as, b :: bs, ⟨hhead, hrest⟩ =>
    simp [chars, hclass, chars_congr hhead, argChars_congr hrest]
theorem argChars_congr {ss ts : List JavaType} (h : AllSameNames ss ts) :
    names.argChars ss = names.argChars ts := by
  match ss, ts, h with
  | [], [], _ => rfl
  | s :: ss, t :: ts, ⟨hhead, hrest⟩ => simp [argChars, chars_congr hhead, argChars_congr hrest]
end

/-- Types of packages are written alike exactly if they agree in all names. -/
theorem write_eq_iff (hs : ∀ u ∈ s.withParts, u.packageName ≠ "")
    (ht : ∀ u ∈ t.withParts, u.packageName ≠ "") :
    names.write s = names.write t ↔ SameNames s t := by
  rw [write, write, String.ofList_inj]
  refine ⟨fun h => ?_, chars_congr⟩
  have hrenamed : (names.renamed s).chars = (names.renamed t).chars := by
    rw [chars_renamed, chars_renamed, h]
  exact sameNames_of_renamed hs ht (sameNames_of_chars_eq hrenamed)

/-! ## What is imported -/

theorem nodup_simpleNames_owners (ts : List JavaType) :
    ((owners ts).map JavaType.simpleName).Nodup := by
  induction ts with
  | nil => simp [owners]
  | cons t rest ih =>
    rw [owners, List.map_cons, List.nodup_cons]
    refine ⟨?_, ih.sublist (List.filter_sublist.map _)⟩
    simp +contextual

theorem nodup_lastSegments_imports (names : TypeNames) (package : String) :
    ((names.imports package).map lastSegment).Nodup := by
  have hperm := (List.mergeSort_perm (((owners names.types).filter fun t =>
    t.packageName ≠ "" ∧ t.packageName ≠ package).map (·.qualifiedName)) (· ≤ ·)).map lastSegment
  refine hperm.nodup_iff.mpr ?_
  rw [List.map_map]
  have hlast : lastSegment ∘ (·.qualifiedName) = JavaType.simpleName :=
    funext lastSegment_qualifiedName
  rw [hlast]
  exact (nodup_simpleNames_owners names.types).sublist (List.filter_sublist.map _)

theorem pairwise_lt_imports (names : TypeNames) (package : String) :
    (names.imports package).Pairwise (· < ·) := by
  have hsorted : (names.imports package).Pairwise (fun a b => decide (a ≤ b) = true) :=
    List.pairwise_mergeSort (by simpa using fun _ _ _ => String.le_trans)
      (by simpa using String.le_total) _
  have hnodup : (names.imports package).Nodup := (nodup_lastSegments_imports names package).of_map
  refine hsorted.imp₂ (fun a b hle hne => ?_) hnodup
  exact String.not_le.mp fun hge => hne (String.le_antisymm (of_decide_eq_true hle) hge)

/-- The mapper's own class keeps its simple name. -/
theorem simpleName_not_mem_imports (library : Library) (documented : Bool) (m : Mapper) :
    m.type.simpleName ∉
      ((ofMapper library documented m).imports m.type.packageName).map lastSegment := by
  intro hmem
  obtain ⟨i, hi, hlast⟩ := List.mem_map.mp hmem
  have howner : (ofMapper library documented m).owner? (lastSegment i) = some m.type := by
    simp [owner?, ofMapper, hlast]
  exact (eq_of_mem_imports hi howner).2.1 rfl

/-- In a file of the package, the type is written by its simple name and has to be imported for
that. -/
def Needs (names : TypeNames) (package : String) (t : JavaType) : Prop :=
  t.packageName ≠ "" ∧ t.packageName ≠ package ∧ names.className t = t.simpleName

theorem exists_needs_of_mem_imports {q : String} (h : q ∈ names.imports package) :
    ∃ t ∈ names.types, names.Needs package t ∧ t.qualifiedName = q := by
  obtain ⟨o, howner, hnonempty, hother, rfl⟩ := mem_imports_iff.mp h
  have hname : names.className o = o.simpleName := by
    unfold owner? at howner
    simp [className, howner]
  exact ⟨o, List.mem_of_find?_eq_some howner, ⟨hnonempty, hother, hname⟩, rfl⟩

/-- What needs an import has it if the owner of its name has its package. -/
theorem Needs.mem_imports (h : names.Needs package t)
    (hpackage : ∀ o ∈ names.types, o.qualifiedName = t.qualifiedName →
      o.packageName = t.packageName) : t.qualifiedName ∈ names.imports package := by
  obtain ⟨hnonempty, hother, hname⟩ := h
  have hdot := JavaType.dot_mem_qualifiedName_iff.mpr (.inl hnonempty)
  obtain ⟨o, howner, hqualified⟩ := exists_owner_of_className hname hdot
  rw [← hpackage o (List.mem_of_find?_eq_some howner) hqualified] at hnonempty hother
  rw [← simpleName_of_owner? howner] at howner
  exact mem_imports_iff.mpr ⟨o, howner, hnonempty, hother, hqualified⟩

end Java.TypeNames

/-! ## Files of derived mappers -/

namespace Java

open JavaType (SameNames)

theorem exists_rest_of_javaSource {m : Mapper} {settings : JavaSettings} {source : String}
    (h : m.javaSource settings = .ok source) :
    ∃ library, Library.ofPackage settings.runtimePackage = .ok library ∧
      ∃ rest, Draws (TypeNames.ofMapper library settings.javadoc m)
          (m.layout library settings.javadoc) rest ∧
        source = Line.textOf (indentWidth settings) (m.javaTop settings ++ Mapper.javaImports
          ((TypeNames.ofMapper library settings.javadoc m).imports m.type.packageName) ++
          rest) := by
  obtain ⟨library, hlibrary, hsource⟩ := bind_eq_ok.mp h
  obtain ⟨rest, hlines, hrest⟩ :=
    m.exists_javaLines_eq (TypeNames.ofMapper library settings.javadoc m) settings
  refine ⟨library, hlibrary, rest, hrest, ?_⟩
  rw [← hlines]
  exact (Except.ok.inj hsource).symm

theorem types_subset_of_derive {reg : Registry} {g : GeneratorSettings} {d : Descriptor}
    {m : Mapper} (library : Library) (documented : Bool) (hm : reg.derive g d = .ok m) :
    (TypeNames.ofMapper library documented m).types ⊆ typesNamed (m.layout library documented) := by
  obtain ⟨rfl, -⟩ := Derive.derive_ok hm
  exact Mapper.types_ofMapper_subset documented
    fun method hmethod => Derive.shown_of_mem_methods hmethod

/-- The file of a derived mapper is what stands above the imports, the imports, and the layout of
the mapper with the names filled in. What is imported is named in the layout by its simple name, and
what is so named is imported if all types of its qualified name have one package. The imports are in
order, and no two of them or of the mapper's class have one simple name. A class of a package is
written by its qualified name if not by its simple one, so two of them are written alike only if
they have one qualified name. Types whose parts all have packages are written alike only if they
agree in all names. -/
theorem imports_exact {reg : Registry} {g : GeneratorSettings} {d : Descriptor} {m : Mapper}
    (hm : reg.derive g d = .ok m) {settings : JavaSettings} {source : String}
    (hsource : m.javaSource settings = .ok source) :
    ∃ library, Library.ofPackage settings.runtimePackage = .ok library ∧
      let names := TypeNames.ofMapper library settings.javadoc m
      let package := m.type.packageName
      let imports := names.imports package
      let layout := m.layout library settings.javadoc
      (∃ rest, Draws names layout rest ∧ source = Line.textOf (indentWidth settings)
        (m.javaTop settings ++ Mapper.javaImports imports ++ rest)) ∧
      (∀ q, (q ∈ imports →
          ∃ t ∈ typesNamed layout, names.Needs package t ∧ t.qualifiedName = q) ∧
        ((∀ s ∈ typesNamed layout, ∀ t ∈ typesNamed layout, s.qualifiedName = q →
            t.qualifiedName = q → s.packageName = t.packageName) →
          ((∃ t ∈ typesNamed layout, names.Needs package t ∧ t.qualifiedName = q) ↔
            q ∈ imports))) ∧
      imports.Pairwise (· < ·) ∧ (m.type.simpleName :: imports.map lastSegment).Nodup ∧
      (∀ t, t.packageName ≠ "" → names.className t ≠ t.simpleName →
        names.className t = t.qualifiedName) ∧
      (∀ s t, s.packageName ≠ "" → t.packageName ≠ "" →
        (names.className s = names.className t ↔ s.qualifiedName = t.qualifiedName)) ∧
      ∀ s t, (∀ u ∈ s.withParts, u.packageName ≠ "") → (∀ u ∈ t.withParts, u.packageName ≠ "") →
        (names.write s = names.write t ↔ SameNames s t) := by
  obtain ⟨library, hlibrary, hfile⟩ := exists_rest_of_javaSource hsource
  have hnamed := types_subset_of_derive library settings.javadoc hm
  refine ⟨library, hlibrary, hfile, fun q => ?_, TypeNames.pairwise_lt_imports _ _,
    List.nodup_cons.mpr ⟨TypeNames.simpleName_not_mem_imports library _ m,
      TypeNames.nodup_lastSegments_imports _ _⟩,
    fun t _ hname => (TypeNames.className_cases _ t).resolve_right fun h => hname h.1,
    fun s t => TypeNames.className_eq_iff, fun s t => TypeNames.write_eq_iff⟩
  have hneeded : q ∈ (TypeNames.ofMapper library settings.javadoc m).imports m.type.packageName →
      ∃ t ∈ typesNamed (m.layout library settings.javadoc),
        (TypeNames.ofMapper library settings.javadoc m).Needs m.type.packageName t ∧
        t.qualifiedName = q := by
    intro hq
    obtain ⟨t, ht, hneeds⟩ := TypeNames.exists_needs_of_mem_imports hq
    exact ⟨t, hnamed ht, hneeds⟩
  refine ⟨hneeded, fun hpackage => ⟨?_, hneeded⟩⟩
  rintro ⟨t, ht, hneeds, rfl⟩
  exact hneeds.mem_imports fun o ho hqualified => hpackage o (hnamed ho) t ht hqualified rfl

end Java

namespace Sample

open Java (Library TypeNames typesNamed)

/-- The types that the source file of a mapper names under the standard settings. -/
def namedIn (m : Mapper) : List JavaType := typesNamed (m.layout standardLibrary true)

/-- The model of a team is imported into the file of its mapper. -/
theorem imports_exact_team :
    teams.derive {} team = .ok teamMapper ∧
      (∃ source, teamMapper.javaSource {} = .ok source) ∧
      (∀ s ∈ namedIn teamMapper, ∀ t ∈ namedIn teamMapper, s.qualifiedName = "com.Team" →
        t.qualifiedName = "com.Team" → s.packageName = t.packageName) ∧
      team.model ∈ namedIn teamMapper ∧
      (namesIn teamMapper).Needs "gen.com" team.model ∧
      "com.Team" ∈ (namesIn teamMapper).imports "gen.com" := by
  have hm : teams.derive {} team = .ok teamMapper := rfl
  have hlibrary : Library.ofPackage ({} : JavaSettings).runtimePackage = .ok standardLibrary := rfl
  obtain ⟨source, hsource⟩ : ∃ source, teamMapper.javaSource {} = .ok source := ⟨_, rfl⟩
  obtain ⟨library, hok, -, himports, -⟩ := Java.imports_exact hm hsource
  obtain rfl := Except.ok.inj (hlibrary.symm.trans hok)
  have hpackage : ∀ s ∈ namedIn teamMapper, ∀ t ∈ namedIn teamMapper,
      s.qualifiedName = "com.Team" → t.qualifiedName = "com.Team" →
        s.packageName = t.packageName := by decide +kernel
  have hmem : team.model ∈ namedIn teamMapper := by decide +kernel
  have hneeds : (namesIn teamMapper).Needs "gen.com" team.model :=
    ⟨by decide, by decide, by decide +kernel⟩
  have hown : teamMapper.type.packageName = "gen.com" := by decide
  have himported := ((himports "com.Team").2 hpackage).mp
    ⟨team.model, hmem, hown.symm ▸ hneeds, by decide⟩
  exact ⟨hm, ⟨source, hsource⟩, hpackage, hmem, hneeds, hown ▸ himported⟩

/-! ### Names that two types share -/

/-- A class in other classes, which has the qualified name of a mapper in a package. -/
def mapperInside : JavaType :=
  .mk [⟨"gen", by decide⟩] (⟨"X", by decide⟩ :: userId.type.package) ⟨"TeamMapper", by decide⟩ []

/-- A field of the model that is written and read as it is. -/
def typedField (name : Identifier) (type : JavaType) : AttributeMapping where
  model := { name, type := some type }
  wire := { name, type := none }
  embedded := false
  conversion := .plain none none

/-- A user with a team, whose mapper is derived elsewhere. -/
def members : Registry where
  registrations := [⟨user, false⟩, ⟨team, true⟩]
  additions := [(userId, { lead with conversion := .single team.representer }),
    (userId, typedField ⟨"helper", by decide⟩ mapperInside)]
  distinct := by decide

def memberMapper : Mapper := (Derive.planned members { packagePrefix := "gen.X" } user).toMapper

def listOf (t : JavaType) : JavaType := Java.list.withArgs [t]

/-- A user with two lists of users, of whom some are in no package. -/
def circles : Registry where
  registrations := users.registrations
  additions := [(userId, typedField friend.model.name (listOf plainUser)),
    (userId, typedField lead.model.name (listOf user.model))]
  distinct := users.distinct

def circleMapper : Mapper := (Derive.planned circles {} user).toMapper

/-- A type of another package is written by its simple name and not imported, since the file's own
package has the class of its qualified name. And two lists are written alike that are none of the
same type. -/
theorem imports_inexact :
    Library.ofPackage ({} : JavaSettings).runtimePackage = .ok standardLibrary ∧
    (members.derive { packagePrefix := "gen.X" } user = .ok memberMapper ∧
      (∃ source, memberMapper.javaSource {} = .ok source) ∧
      mapperInside ∈ namedIn memberMapper ∧
      (namesIn memberMapper).Needs memberMapper.type.packageName mapperInside ∧
      mapperInside.qualifiedName ∉ (namesIn memberMapper).imports memberMapper.type.packageName) ∧
    circles.derive {} user = .ok circleMapper ∧
      (∃ source, circleMapper.javaSource {} = .ok source) ∧
      listOf plainUser ∈ namedIn circleMapper ∧ listOf user.model ∈ namedIn circleMapper ∧
      listOf plainUser ≠ listOf user.model ∧ (listOf plainUser).packageName = "java.util" ∧
      (listOf user.model).packageName = "java.util" ∧
      (namesIn circleMapper).write (listOf plainUser) = "List<User>" ∧
      (namesIn circleMapper).write (listOf user.model) = "List<User>" := by
  have hneeds : (namesIn memberMapper).Needs memberMapper.type.packageName mapperInside :=
    ⟨by decide +kernel, by decide +kernel, by decide +kernel⟩
  have hmissing :
      mapperInside.qualifiedName ∉
        (namesIn memberMapper).imports memberMapper.type.packageName := by
    intro hmem
    have howner : (namesIn memberMapper).owner? (Java.lastSegment mapperInside.qualifiedName) =
        some (GeneratorSettings.mapperOf { packagePrefix := "gen.X" } team.representer) := by
      rw [mapperInside.lastSegment_qualifiedName]
      decide +kernel
    obtain ⟨-, hother, -⟩ := TypeNames.eq_of_mem_imports hmem howner
    exact hother (by decide +kernel)
  have hdiffer : listOf plainUser ≠ listOf user.model := by decide +kernel
  exact ⟨rfl, ⟨rfl, ⟨_, rfl⟩, by decide +kernel, hneeds, hmissing⟩, rfl, ⟨_, rfl⟩,
    by decide +kernel, by decide +kernel, hdiffer, by decide +kernel, by decide +kernel,
    by decide +kernel, by decide +kernel⟩

end Sample

end JsonMapping
