import JsonMapping.Proofs.Derive.Document
import JsonMapping.Proofs.Java.Named

/-! What the names in a source file stand for. A name with dots stands for itself; any other stands
for the import that ends in it, or else for a class of the file's own package. The main statement is
`written_names_denote_iff`: a type with a package is what its name stands for exactly if the name is
qualified, or the type is imported or a class of the file's own package that is not nested. So where
all types are canonical, nothing is missed but nested classes of the file's own package that are
written by their simple names. -/

namespace JsonMapping

namespace Java

/-- The name behind the last dot. -/
def lastSegment (name : String) : String :=
  String.ofList ((Text.pieces '.' name.toList).getLastD [])

/-- The name of a class of the package that is in no other class. -/
def memberOf (package simple : String) : String :=
  if package = "" then simple else package ++ "." ++ simple

/-- The qualified name that a name stands for in a file of the package with the imports. -/
def denoted (imports : List String) (package name : String) : String :=
  if '.' ∈ name.toList then name
  else (imports.find? (lastSegment · = name)).getD (memberOf package name)

section Denoted

variable {imports : List String} {package name : String}

theorem lastSegment_of_not_mem (h : '.' ∉ name.toList) : lastSegment name = name := by
  simp [lastSegment, Text.pieces_of_not_mem h]

theorem lastSegment_memberOf (h : '.' ∉ name.toList) :
    lastSegment (memberOf package name) = name := by
  unfold memberOf
  split
  · exact lastSegment_of_not_mem h
  · simp [lastSegment, Text.pieces_append, Text.pieces_of_not_mem h]

theorem denoted_of_mem (h : '.' ∈ name.toList) : denoted imports package name = name := if_pos h

/-- A name without dots stands for an import that ends in it, if there is one. -/
theorem denoted_of_not_mem (h : '.' ∉ name.toList) :
    (denoted imports package name ∈ imports ∧
        lastSegment (denoted imports package name) = name) ∨
      (∀ i ∈ imports, lastSegment i ≠ name) ∧
        denoted imports package name = memberOf package name := by
  rw [denoted, if_neg h]
  cases hfind : imports.find? (lastSegment · = name) with
  | none =>
    exact .inr ⟨by simpa using hfind, rfl⟩
  | some i =>
    exact .inl ⟨List.mem_of_find?_eq_some hfind, by simpa using List.find?_some hfind⟩

end Denoted

end Java

namespace JavaType

open Java (lastSegment memberOf)

theorem dot_not_mem_simpleName (t : JavaType) : '.' ∉ t.simpleName.toList :=
  t.simple.not_mem_text (by decide)

theorem lastSegment_qualifiedName (t : JavaType) : lastSegment t.qualifiedName = t.simpleName := by
  rw [lastSegment, qualifiedName, String.toList_ofList, pieces_dotted (by simp), List.map_append,
    List.map_singleton, List.getLastD_concat, String.ofList_toList, simpleName]

theorem dot_mem_qualifiedName_iff {t : JavaType} :
    '.' ∈ t.qualifiedName.toList ↔ t.packageName ≠ "" ∨ t.enclosing ≠ [] := by
  rw [Ne, packageName_eq_empty_iff, qualifiedName, String.toList_ofList]
  by_cases houter : t.package ++ t.enclosing = []
  · obtain ⟨hp, he⟩ := List.append_eq_nil_iff.mp houter
    simpa [hp, he, dotted, simpleName] using t.dot_not_mem_simpleName
  · have hnames : t.package ≠ [] ∨ t.enclosing ≠ [] :=
      not_and_or.mp (mt List.append_eq_nil_iff.mpr houter)
    rw [dotted_append houter (by simp)]
    simpa using hnames

theorem memberOf_packageName (t : JavaType) :
    memberOf t.packageName t.simpleName = String.ofList (dotted (t.package ++ [t.simple])) := by
  unfold memberOf
  split
  · rename_i hempty
    simp [packageName_eq_empty_iff.mp hempty, dotted, simpleName]
  · rename_i hne
    rw [dotted_append (mt packageName_eq_empty_iff.mpr hne) (by simp)]
    simp [packageName, dotted, simpleName, String.append_assoc]

/-- The class of a type's package with its simple name is the type itself unless that is nested. -/
theorem memberOf_eq_qualifiedName_iff {t : JavaType} :
    memberOf t.packageName t.simpleName = t.qualifiedName ↔ t.enclosing = [] := by
  rw [memberOf_packageName, qualifiedName]
  constructor
  · intro h
    have hpieces := congrArg (Text.pieces '.') (String.ofList_inj.mp h)
    rw [pieces_dotted (by simp), pieces_dotted (by simp)] at hpieces
    have hlength := congrArg List.length hpieces
    simpa using hlength
  · intro h
    rw [h, List.append_nil]

end JavaType

namespace Java.TypeNames

variable {names : TypeNames} {package : String} {t : JavaType}

/-- The type that takes the simple name. -/
def owner? (names : TypeNames) (simple : String) : Option JavaType :=
  names.types.find? (·.simpleName = simple)

theorem simpleName_of_owner? {simple : String} {o : JavaType} (h : names.owner? simple = some o) :
    o.simpleName = simple := by
  simpa using List.find?_some h

/-- A class is written by its qualified name or, if the owner of its simple name has the same
qualified name, by the simple one. -/
theorem className_cases (names : TypeNames) (t : JavaType) :
    names.className t = t.qualifiedName ∨ names.className t = t.simpleName ∧
      ∃ o, names.owner? t.simpleName = some o ∧ o.qualifiedName = t.qualifiedName := by
  unfold className owner?
  split
  · rename_i o ho
    split
    · rename_i hname
      exact .inr ⟨rfl, o, ho, hname⟩
    · exact .inl rfl
  · exact .inl rfl

/-- What is written by its simple name although its qualified name has a dot shares that with an
owner. -/
theorem exists_owner_of_className (hname : names.className t = t.simpleName)
    (hdot : '.' ∈ t.qualifiedName.toList) :
    ∃ o, names.owner? t.simpleName = some o ∧ o.qualifiedName = t.qualifiedName := by
  rcases names.className_cases t with hqualified | ⟨-, howner⟩
  · rw [← hqualified, hname] at hdot
    exact absurd hdot t.dot_not_mem_simpleName
  · exact howner

theorem mem_owners_iff {ts : List JavaType} :
    t ∈ owners ts ↔ ts.find? (·.simpleName = t.simpleName) = some t := by
  induction ts with
  | nil => simp [owners]
  | cons s rest ih =>
    rw [owners, List.mem_cons, List.mem_filter, ih, List.find?_cons]
    by_cases hname : s.simpleName = t.simpleName
    · simp [hname, eq_comm]
    · have hne : t ≠ s := fun h => hname (h ▸ rfl)
      simp [hname, Ne.symm hname, hne]

theorem mem_imports_iff {i : String} :
    i ∈ names.imports package ↔ ∃ o, names.owner? o.simpleName = some o ∧ o.packageName ≠ "" ∧
      o.packageName ≠ package ∧ o.qualifiedName = i := by
  simp [imports, mem_owners_iff, owner?, and_assoc]

/-- An import is the owner of the name that it ends in. -/
theorem eq_of_mem_imports {i : String} {o : JavaType} (hi : i ∈ names.imports package)
    (howner : names.owner? (lastSegment i) = some o) :
    o.packageName ≠ "" ∧ o.packageName ≠ package ∧ o.qualifiedName = i := by
  obtain ⟨o', howner', hnonempty, hother, rfl⟩ := mem_imports_iff.mp hi
  rw [o'.lastSegment_qualifiedName, howner'] at howner
  cases howner
  exact ⟨hnonempty, hother, rfl⟩

theorem dot_mem_of_mem_imports {i : String} (h : i ∈ names.imports package) : '.' ∈ i.toList := by
  obtain ⟨o, -, hnonempty, -, rfl⟩ := mem_imports_iff.mp h
  exact JavaType.dot_mem_qualifiedName_iff.mpr (.inl hnonempty)

/-- A simple name stands for the import that ends in it, if there is one. -/
theorem denoted_simpleName (names : TypeNames) (package : String) (t : JavaType) :
    (∃ i ∈ names.imports package, lastSegment i = t.simpleName ∧
        denoted (names.imports package) package t.simpleName = i) ∨
      (∀ i ∈ names.imports package, lastSegment i ≠ t.simpleName) ∧
        denoted (names.imports package) package t.simpleName = memberOf package t.simpleName := by
  refine (denoted_of_not_mem t.dot_not_mem_simpleName).imp_left ?_
  rintro ⟨hmem, hlast⟩
  exact ⟨_, hmem, hlast, rfl⟩

/-- A simple name that has an owner stands for the owner if that is imported. -/
theorem denoted_simpleName_of_owner? {o : JavaType} (howner : names.owner? t.simpleName = some o) :
    denoted (names.imports package) package t.simpleName =
      if o.packageName ≠ "" ∧ o.packageName ≠ package then o.qualifiedName
      else memberOf package t.simpleName := by
  rcases names.denoted_simpleName package t with ⟨i, hi, hlast, hdenoted⟩ | ⟨hnone, hdenoted⟩
  · obtain ⟨hnonempty, hother, rfl⟩ := eq_of_mem_imports hi (hlast ▸ howner)
    rw [hdenoted, if_pos ⟨hnonempty, hother⟩]
  · rw [hdenoted, if_neg]
    rintro ⟨hnonempty, hother⟩
    have hsimple := simpleName_of_owner? howner
    have hi := mem_imports_iff.mpr ⟨o, hsimple ▸ howner, hnonempty, hother, rfl⟩
    exact hnone _ hi (o.lastSegment_qualifiedName.trans hsimple)

/-- What the written name of a type stands for in a file of the package. -/
def meaning (names : TypeNames) (package : String) (t : JavaType) : String :=
  denoted (names.imports package) package (names.className t)

theorem meaning_eq_iff (h : t.packageName ≠ "") :
    names.meaning package t = t.qualifiedName ↔
      (names.className t = t.simpleName →
        t.qualifiedName ∈ names.imports package ∨
          t.qualifiedName = memberOf package t.simpleName) := by
  have hdot : '.' ∈ t.qualifiedName.toList := JavaType.dot_mem_qualifiedName_iff.mpr (.inl h)
  have hne : t.qualifiedName ≠ t.simpleName := fun he => t.dot_not_mem_simpleName (he ▸ hdot)
  unfold meaning
  rcases names.className_cases t with hname | ⟨hname, o, howner, hqualified⟩
  · simp [hname, denoted_of_mem hdot, hne]
  rw [hname]
  rcases names.denoted_simpleName package t with ⟨i, hi, hlast, hdenoted⟩ | ⟨hnone, hdenoted⟩
  · -- an import that ends in the simple name is that of the owner
    obtain ⟨-, -, rfl⟩ := eq_of_mem_imports hi (hlast ▸ howner)
    rw [hqualified] at hi hdenoted
    simp [hi, hdenoted]
  · have hnot : t.qualifiedName ∉ names.imports package := fun hmem =>
      hnone _ hmem t.lastSegment_qualifiedName
    simp [hdenoted, hnot, eq_comm]

/-- A type without a package is taken for an import exactly if it is not nested and an import ends
in its name. -/
theorem meaning_mem_imports_iff (h : t.packageName = "") :
    (names.meaning package t ∈ names.imports package →
        names.meaning package t = t.qualifiedName) ↔
      (t.enclosing = [] → ∀ i ∈ names.imports package, lastSegment i ≠ t.simpleName) := by
  unfold meaning
  constructor
  · intro hread henclosing i hi hlast
    have hplain : t.qualifiedName = t.simpleName := by
      have hmember := JavaType.memberOf_eq_qualifiedName_iff.mpr henclosing
      rw [← hmember, h, memberOf, if_pos rfl]
    have hname : names.className t = t.simpleName := by
      rcases names.className_cases t with hname | ⟨hname, -⟩
      · rw [hname, hplain]
      · exact hname
    rw [hname] at hread
    rcases names.denoted_simpleName package t with ⟨j, hj, -, hdenoted⟩ | ⟨hnone, -⟩
    · rw [hdenoted, hplain] at hread
      exact t.dot_not_mem_simpleName (hread hj ▸ dot_mem_of_mem_imports hj)
    · exact hnone i hi hlast
  · intro hnone hmem
    by_cases hname : names.className t = t.simpleName
    · rw [hname] at hmem ⊢
      rcases names.denoted_simpleName package t with ⟨i, hi, hlast, hdenoted⟩ | ⟨hother, hdenoted⟩
      · -- the import is that of the owner, and as the type is nested it is the owner itself
        have henclosing : t.enclosing ≠ [] := fun he => hnone he i hi hlast
        have hdot := JavaType.dot_mem_qualifiedName_iff.mpr (.inr henclosing)
        obtain ⟨o, howner, hqualified⟩ := exists_owner_of_className hname hdot
        obtain ⟨-, -, rfl⟩ := eq_of_mem_imports hi (hlast ▸ howner)
        rw [hdenoted, hqualified]
      · rw [hdenoted] at hmem
        exact absurd (lastSegment_memberOf t.dot_not_mem_simpleName) (hother _ hmem)
    · have hqualified := (names.className_cases t).resolve_right fun hcases => hname hcases.1
      have hdot : '.' ∈ t.qualifiedName.toList := by
        by_contra hdot
        refine hname ?_
        rw [hqualified, ← lastSegment_of_not_mem hdot, t.lastSegment_qualifiedName]
      rw [hqualified, denoted_of_mem hdot]

end Java.TypeNames

/-! ## Files of canonical types -/

namespace JavaType

/-- The package of a canonical type is where a reader takes it to be. -/
theorem Canonical.takeWhile_startsLower {t : JavaType} (h : t.Canonical) :
    (t.package ++ t.enclosing).takeWhile startsLower = t.package := by
  obtain ⟨p, e, n, as⟩ := t
  exact congrArg JavaType.package ((reread_eq_self_iff _).mpr h)

theorem Canonical.packageName_eq {s t : JavaType} (hs : s.Canonical) (ht : t.Canonical)
    (h : s.qualifiedName = t.qualifiedName) : s.packageName = t.packageName := by
  have hnames := congrArg names? (String.ofList_inj.mp h)
  rw [names?_dotted (by simp), names?_dotted (by simp), Option.some_inj] at hnames
  have houter := (List.append_inj' hnames rfl).1
  rw [packageName, packageName, ← hs.takeWhile_startsLower, houter, ht.takeWhile_startsLower]

mutual
theorem Canonical.withParts {t : JavaType} (h : t.Canonical) : ∀ s ∈ t.withParts, s.Canonical := by
  obtain ⟨p, e, n, as⟩ := t
  rw [JavaType.withParts, List.forall_mem_cons]
  exact ⟨h, AllCanonical.partsOfAll h.2.2⟩
theorem AllCanonical.partsOfAll {ts : List JavaType} (h : AllCanonical ts) :
    ∀ s ∈ partsOfAll ts, s.Canonical := by
  match ts, h with
  | [], _ => simp [JavaType.partsOfAll]
  | t :: rest, ⟨ht, hrest⟩ =>
    rw [JavaType.partsOfAll, List.forall_mem_append]
    exact ⟨ht.withParts, hrest.partsOfAll⟩
end

end JavaType

/-- The type that is mentioned is canonical, if it is one. -/
def Mention.Canonical : Mention → Prop
  | .type t | .callee t => t.Canonical
  | .mapper _ | .constant _ | .method _ | .stmt _ | .expr _ | .valueType _ => True

section Mentions

theorem JavaType.Canonical.mentions {t : JavaType} (h : t.Canonical) :
    ∀ x ∈ t.mentions, x.Canonical := by
  rw [JavaType.mentions, List.forall_mem_map]
  exact h.withParts

theorem ValueType.Canonical.mentions {t : ValueType} (h : t.Canonical) :
    ∀ x ∈ t.mentions, x.Canonical := by
  cases t with
  | declared type | declaredList type =>
    simp only [ValueType.mentions, List.forall_mem_cons]
    exact ⟨trivial, JavaType.Canonical.mentions h⟩
  | container | containerList | serializedList | requestContext =>
    simp [ValueType.mentions, Mention.Canonical]

namespace Expr

mutual
theorem Canonical.mentions : ∀ {e : Expr}, e.Canonical → ∀ x ∈ e.mentions, x.Canonical
  | .newModel t, h | .isInstance _ t, h => by
    rw [Expr.mentions, List.forall_mem_cons]
    exact ⟨trivial, JavaType.Canonical.mentions h⟩
  | .isNull e, h | .apply _ e, h => by
    rw [Expr.mentions, List.forall_mem_cons]
    exact ⟨trivial, Canonical.mentions (e := e) h⟩
  | .cast t e, h => by
    rw [Expr.mentions, List.forall_mem_cons, List.forall_mem_append]
    exact ⟨trivial, h.1.mentions, h.2.mentions⟩
  | .callMapper t _ args, h => by
    rw [Expr.mentions, List.forall_mem_cons, List.forall_mem_cons]
    exact ⟨trivial, h.1, h.2.mentionsAll⟩
  | .mapEach _ t _ _, h => by
    rw [Expr.mentions, List.forall_mem_cons, List.forall_mem_singleton]
    exact ⟨trivial, h⟩
  | .var _, _ | .null, _ | .text _, _ | .newContainer, _ | .emptyList, _ | .getAttribute _ _, _
  | .hasKey _ _, _ | .lookup _ _, _ | .subContainer _ _, _ | .links _ _ _, _ => by
    simp [Expr.mentions, Mention.Canonical]
theorem AllCanonical.mentionsAll :
    ∀ {es : List Expr}, AllCanonical es → ∀ x ∈ mentionsAll es, x.Canonical
  | [], _ => by simp [Expr.mentionsAll]
  | e :: rest, h => by
    rw [Expr.mentionsAll, List.forall_mem_append]
    exact ⟨h.1.mentions, h.2.mentionsAll⟩
end

end Expr

namespace Stmt

mutual
theorem Canonical.mentions : ∀ {s : Stmt}, s.Canonical → ∀ x ∈ s.mentions, x.Canonical
  | .declare _ t e, h => by
    rw [Stmt.mentions, List.forall_mem_cons, List.forall_mem_append]
    exact ⟨trivial, h.1.mentions, h.2.mentions⟩
  | .assign _ e, h | .put _ _ e, h | .putAll _ e, h | .ret e, h => by
    rw [Stmt.mentions, List.forall_mem_cons]
    exact ⟨trivial, Expr.Canonical.mentions h⟩
  | .setAttribute _ _ e, h => by
    rw [Stmt.mentions, List.forall_mem_cons]
    exact ⟨trivial, h.2.mentions⟩
  | .when e body, h => by
    rw [Stmt.mentions, List.forall_mem_cons, List.forall_mem_append]
    exact ⟨trivial, h.1.mentions, h.2.mentionsAll⟩
  | .select e arms, h => by
    rw [Stmt.mentions, List.forall_mem_cons, List.forall_mem_append]
    exact ⟨trivial, h.1.mentions, h.2.armMentions⟩
theorem AllCanonical.mentionsAll :
    ∀ {stmts : List Stmt}, AllCanonical stmts → ∀ x ∈ mentionsAll stmts, x.Canonical
  | [], _ => by simp [Stmt.mentionsAll]
  | s :: rest, h => by
    rw [Stmt.mentionsAll, List.forall_mem_append]
    exact ⟨h.1.mentions, h.2.mentionsAll⟩
theorem ArmsCanonical.armMentions :
    ∀ {arms : List (String × List Stmt)}, ArmsCanonical arms → ∀ x ∈ armMentions arms, x.Canonical
  | [], _ => by simp [Stmt.armMentions]
  | (_, body) :: rest, h => by
    rw [Stmt.armMentions, List.forall_mem_append]
    exact ⟨h.1.mentionsAll, h.2.armMentions⟩
end

end Stmt

theorem Mapper.Canonical.mentions {m : Mapper} (h : m.Canonical) :
    ∀ x ∈ m.mentions, x.Canonical := by
  rw [Mapper.mentions, List.forall_mem_cons, List.forall_mem_append]
  refine ⟨trivial, List.forall_mem_flatMap.mpr fun c hc => ?_,
    List.forall_mem_flatMap.mpr fun method hmethod => ?_⟩
  · rw [Constant.mentions, List.forall_mem_cons]
    exact ⟨trivial, (h.constants c hc).mentions⟩
  · have hmethod := h.methods method hmethod
    rw [Method.mentions, List.forall_mem_cons, List.forall_mem_append, List.forall_mem_append]
    exact ⟨trivial, ⟨List.forall_mem_flatMap.mpr fun p hp => (hmethod.params p hp).mentions,
      hmethod.returns.mentions⟩, (Stmt.allCanonical_iff.mpr hmethod.body).mentionsAll⟩

end Mentions

namespace Java

structure Library.Canonical (library : Library) : Prop where
  requestContext : library.requestContext.Canonical
  linksMapper : library.linksMapper.Canonical
  linksProvider : library.linksProvider.Canonical

variable {library : Library}

theorem Library.Canonical.typesOf (hlibrary : library.Canonical) {x : Mention} (h : x.Canonical) :
    ∀ t ∈ library.typesOf x, t.Canonical := by
  obtain ⟨hcontext, hmapper, hprovider⟩ := hlibrary
  have hcollections : map.Canonical ∧ linkedHashMap.Canonical ∧ list.Canonical ∧
      collections.Canonical ∧ collectors.Canonical := by decide
  cases x with
  | constant c =>
    simp only [Library.typesOf]
    split <;> simp [hprovider]
  | valueType t => cases t <;> simp_all [Library.typesOf]
  | expr e => cases e <;> simp_all [Library.typesOf]
  | type t => exact List.forall_mem_singleton.mpr h
  | callee t => exact JavaType.Canonical.withParts h
  | mapper _ | method _ | stmt _ => simp [Library.typesOf]

namespace TypeNames

theorem canonical_ofMapper (hlibrary : library.Canonical) (documented : Bool) {m : Mapper}
    (h : m.Canonical) : ∀ t ∈ (ofMapper library documented m).types, t.Canonical := by
  rw [ofMapper, List.forall_mem_cons, List.forall_mem_append]
  refine ⟨h.type, ?_, List.forall_mem_flatMap.mpr fun x hx => hlibrary.typesOf (h.mentions x hx)⟩
  split
  · simp [h.model, h.representer]
  · simp

variable {names : TypeNames} {package : String} {t : JavaType}

/-- Where the types are canonical, only a nested class of the file's own package is missed. -/
theorem meaning_eq_iff_of_canonical (hnames : ∀ s ∈ names.types, s.Canonical) (ht : t.Canonical)
    (h : t.packageName ≠ "") :
    names.meaning package t = t.qualifiedName ↔
      (names.className t = t.simpleName → t.packageName = package → t.enclosing = []) := by
  rw [meaning_eq_iff h]
  refine imp_congr_right fun hname => ?_
  have hdot := JavaType.dot_mem_qualifiedName_iff.mpr (.inl h)
  obtain ⟨o, howner, hqualified⟩ := exists_owner_of_className hname hdot
  have hpackage : o.packageName = t.packageName :=
    (hnames o (List.mem_of_find?_eq_some howner)).packageName_eq ht hqualified
  constructor
  · rintro (hmem | hmember) hown
    · obtain ⟨-, hother, -⟩ := eq_of_mem_imports hmem (t.lastSegment_qualifiedName.symm ▸ howner)
      exact absurd (hpackage.trans hown) hother
    · rw [← hown] at hmember
      exact JavaType.memberOf_eq_qualifiedName_iff.mp hmember.symm
  · intro hnested
    by_cases hown : t.packageName = package
    · rw [← hown]
      exact .inr (JavaType.memberOf_eq_qualifiedName_iff.mpr (hnested hown)).symm
    · rw [← hpackage] at h hown
      rw [← simpleName_of_owner? howner] at howner
      exact .inl (mem_imports_iff.mpr ⟨o, howner, h, hown, hqualified⟩)

end TypeNames

/-- The file of a mapper is what stands above the imports, the imports, and the layout of the mapper
with the names filled in. Each type that the layout names is written in one of its lines. A type
with a package is what its name stands for exactly if the name is qualified, or it is imported or a
class of the file's package that is not nested; where all types are canonical, exactly if it is not
written by its simple name as a nested class of the file's package. A type without a package is
taken for an import exactly if it is not nested and an import ends in its name. -/
theorem written_names_denote_iff (library : Library) (settings : JavaSettings) (m : Mapper) :
    let names := TypeNames.ofMapper library settings.javadoc m
    let package := m.type.packageName
    let imports := names.imports package
    let layout := m.layout library settings.javadoc
    (∃ rest, Draws names layout rest ∧
      (Library.ofPackage settings.runtimePackage = .ok library → m.javaSource settings =
        .ok (Line.textOf (indentWidth settings)
          (m.javaTop settings ++ Mapper.javaImports imports ++ rest))) ∧
      ∀ t ∈ typesNamed layout, ∃ l ∈ rest, (names.className t).toList <:+: l.content.2) ∧
    ∀ t : JavaType,
      (t.packageName ≠ "" →
        (names.meaning package t = t.qualifiedName ↔ (names.className t = t.simpleName →
          t.qualifiedName ∈ imports ∨ t.qualifiedName = memberOf package t.simpleName)) ∧
        (library.Canonical → m.Canonical → t.Canonical →
          (names.meaning package t = t.qualifiedName ↔ (names.className t = t.simpleName →
            t.packageName = package → t.enclosing = [])))) ∧
      (t.packageName = "" →
        ((names.meaning package t ∈ imports → names.meaning package t = t.qualifiedName) ↔
          (t.enclosing = [] → ∀ i ∈ imports, lastSegment i ≠ t.simpleName))) := by
  intro names package imports layout
  constructor
  · obtain ⟨rest, hlines, hrest⟩ := m.exists_javaLines_eq names settings
    refine ⟨rest, hrest, fun hlibrary => ?_, fun t => hrest.exists_line⟩
    rw [Mapper.javaSource, hlibrary, ← hlines]
    rfl
  · intro t
    refine ⟨fun h => ⟨TypeNames.meaning_eq_iff h, ?_⟩, TypeNames.meaning_mem_imports_iff⟩
    intro hlibrary hm ht
    exact TypeNames.meaning_eq_iff_of_canonical
      (TypeNames.canonical_ofMapper hlibrary settings.javadoc hm) ht h

end Java

/-! ## Files of samples -/

namespace Sample

open Java (Library TypeNames)

def standardClass (name : Identifier) : JavaType :=
  .mk [⟨"cd", by decide⟩, ⟨"go", by decide⟩, ⟨"jrepresenter", by decide⟩] [] name []

def standardLibrary : Library where
  requestContext := standardClass ⟨"RequestContext", by decide⟩
  linksMapper := standardClass ⟨"LinksMapper", by decide⟩
  linksProvider := standardClass ⟨"LinksProvider", by decide⟩

/-- The names in the source file of a mapper under the standard settings. -/
def namesIn (m : Mapper) : TypeNames := .ofMapper standardLibrary true m

def teamMapper : Mapper := (Derive.planned teams {} team).toMapper

/-- Every name in the team's file stands for its type. -/
theorem written_names_denote_team :
    teamMapper ∈ mappersOf teams ∧
      Library.ofPackage ({} : JavaSettings).runtimePackage = .ok standardLibrary ∧
      (∃ rest, Java.Draws (namesIn teamMapper) (teamMapper.layout standardLibrary true) rest ∧
        teamMapper.javaSource {} = .ok (Java.Line.textOf 2 (teamMapper.javaTop {} ++
          Mapper.javaImports ((namesIn teamMapper).imports "gen.com") ++ rest)) ∧
        ∀ t ∈ Java.typesNamed (teamMapper.layout standardLibrary true),
          ∃ l ∈ rest, ((namesIn teamMapper).className t).toList <:+: l.content.2) ∧
      (∀ t ∈ (namesIn teamMapper).types,
        (namesIn teamMapper).meaning "gen.com" t = t.qualifiedName) ∧
      ((namesIn teamMapper).meaning "gen.com" text ∈ (namesIn teamMapper).imports "gen.com" →
        (namesIn teamMapper).meaning "gen.com" text = text.qualifiedName) := by
  have hpackage : teamMapper.type.packageName = "gen.com" := by decide
  have htypes : ∀ t ∈ (namesIn teamMapper).types, t.Canonical ∧ t.packageName ≠ "" ∧
      t.enclosing = [] ∧ t.simpleName ≠ "String" := by decide +kernel
  have hlibrary : standardLibrary.Canonical := ⟨by decide, by decide, by decide⟩
  have hteam : teamMapper.Canonical := by
    have hderive : teams.derive {} team = .ok teamMapper := rfl
    obtain ⟨p, hplan, hp⟩ := Registry.exists_canonical_plan plain_default (by decide) (by decide)
      hderive
    rw [hp]
    exact Derive.canonical_toMapper hplan
  have hstandard : Library.ofPackage ({} : JavaSettings).runtimePackage = .ok standardLibrary := rfl
  obtain ⟨⟨rest, hrest, hsource, hwritten⟩, hdenotes⟩ :=
    Java.written_names_denote_iff standardLibrary {} teamMapper
  rw [hpackage] at hsource hdenotes
  refine ⟨List.mem_cons_self, hstandard, ⟨rest, hrest, hsource hstandard, hwritten⟩, ?_, ?_⟩
  · intro t ht
    obtain ⟨hcanonical, hnonempty, hnested, -⟩ := htypes t ht
    exact (((hdenotes t).1 hnonempty).2 hlibrary hteam hcanonical).mpr fun _ _ => hnested
  · refine ((hdenotes text).2 rfl).mpr fun _ i hi hlast => ?_
    obtain ⟨o, howner, -, -, rfl⟩ := TypeNames.mem_imports_iff.mp hi
    have ho := htypes o (List.mem_of_find?_eq_some howner)
    exact ho.2.2.2 (o.lastSegment_qualifiedName.symm.trans hlast)

/-- A class in another class of the package for which its mapper is derived. -/
def inner : JavaType :=
  .mk userId.type.package [⟨"Outer", by decide⟩] ⟨"Inner", by decide⟩ []

def innerUser : Descriptor where
  representer := userId
  model := inner

def inners : Registry where
  registrations := [⟨innerUser, false⟩]
  additions := []
  distinct := by decide

def innerMapper : Mapper := (Derive.planned inners { packagePrefix := "" } innerUser).toMapper

/-- A class without a package. There is a model of the same simple name that has one. -/
def plainUser : JavaType := .mk [] [] user.model.simple []

def friend : AttributeMapping where
  model := { name := ⟨"friend", by decide⟩, type := some plainUser }
  wire := { name := ⟨"friend", by decide⟩, type := some plainUser }
  embedded := false
  conversion := .plain none none

def users : Registry where
  registrations := [⟨user, false⟩]
  additions := [(userId, friend)]
  distinct := by decide

def userMapper : Mapper := (Derive.planned users {} user).toMapper

/-- A nested class of the file's own package is taken for a class that is not nested, and a class
without a package for a model that is imported. -/
theorem names_misread :
    Library.ofPackage ({} : JavaSettings).runtimePackage = .ok standardLibrary ∧
    (inners.deriveAll { packagePrefix := "" } = .ok [innerMapper] ∧
      innerMapper.type.packageName = "com" ∧
      inner ∈ Java.typesNamed (innerMapper.layout standardLibrary true) ∧
      inner ∈ (namesIn innerMapper).types ∧ inner.qualifiedName = "com.Outer.Inner" ∧
      (namesIn innerMapper).meaning "com" inner = "com.Inner") ∧
    (users.deriveAll {} = .ok [userMapper] ∧ userMapper.type.packageName = "gen.com" ∧
      plainUser ∈ Java.typesNamed (userMapper.layout standardLibrary true) ∧
      plainUser ∈ (namesIn userMapper).types ∧ plainUser.qualifiedName = "User" ∧
      (namesIn userMapper).meaning "gen.com" plainUser = "com.User" ∧
      "com.User" ∈ (namesIn userMapper).imports "gen.com") := by
  refine ⟨rfl, ⟨rfl, by decide, by decide +kernel, by decide +kernel, by decide, ?_⟩, rfl,
    by decide, by decide +kernel, by decide +kernel, by decide, ?_, ?_⟩
  · have hname : (namesIn innerMapper).className inner = inner.simpleName := by decide +kernel
    have howner : (namesIn innerMapper).owner? inner.simpleName = some inner := by decide +kernel
    rw [TypeNames.meaning, hname, TypeNames.denoted_simpleName_of_owner? howner]
    decide
  · have hname : (namesIn userMapper).className plainUser = plainUser.simpleName := by
      decide +kernel
    have howner : (namesIn userMapper).owner? plainUser.simpleName = some user.model := by
      decide +kernel
    rw [TypeNames.meaning, hname, TypeNames.denoted_simpleName_of_owner? howner]
    decide
  · have howner : (namesIn userMapper).owner? user.model.simpleName = some user.model := by
      decide +kernel
    exact TypeNames.mem_imports_iff.mpr ⟨user.model, howner, by decide⟩

end Sample

end JsonMapping
