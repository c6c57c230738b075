import JsonMapping.Proofs.Java.Calls
import JsonMapping.Proofs.Java.Imports
import JsonMapping.Proofs.Scope.Worlds

/-! Derived mappers are closed under calls, but for methods of directions that are skipped: what a
method calls is a method of one of the mappers. In Java, what a file prints as a call of a mapper
stands for the class that one of the files declares, and the method is declared in that class. -/

namespace JsonMapping

/-! ## Files -/

namespace Java

theorem Line.infix_spaced {group : List Line} {groups : List (List Line)} (h : group ∈ groups) :
    group <:+: Line.spaced groups := by
  unfold Line.spaced
  induction groups with
  | nil => cases h
  | cons first rest ih =>
    cases rest with
    | nil =>
      rw [List.mem_singleton.mp h, List.intercalate_singleton]
    | cons second more =>
      rw [List.intercalate_cons_cons]
      rcases List.mem_cons.mp h with rfl | hrest
      · exact ((List.prefix_append _ _).trans (List.prefix_append _ _)).isInfix
      · exact (ih hrest).trans (List.suffix_append _ _).isInfix

/-- The file stands where the class of the mapper belongs. Behind the package of the mapper and the
imports it declares a class by the mapper's simple name, and in that class the method. -/
def File.Declares (settings : JavaSettings) (file : File) (m : Mapper) (method : Method) : Prop :=
  file.path = m.javaPath ∧
    ∃ library, Library.ofPackage settings.runtimePackage = .ok library ∧
      let names := TypeNames.ofMapper library settings.javadoc m
      ∃ doc body,
        file.source = Line.textOf (indentWidth settings) (m.javaTop settings ++
          Mapper.javaImports (names.imports m.type.packageName) ++ doc ++
          Line.block [.code s!"public class {m.type.simpleName}"] body) ∧
        method.java names <:+: body

/-- A type is what its name stands for if it has a package and is in no other class, and no type of
another package that takes a name in the file has its qualified name. -/
theorem TypeNames.meaning_eq_memberOf {names : TypeNames} {package : String} {t : JavaType}
    (h : t.packageName ≠ "") (hplain : t.enclosing = [])
    (hsame : ∀ u ∈ names.types, u.qualifiedName = t.qualifiedName →
      u.packageName = t.packageName) :
    names.meaning package t = memberOf t.packageName t.simpleName := by
  have hmember := JavaType.memberOf_eq_qualifiedName_iff.mpr hplain
  rw [hmember]
  refine (meaning_eq_iff h).mpr fun hname => ?_
  by_cases hown : t.packageName = package
  · exact .inr (hown ▸ hmember.symm)
  · exact .inl (Needs.mem_imports ⟨h, hown, hname⟩ hsame)

end Java

namespace GeneratorSettings

/-- Where the suffix of mappers has no dot, their classes are in no other classes. -/
theorem mapperOf_plain {g : GeneratorSettings} {id : RepresenterId}
    (h : g.mapperType id = .ok (g.mapperOf id)) (hsuffix : '.' ∉ g.mapperSuffix.toList) :
    (g.mapperOf id).enclosing = [] ∧ (g.mapperOf id).args = [] := by
  obtain ⟨hpackage, hclass⟩ := JavaType.ofNames_ok h
  constructor
  · have hdot : '.' ∉ (g.mapperOf id).className.toList := by
      rw [(mapperOf_written h).2, List.mem_append, not_or]
      refine ⟨fun hmem => ?_, hsuffix⟩
      exact id.type.simple.not_mem_text (by decide) (stem_subset _ _ hmem)
    by_contra henclosing
    rw [JavaType.className, String.toList_ofList,
      JavaType.dotted_append henclosing (by simp)] at hdot
    simp at hdot
  · have herased := (JavaType.ofNames_eq_erased (g.mapperOf id)).symm
    rw [hpackage, hclass] at herased
    rw [Except.ok.inj (h.symm.trans herased.symm)]
    rfl

end GeneratorSettings

namespace Mapper

/-- The class is declared by its simple name. -/
theorem write_ofMapper_type (library : Java.Library) (documented : Bool) {m : Mapper}
    (h : m.type.args = []) :
    (Java.TypeNames.ofMapper library documented m).write m.type = m.type.simpleName := by
  have hname : (Java.TypeNames.ofMapper library documented m).className m.type =
      m.type.simpleName := by
    simp [Java.TypeNames.className, Java.TypeNames.ofMapper]
  generalize Java.TypeNames.ofMapper library documented m = names at hname ⊢
  generalize m.type = t at h hname ⊢
  obtain ⟨p, e, n, as⟩ := t
  obtain rfl : as = [] := h
  simp [Java.TypeNames.write, Java.TypeNames.chars, hname]

theorem exists_file_declares {settings : JavaSettings} {ms : List Mapper}
    {files : List Java.File} (hfiles : javaFiles settings ms = .ok files) {m : Mapper} (hm : m ∈ ms)
    (hplain : m.type.args = []) {method : Method} (hmethod : method ∈ m.methods) :
    ∃ file ∈ files, file.Declares settings m method := by
  obtain ⟨file, hmem, hfile⟩ := exists_mem_of_mapM_eq_ok hfiles hm
  obtain ⟨source, hsource, hfile⟩ := bind_eq_ok.mp hfile
  obtain ⟨library, hlibrary, hsource⟩ := bind_eq_ok.mp hsource
  cases hfile
  cases hsource
  let names := Java.TypeNames.ofMapper library settings.javadoc m
  have hlines : m.javaLines names settings = m.javaTop settings ++
      javaImports (names.imports m.type.packageName) ++
      (if settings.javadoc then m.javaDoc names else []) ++
      Java.Line.block [.code s!"public class {m.type.simpleName}"]
        (Java.Line.spaced (m.javaMembers names)) := by
    rw [javaLines_eq, javaClass, write_ofMapper_type library _ hplain]
    simp only [List.append_assoc]
  exact ⟨_, hmem, rfl, library, hlibrary, _, _, congrArg (Java.Line.textOf _) hlines,
    Java.Line.infix_spaced (List.mem_append_right _ (List.mem_map_of_mem hmethod))⟩

end Mapper

/-! ## Calls between derived mappers -/

section Loaded

open Derive

variable {reg : Registry} {g : GeneratorSettings} {ms : List Mapper}

/-- A call in a derived method is one of its demands. -/
theorem Derive.exists_called (hlocal : reg.IsLocal) (hms : reg.deriveAll g = .ok ms) {m : Mapper}
    (hm : m ∈ ms) {method : Method} (hmethod : method ∈ m.methods) {t : JavaType} {k : MethodKind}
    (hcall : method.Calls t k) :
    ∃ d ∈ reg.localDescriptors, ∃ e ∈ reg.localDescriptors, m = (planned reg g d).toMapper ∧
      (e = d ∨ e.representer ∈ reg.references d) ∧ t = (planned reg g e).toMapper.type ∧
      (reg.Answerable → e.skips k = false) := by
  obtain ⟨d, hd, rfl, -, hresolves⟩ := exists_descriptor hms hm
  obtain ⟨k', hskip, rfl⟩ := Plan.mem_methods_iff.mp hmethod
  obtain ⟨expr, hmention, hcallee⟩ := hcall
  obtain ⟨context, hdemand⟩ := Stmt.call_mem_demandsAll _ hmention hcallee
  obtain ⟨-, e, he, ht, href, hanswers⟩ := exists_callee hlocal hresolves hd hskip hdemand
  exact ⟨d, hd, e, he, rfl, href, ht, hanswers⟩

theorem Derive.method?_isSome_iff {d : Descriptor} {k : MethodKind} :
    ((planned reg g d).toMapper.method? k).isSome ↔ d.skips k = false := by
  rw [Plan.method?_toMapper, show (planned reg g d).descriptor = d from rfl]
  cases d.skips k <;> simp

/-- Wherever one of the mappers calls a method, one of them has it. -/
def Mapper.ClosedUnderCalls (ms : List Mapper) : Prop :=
  ∀ m ∈ ms, ∀ method ∈ m.methods, ∀ t k, method.Calls t k →
    ∃ m' ∈ ms, m'.type = t ∧ (m'.method? k).isSome

theorem Derive.skips_eq_of_methodName_eq {d : Descriptor} {k k' : MethodKind}
    (h : k'.methodName = k.methodName) : d.skips k' = d.skips k := by
  refine skips_congr ?_
  cases k <;> cases k' <;> first | rfl | exact absurd h (by decide)

/-- What a file prints as a call of a mapper is a call of one of the mappers. Its class is declared
in a file, with all methods of the name that is called, and is what the printed name stands for. -/
theorem Derive.printed_call_is_declared (hlocal : reg.IsLocal) (hms : reg.deriveAll g = .ok ms)
    (hanswerable : reg.Answerable) (hsuffix : '.' ∉ g.mapperSuffix.toList)
    {settings : JavaSettings} {files : List Java.File}
    (hfiles : Mapper.javaFiles settings ms = .ok files) {m : Mapper} (hm : m ∈ ms)
    {library : Java.Library} {s : Java.Sketch} (hs : s ∈ m.layout library settings.javadoc)
    {t : JavaType} {k : MethodKind} (hprints : Java.PrintsCall s.parts t k.methodName) :
    t = library.linksMapper ∨ ∃ m' ∈ ms, m'.type = t ∧
      (∀ k' : MethodKind, k'.methodName = k.methodName → ∃ callee, m'.method? k' = some callee ∧
        ∃ file ∈ files, file.Declares settings m' callee) ∧
      (t.packageName ≠ "" →
        (∀ u ∈ Java.typesNamed (m.layout library settings.javadoc),
          u.qualifiedName = t.qualifiedName → u.packageName = t.packageName) →
        (Java.TypeNames.ofMapper library settings.javadoc m).meaning m.type.packageName t =
          Java.memberOf t.packageName t.simpleName) := by
  refine (m.makes_of_printsCall hs hprints).imp_right ?_
  rintro ⟨f, hf, k₀, hcall, hname⟩
  obtain ⟨d, hd, e, he, rfl, -, rfl, hskip⟩ := exists_called hlocal hms hm hf hcall
  have hderived := (deriveAll_ok hms).2 e he
  obtain ⟨hplain, hargs⟩ := GeneratorSettings.mapperOf_plain hderived.1 hsuffix
  have hcallee := toMapper_mem hms he
  refine ⟨_, hcallee, rfl, ?_, ?_⟩
  · intro k' hk'
    have hkept : e.skips k' = false :=
      (skips_eq_of_methodName_eq (hk'.trans hname.symm)).trans (hskip hanswerable)
    obtain ⟨callee, hmethod⟩ := Option.isSome_iff_exists.mp (method?_isSome_iff.mpr hkept)
    exact ⟨callee, hmethod, Mapper.exists_file_declares hfiles hcallee hargs
      (List.mem_of_find?_eq_some hmethod)⟩
  · intro hpackage hsame
    have hnamed := Java.types_subset_of_derive library settings.javadoc (derive_eq hms hd)
    exact Java.TypeNames.meaning_eq_memberOf hpackage hplain fun u hu => hsame u (hnamed hu)

/-- Every call goes to a mapper that is derived, too: that of the same descriptor, or of one that it
refers to. The method is there exactly if that descriptor does not skip it. So no run misses a
mapper; and where the registry is answerable, the mappers are closed under calls, and no run misses
a method behind its first call if no mapper replaces another.

In Java, where the suffix of mappers has no dot: what a file prints as a call of a mapper, other
than that of the library which adds links, is a call of one of the mappers, whose class is declared
in one of the files with all methods of the name that is called. If the mapper has a package, and
nothing that the file names has the same qualified name in another package, then the printed name
stands for that class. -/
theorem calls_lead_to_mappers (hlocal : reg.IsLocal) (hms : reg.deriveAll g = .ok ms) :
    (∀ m ∈ ms, ∀ method ∈ m.methods, ∀ t k, method.Calls t k →
      ∃ d ∈ reg.localDescriptors, ∃ e ∈ reg.localDescriptors, ∃ m' ∈ ms,
        reg.derive g d = .ok m ∧ reg.derive g e = .ok m' ∧
        (e = d ∨ e.representer ∈ reg.references d) ∧ m'.type = t ∧
        ((m'.method? k).isSome ↔ e.skips k = false)) ∧
    (∀ w : World, w.Candid [.mapper] ms → ∀ m ∈ ms, ∀ k x,
      (w.loadAll ms).Runs m.type.qualifiedName k x → ¬ Misses .mapper x) ∧
    (reg.Answerable →
      Mapper.ClosedUnderCalls ms ∧
      (∀ w : World, w.Candid [.mapper, .method] ms →
        (ms.map fun m => m.type.qualifiedName).Nodup → ∀ m ∈ ms, ∀ k x, (m.method? k).isSome →
          (w.loadAll ms).Runs m.type.qualifiedName k x →
            ¬ Misses .mapper x ∧ ¬ Misses .method x) ∧
      ('.' ∉ g.mapperSuffix.toList → ∀ settings files, Mapper.javaFiles settings ms = .ok files →
        ∀ m ∈ ms, ∃ library, Java.Library.ofPackage settings.runtimePackage = .ok library ∧
          let names := Java.TypeNames.ofMapper library settings.javadoc m
          let package := m.type.packageName
          let layout := m.layout library settings.javadoc
          (∃ file ∈ files, file.path = m.javaPath ∧ ∃ rest, Java.Draws names layout rest ∧
            file.source = Java.Line.textOf (Java.indentWidth settings)
              (m.javaTop settings ++ Mapper.javaImports (names.imports package) ++ rest)) ∧
          ∀ s ∈ layout, ∀ t (k : MethodKind), Java.PrintsCall s.parts t k.methodName →
            (names.className t).toList ++ '.' :: k.methodName.toList ++ ['('] <:+:
                Java.filled names s.parts ∧
              (t = library.linksMapper ∨ ∃ m' ∈ ms, m'.type = t ∧
                (∀ k' : MethodKind, k'.methodName = k.methodName →
                  ∃ callee, m'.method? k' = some callee ∧
                    ∃ file ∈ files, file.Declares settings m' callee) ∧
                (t.packageName ≠ "" →
                  (∀ u ∈ Java.typesNamed layout, u.qualifiedName = t.qualifiedName →
                    u.packageName = t.packageName) →
                  names.meaning package t = Java.memberOf t.packageName t.simpleName)))) := by
  refine ⟨?_, ?_, fun hanswerable => ?_⟩
  · intro m hm method hmethod t k hcall
    obtain ⟨d, hd, e, he, rfl, href, rfl, -⟩ := exists_called hlocal hms hm hmethod hcall
    exact ⟨d, hd, e, he, _, toMapper_mem hms he, derive_eq hms hd, derive_eq hms he, href, rfl,
      method?_isSome_iff⟩
  · intro w hcandid m hm k x hx
    have hsupports := World.supports_loadAll hlocal hms hcandid (fun h => absurd h (by decide))
      (fun h => absurd h (by decide))
    obtain ⟨m', hm', hget⟩ := w.exists_get?_loadAll hm
    exact (hsupports.finds_of_runs hx hm' hget fun h => absurd h (by decide)).not_misses (by decide)
  refine ⟨?_, ?_, ?_⟩
  · intro m hm method hmethod t k hcall
    obtain ⟨d, -, e, he, -, -, rfl, hskip⟩ := exists_called hlocal hms hm hmethod hcall
    exact ⟨_, toMapper_mem hms he, rfl, method?_isSome_iff.mpr (hskip hanswerable)⟩
  · intro w hcandid hnodup m hm k x hk hx
    have hsupports := World.supports_loadAll hlocal hms hcandid (fun h => absurd h (by decide))
      (fun _ => ⟨hanswerable, hnodup⟩)
    have hfinds := hsupports.finds_of_runs hx hm (w.get?_loadAll hnodup hm) fun _ => hk
    exact ⟨hfinds.not_misses (by decide), hfinds.not_misses (by decide)⟩
  · intro hsuffix settings files hfiles m hm
    obtain ⟨file, hmem, hfile⟩ := exists_mem_of_mapM_eq_ok hfiles hm
    obtain ⟨source, hsource, hfile⟩ := bind_eq_ok.mp hfile
    cases hfile
    obtain ⟨library, hlibrary, rest, hrest, rfl⟩ := Java.exists_rest_of_javaSource hsource
    refine ⟨library, hlibrary, ⟨_, hmem, rfl, rest, hrest, rfl⟩, fun s hs t k hprints => ?_⟩
    exact ⟨hprints.infix_filled _,
      printed_call_is_declared hlocal hms hanswerable hsuffix hfiles hm hs hprints⟩

end Loaded

namespace Sample

/-! ### Mappers that call one another -/

/-- The lead of a team is written by this mapper. -/
def leadCall (mapper : JavaType) : Java.Sketch where
  depth := 2
  parts := [.code "json.put(", .literal "lead", .code ", ", .name mapper, .code ".toJSON(",
    .code "value.getLead()", .code ", ", .code "requestContext", .code ")", .code ");"]

theorem printsCall_leadCall (t : JavaType) :
    Java.PrintsCall (leadCall t).parts t MethodKind.toJson.methodName :=
  ⟨".toJSON(", ⟨(leadCall t).parts.take 3, (leadCall t).parts.drop 5, rfl⟩, by decide⟩

def userMapperType : JavaType := ({} : GeneratorSettings).mapperOf userId

theorem calls_lead_to_mappers_teams :
    teams.IsLocal ∧ teams.deriveAll {} = .ok (mappersOf teams) ∧ teams.Answerable ∧
      Mapper.ClosedUnderCalls (mappersOf teams) ∧
      (∀ v c, ¬ Misses .method
        ((World.loadAll {} (mappersOf teams)).toJson "gen.com.TeamMapper" v c)) ∧
      ∃ files, Mapper.javaFiles {} (mappersOf teams) = .ok files ∧
        leadCall userMapperType ∈ teamMapper.layout standardLibrary true ∧
        "UserMapper.toJSON(".toList <:+:
          Java.filled (namesIn teamMapper) (leadCall userMapperType).parts ∧
        (∃ m ∈ mappersOf teams, m.type = userMapperType ∧
          ∃ callee, m.method? .toJson = some callee ∧
            ∃ file ∈ files, file.Declares {} m callee) ∧
        (namesIn teamMapper).meaning "gen.com" userMapperType =
          Java.memberOf "gen.com" "UserMapper" := by
  have hlocal : teams.IsLocal := by decide
  have hms : teams.deriveAll {} = .ok (mappersOf teams) := rfl
  have hanswerable : teams.Answerable := by decide
  have hcandid : World.Candid {} [.mapper, .method] (mappersOf teams) :=
    ⟨fun _ _ _ _ f hf => (nomatch hf), fun _ _ _ _ f hf => (nomatch hf)⟩
  have hnodup : ((mappersOf teams).map fun m => m.type.qualifiedName).Nodup := by decide
  have hteam : teamMapper ∈ mappersOf teams :=
    List.mem_map_of_mem (List.mem_cons_self : team ∈ [team, user])
  have hstandard : Java.Library.ofPackage ({} : JavaSettings).runtimePackage =
      .ok standardLibrary := rfl
  obtain ⟨files, hfiles⟩ := Mapper.exists_javaFiles hstandard (mappersOf teams)
  obtain ⟨hclosed, hruns, hjava⟩ := (calls_lead_to_mappers hlocal hms).2.2 hanswerable
  refine ⟨hlocal, hms, hanswerable, hclosed, ?_, files, hfiles, ?_⟩
  · intro v c
    exact (hruns {} hcandid hnodup _ hteam .toJson _ rfl (.toJson v c)).2
  · obtain ⟨library, hlibrary, -, hcalls⟩ := hjava (by decide) {} files hfiles _ hteam
    obtain rfl := Except.ok.inj (hstandard.symm.trans hlibrary)
    have hlead : leadCall userMapperType ∈ teamMapper.layout standardLibrary true := by
      decide +kernel
    obtain ⟨hprinted, hcall⟩ := hcalls _ hlead _ .toJson (printsCall_leadCall userMapperType)
    have hclass : (namesIn teamMapper).className userMapperType = "UserMapper" := by decide +kernel
    have htext : "UserMapper.toJSON(".toList =
        "UserMapper".toList ++ '.' :: MethodKind.toJson.methodName.toList ++ ['('] := by decide
    obtain ⟨m, hm, htype, hdeclared, hmeaning⟩ := hcall.resolve_left (by decide)
    refine ⟨hlead, ?_, ⟨m, hm, htype, hdeclared .toJson rfl⟩, ?_⟩
    · rw [htext, ← hclass]
      exact hprinted
    · exact hmeaning (by decide) (by decide +kernel)

/-- A user who is not written. -/
def reader : Descriptor := { user with skipSerialize := true }

def readers : Registry := teamWith [reader] (by decide)

def teamWithLead : Value := .model "com.Team" [("lead", .model "com.User" [])]

/-- Under these settings the names of mappers are those of classes in other classes. -/
def innerSuffix : GeneratorSettings := { mapperSuffix := "Mapper.Impl" }

def teamImpl : Mapper := (Derive.planned teams innerSuffix team).toMapper

def userImpl : Mapper := (Derive.planned teams innerSuffix user).toMapper

/-- Runs miss a method if it is skipped or its mapper replaced, and a mapper if a helper says so.
What is printed as a call is on a class that no file declares if the suffix of mappers has a dot. -/
theorem calls_lead_to_mappers_exceptions :
    (readers.IsLocal ∧ readers.deriveAll {} = .ok (mappersOf readers) ∧
      ¬ Mapper.ClosedUnderCalls (mappersOf readers) ∧
      Misses .method ((World.loadAll {} (mappersOf readers)).toJson "gen.com.TeamMapper"
        teamWithLead {})) ∧
    (namesakes.IsLocal ∧ namesakes.deriveAll {} = .ok (mappersOf namesakes) ∧
      namesakes.Answerable ∧
      Misses .method ((World.loadAll {} (mappersOf namesakes)).toJson "gen.com.TeamMapper"
        teamWithLead {})) ∧
    (mottos.IsLocal ∧ mottos.deriveAll {} = .ok (mappersOf mottos) ∧ mottos.Answerable ∧
      Misses .mapper (((codecWorld fun _ => .error (.unknownMapper "com.Other")).loadAll
        (mappersOf mottos)).toJson "gen.com.TeamMapper" teamWithLead {})) ∧
    (teams.deriveAll innerSuffix = .ok [teamImpl, userImpl] ∧
      leadCall userImpl.type ∈ teamImpl.layout standardLibrary true ∧
      Java.PrintsCall (leadCall userImpl.type).parts userImpl.type MethodKind.toJson.methodName ∧
      (namesIn teamImpl).meaning "gen.com" userImpl.type = "gen.com.UserMapper.Impl" ∧
      ∀ m ∈ [teamImpl, userImpl],
        Java.memberOf m.type.packageName m.type.simpleName = "gen.com.Impl") := by
  have himpl : (namesIn teamImpl).meaning "gen.com" userImpl.type =
      "gen.com.UserMapper.Impl" := by
    have hclass : (namesIn teamImpl).className userImpl.type = "gen.com.UserMapper.Impl" := by
      decide +kernel
    rw [Java.TypeNames.meaning, hclass, Java.denoted_of_mem (by decide)]
  refine ⟨⟨by decide, rfl, ?_, by decide +kernel⟩, ⟨by decide, rfl, by decide, by decide +kernel⟩,
    ⟨by decide, rfl, by decide, by decide +kernel⟩,
    rfl, by decide +kernel, printsCall_leadCall _, himpl, by decide⟩
  intro hclosed
  have hteam : (Derive.planned readers {} team).toMapper ∈ mappersOf readers :=
    List.mem_map_of_mem (List.mem_cons_self : team ∈ [team, reader])
  have hcall : ((Derive.planned readers {} team).method .toJson).Calls
      (({} : GeneratorSettings).mapperOf userId) .toJson :=
    ⟨_, List.mem_of_getElem? (i := 4) rfl, rfl⟩
  obtain ⟨m', hm', ht, hk⟩ := hclosed _ hteam _ (Derive.Plan.mem_methods_iff.mpr
    ⟨.toJson, rfl, rfl⟩) _ _ hcall
  have hmappers : mappersOf readers = [(Derive.planned readers {} team).toMapper,
    (Derive.planned readers {} reader).toMapper] := rfl
  rw [hmappers] at hm'
  simp only [List.mem_cons, List.not_mem_nil, or_false] at hm'
  rcases hm' with rfl | rfl
  · revert ht
    decide
  · cases hk

end Sample

end JsonMapping
