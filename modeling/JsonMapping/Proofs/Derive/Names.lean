import JsonMapping.Java.File
import JsonMapping.Proofs.Graph.Loading
import JsonMapping.Proofs.Naming.Dotted
import Mathlib.Data.List.Basic

/-! Names of mappers. Of a representer's id, the package and the stem of the innermost class decide
on the name of the mapper: ids that agree in both have one mapper name, and no others have. Where
no two ids agree, the mappers can be loaded and written side by side. -/

namespace JsonMapping

/-! ## Names of mappers -/

namespace GeneratorSettings

/-- Two ids agree in package and stem. -/
def Alike (g : GeneratorSettings) (r s : RepresenterId) : Prop :=
  r.type.packageName = s.type.packageName ∧
    stem g.representerSuffix.toList r.type.simpleName.toList =
      stem g.representerSuffix.toList s.type.simpleName.toList

instance (g : GeneratorSettings) (r s : RepresenterId) : Decidable (g.Alike r s) :=
  inferInstanceAs (Decidable (_ ∧ _))

theorem stem_subset (suffix name : List Char) : stem suffix name ⊆ name := by
  unfold stem
  split
  · exact List.take_subset _ _
  · exact List.Subset.refl _

theorem mapperPackage_injective (g : GeneratorSettings) : g.mapperPackage.Injective := by
  intro p q h
  have hlist := congrArg String.toList h
  rw [mapperPackage_toList, mapperPackage_toList] at hlist
  by_cases hplain : g.packagePrefix = ""
  · simpa [hplain, String.toList_inj] using hlist
  by_cases hp : p = "" <;> by_cases hq : q = ""
  · rw [hp, hq]
  · simp [hplain, hp, hq] at hlist
  · simp [hplain, hp, hq] at hlist
  · simpa [hplain, hp, hq, String.toList_inj] using hlist

/-- A name in a package, with a suffix: the package and the name without the suffix can be told
from the text if the name has no dots. -/
theorem eq_of_named {p q a b suffix : List Char} (ha : '.' ∉ a) (hb : '.' ∉ b)
    (h : (if p = [] then a ++ suffix else p ++ '.' :: (a ++ suffix)) =
      if q = [] then b ++ suffix else q ++ '.' :: (b ++ suffix)) : p = q ∧ a = b := by
  have hsuffix : ∀ p a : List Char, (if p = [] then a ++ suffix else p ++ '.' :: (a ++ suffix)) =
      (if p = [] then a else p ++ '.' :: a) ++ suffix := by
    intro p a
    split <;> simp
  rw [hsuffix, hsuffix] at h
  have hname := List.append_cancel_right h
  by_cases hp : p = [] <;> by_cases hq : q = []
  · exact ⟨hp.trans hq.symm, by simpa [hp, hq] using hname⟩
  · simp only [hp, hq, if_true, if_false] at hname
    exact absurd (by simp [hname]) ha
  · simp only [hp, hq, if_true, if_false] at hname
    exact absurd (by simp [← hname]) hb
  · simp only [hp, hq, if_false] at hname
    exact Text.append_cons_inj ha hb hname

theorem mapperOf_written {g : GeneratorSettings} {r : RepresenterId}
    (h : g.mapperType r = .ok (g.mapperOf r)) :
    (g.mapperOf r).packageName = g.mapperPackage r.type.packageName ∧
      (g.mapperOf r).className.toList =
        stem g.representerSuffix.toList r.type.simpleName.toList ++ g.mapperSuffix.toList := by
  obtain ⟨hpackage, hclass⟩ := JavaType.ofNames_ok h
  exact ⟨hpackage, by simp [hclass]⟩

theorem mapperOf_eq_of_alike {g : GeneratorSettings} {r s : RepresenterId} (h : g.Alike r s)
    (hs : g.mapperType s = .ok (g.mapperOf s)) : g.mapperOf r = g.mapperOf s := by
  have htype : g.mapperType r = g.mapperType s := by
    unfold mapperType
    rw [h.1, h.2]
  exact mapperOf_eq (htype.trans hs)

/-- Ids have one mapper name exactly if they agree. -/
theorem mapperName_eq_iff {g : GeneratorSettings} {r s : RepresenterId}
    (hr : g.mapperType r = .ok (g.mapperOf r)) (hs : g.mapperType s = .ok (g.mapperOf s)) :
    g.mapperName r = g.mapperName s ↔ g.Alike r s := by
  constructor
  · intro h
    have hdot : ∀ id : RepresenterId,
        '.' ∉ stem g.representerSuffix.toList id.type.simpleName.toList := fun id hmem =>
      Identifier.not_mem_text (by decide) id.type.simple (stem_subset _ _ hmem)
    obtain ⟨hrPackage, hrClass⟩ := mapperOf_written hr
    obtain ⟨hsPackage, hsClass⟩ := mapperOf_written hs
    have hname := congrArg String.toList h
    simp only [mapperName, JavaType.qualifiedName_toList, hrPackage, hrClass, hsPackage,
      hsClass] at hname
    obtain ⟨hpackage, hstem⟩ := eq_of_named (hdot r) (hdot s) hname
    exact ⟨g.mapperPackage_injective (String.toList_inj.mp hpackage), hstem⟩
  · intro h
    rw [mapperName, mapperOf_eq_of_alike h hs, mapperName]

end GeneratorSettings

/-! ## Paths of files -/

namespace Mapper

theorem javaPath_toList (m : Mapper) : m.javaPath.toList =
    List.intercalate ['/'] (m.type.package.map (fun n => n.text.toList) ++
      [m.type.className.toList ++ ".java".toList]) := by
  simp [javaPath, String.toList_intercalate, Function.comp_def]

theorem javaPath_congr {m n : Mapper} (h : m.type = n.type) : m.javaPath = n.javaPath := by
  simp only [javaPath, h]

/-- A path tells the name of the class. -/
theorem qualifiedName_eq_of_javaPath_eq {m n : Mapper} (h : m.javaPath = n.javaPath) :
    m.type.qualifiedName = n.type.qualifiedName := by
  have hpieces : ∀ k : Mapper, Text.pieces '/' k.javaPath.toList =
      k.type.package.map (fun n => n.text.toList) ++
        [k.type.className.toList ++ ".java".toList] := by
    intro k
    rw [javaPath_toList, Text.pieces_intercalate (by simp)]
    intro p hp
    rcases List.mem_append.mp hp with hp | hp
    · obtain ⟨name, -, rfl⟩ := List.mem_map.mp hp
      exact name.not_mem_text (by decide)
    · rw [List.mem_singleton.mp hp, List.mem_append, not_or]
      refine ⟨?_, by decide⟩
      simpa [JavaType.className] using JavaType.not_mem_dotted (by decide) (by decide) _
  have heq := (hpieces m).symm.trans ((congrArg (Text.pieces '/' ·.toList) h).trans (hpieces n))
  obtain ⟨hpackage, hclass⟩ := List.append_inj' heq (by simp)
  have hclass : m.type.className.toList = n.type.className.toList :=
    List.append_cancel_right (List.singleton_inj.mp hclass)
  have hpackage : m.type.packageName = n.type.packageName := by
    unfold JavaType.packageName JavaType.dotted
    rw [hpackage]
  rw [← String.toList_inj, JavaType.qualifiedName_toList, JavaType.qualifiedName_toList, hpackage,
    hclass]

theorem map_path_of_javaFiles {settings : JavaSettings} {ms : List Mapper} {files : List Java.File}
    (h : javaFiles settings ms = .ok files) : files.map (·.path) = ms.map javaPath := by
  refine map_eq_of_mapM_eq_ok h ?_
  intro m file hfile
  obtain ⟨source, -, hfile⟩ := bind_eq_ok.mp hfile
  cases hfile
  rfl

/-- Only the package of the library can keep mappers from being written. -/
theorem exists_javaFiles {settings : JavaSettings} {library : Java.Library}
    (h : Java.Library.ofPackage settings.runtimePackage = .ok library) (ms : List Mapper) :
    ∃ files, javaFiles settings ms = .ok files := by
  unfold javaFiles
  induction ms with
  | nil => exact ⟨[], rfl⟩
  | cons m rest ih =>
    obtain ⟨files, hfiles⟩ := ih
    have hfile : ∃ file, javaFile settings m = .ok file := by
      unfold javaFile javaSource
      rw [h]
      exact ⟨_, rfl⟩
    obtain ⟨file, hfile⟩ := hfile
    refine ⟨file :: files, ?_⟩
    rw [List.mapM_cons, hfile, hfiles]
    rfl

end Mapper

/-! ## Mappers side by side -/

/-- No two ids of mappers that are generated here agree. -/
def Registry.NamesApart (reg : Registry) (g : GeneratorSettings) : Prop :=
  ∀ d ∈ reg.localDescriptors, ∀ e ∈ reg.localDescriptors,
    g.Alike d.representer e.representer → d.representer = e.representer

instance (reg : Registry) (g : GeneratorSettings) : Decidable (reg.NamesApart g) :=
  inferInstanceAs (Decidable (∀ d ∈ reg.localDescriptors, ∀ e ∈ reg.localDescriptors,
    g.Alike d.representer e.representer → d.representer = e.representer))

section Derived

variable {reg : Registry} {g : GeneratorSettings} {ms : List Mapper}

theorem Derive.qualifiedName_eq_iff (hms : reg.deriveAll g = .ok ms) {m n : Mapper} (hm : m ∈ ms)
    (hn : n ∈ ms) :
    m.type.qualifiedName = n.type.qualifiedName ↔ g.Alike m.representer n.representer := by
  obtain ⟨d, -, rfl, hd, -⟩ := exists_descriptor hms hm
  obtain ⟨e, -, rfl, he, -⟩ := exists_descriptor hms hn
  exact GeneratorSettings.mapperName_eq_iff hd he

theorem Derive.javaPath_eq_iff (hms : reg.deriveAll g = .ok ms) {m n : Mapper} (hm : m ∈ ms)
    (hn : n ∈ ms) : m.javaPath = n.javaPath ↔ m.type.qualifiedName = n.type.qualifiedName := by
  refine ⟨Mapper.qualifiedName_eq_of_javaPath_eq, ?_⟩
  intro hname
  have halike := (qualifiedName_eq_iff hms hm hn).mp hname
  obtain ⟨d, -, rfl, -⟩ := exists_descriptor hms hm
  obtain ⟨e, -, rfl, he, -⟩ := exists_descriptor hms hn
  exact Mapper.javaPath_congr (GeneratorSettings.mapperOf_eq_of_alike halike he)

/-- The mapper names that are derived are distinct exactly if no two ids agree. -/
theorem Derive.nodup_names_iff (hms : reg.deriveAll g = .ok ms) :
    (ms.map fun m => m.type.qualifiedName).Nodup ↔ reg.NamesApart g := by
  obtain ⟨rfl, hlocal⟩ := deriveAll_ok hms
  have hnodup := reg.nodup_localDescriptors
  have hinj := List.inj_on_of_nodup_map hnodup
  rw [List.map_map, List.nodup_map_iff_inj_on hnodup.of_map]
  constructor
  · intro h d hd e he halike
    have hname := (GeneratorSettings.mapperName_eq_iff (hlocal d hd).1 (hlocal e he).1).mpr halike
    rw [h d hd e he hname]
  · intro h d hd e he hname
    exact hinj hd he
      (h d hd e he ((GeneratorSettings.mapperName_eq_iff (hlocal d hd).1 (hlocal e he).1).mp hname))

/-- Mappers with distinct names are all found where they are loaded. -/
theorem World.get?_loadAll (w : World) (h : (ms.map fun m => m.type.qualifiedName).Nodup)
    {m : Mapper} (hm : m ∈ ms) :
    (w.loadAll ms).mappers.get? m.type.qualifiedName = some m := by
  have hkeys : Entries.keys (ms.map fun m => (m.type.qualifiedName, m)) =
      ms.map fun m => m.type.qualifiedName := by
    simp [Entries.keys, Function.comp_def]
  rw [World.mappers_loadAll, Entries.get?_insertAll (hkeys ▸ h), Entries.get?_map h hm]
  rfl

/-- Only mappers whose ids do not agree are all found where they are loaded. -/
theorem World.namesApart_of_get?_loadAll (hms : reg.deriveAll g = .ok ms) {w : World}
    (hget : ∀ m ∈ ms, (w.loadAll ms).mappers.get? m.type.qualifiedName = some m) :
    reg.NamesApart g := by
  intro d hd e he halike
  have hm := Derive.toMapper_mem hms hd
  have hn := Derive.toMapper_mem hms he
  have hname := (Derive.qualifiedName_eq_iff hms hm hn).mpr halike
  have hsame := hget _ hm
  rw [hname, hget _ hn] at hsame
  exact (congrArg Mapper.representer (Option.some.inj hsame)).symm

theorem Derive.nodup_paths_iff (hms : reg.deriveAll g = .ok ms) {settings : JavaSettings}
    {files : List Java.File} (hfiles : Mapper.javaFiles settings ms = .ok files) :
    (files.map (·.path)).Nodup ↔ reg.NamesApart g := by
  rw [Mapper.map_path_of_javaFiles hfiles, ← nodup_names_iff hms, List.nodup_iff_pairwise_ne,
    List.nodup_iff_pairwise_ne, List.pairwise_map, List.pairwise_map]
  exact List.Pairwise.iff_of_mem fun hm hn => not_congr (javaPath_eq_iff hms hm hn)

/-- Of all mappers that are derived, two have one name exactly if the ids of their representers
agree in package and stem. So it is where no two ids agree, and only there, that loading the mappers
replaces none of them and that their files have distinct paths. -/
theorem mapperNames_identify (hms : reg.deriveAll g = .ok ms) :
    (∀ m ∈ ms, ∀ n ∈ ms, m.type.qualifiedName = n.type.qualifiedName ↔
      g.Alike m.representer n.representer) ∧
    ((ms.map fun m => m.type.qualifiedName).Nodup ↔ reg.NamesApart g) ∧
    (∀ w : World, (∀ m ∈ ms, (w.loadAll ms).mappers.get? m.type.qualifiedName = some m) ↔
      reg.NamesApart g) ∧
    ∀ settings files, Mapper.javaFiles settings ms = .ok files →
      ((files.map (·.path)).Nodup ↔ reg.NamesApart g) := by
  have hnames := Derive.nodup_names_iff hms
  refine ⟨fun m hm n hn => Derive.qualifiedName_eq_iff hms hm hn, hnames, ?_, ?_⟩
  · intro w
    constructor
    · exact World.namesApart_of_get?_loadAll hms
    · intro h m hm
      exact w.get?_loadAll (hnames.mpr h) hm
  · intro settings files hfiles
    exact Derive.nodup_paths_iff hms hfiles

end Derived

/-! ## Namesakes as a sample

Two classes whose names differ in the suffix only. -/

namespace Sample

def userId : RepresenterId := ⟨typeNamed ⟨"UserRepresenter", by decide⟩⟩

def user : Descriptor where
  representer := userId
  model := typeNamed ⟨"User", by decide⟩

/-- A model that represents itself. Its mapper has the name of the user's mapper. -/
def namesake : Descriptor where
  representer := ⟨typeNamed ⟨"User", by decide⟩⟩
  model := typeNamed ⟨"User", by decide⟩
  skipSerialize := true

def team : Descriptor where
  representer := ⟨typeNamed ⟨"TeamRepresenter", by decide⟩⟩
  model := typeNamed ⟨"Team", by decide⟩

/-- The lead of a team, who is represented as a user. -/
def lead : AttributeMapping where
  model := { name := ⟨"lead", by decide⟩, type := none }
  wire := { name := ⟨"lead", by decide⟩, type := none }
  embedded := false
  conversion := .single userId

/-- A team with its lead, beside other descriptors. -/
def teamWith (others : List Descriptor) (h : ((team :: others).map (·.representer)).Nodup) :
    Registry where
  registrations := (team :: others).map fun d => ⟨d, false⟩
  additions := [(team.representer, lead)]
  distinct := by simpa [Function.comp_def, Registration.id] using h

def teams : Registry := teamWith [user] (by decide)

def namesakes : Registry := teamWith [user, namesake] (by decide)

def mappersOf (reg : Registry) : List Mapper :=
  reg.localDescriptors.map fun d => (Derive.planned reg {} d).toMapper

theorem mapperNames_teams : teams.deriveAll {} = .ok (mappersOf teams) ∧
    ∀ w : World, ∀ m ∈ mappersOf teams,
      (w.loadAll (mappersOf teams)).mappers.get? m.type.qualifiedName = some m := by
  have hms : teams.deriveAll {} = .ok (mappersOf teams) := rfl
  have happart : teams.NamesApart {} := by decide
  exact ⟨hms, fun w => ((mapperNames_identify hms).2.2.1 w).mpr happart⟩

/-- The mapper that is derived for the namesake takes the place of the user's, in worlds and in
files. -/
theorem mapperNames_namesakes :
    namesakes.deriveAll {} = .ok (mappersOf namesakes) ∧
      ∃ m ∈ mappersOf namesakes, ∃ n ∈ mappersOf namesakes, m.representer ≠ n.representer ∧
        m.type.qualifiedName = n.type.qualifiedName ∧
        (World.loadAll {} (mappersOf namesakes)).mappers.get? m.type.qualifiedName = some n ∧
        ∃ files, Mapper.javaFiles {} (mappersOf namesakes) = .ok files ∧
          ¬ (files.map (·.path)).Nodup := by
  have hmappers : mappersOf namesakes = [(Derive.planned namesakes {} team).toMapper,
    (Derive.planned namesakes {} user).toMapper,
    (Derive.planned namesakes {} namesake).toMapper] := rfl
  have hderive : namesakes.deriveAll {} = .ok (mappersOf namesakes) := rfl
  have htype : (Derive.planned namesakes {} user).toMapper.type =
      (Derive.planned namesakes {} namesake).toMapper.type := by decide
  have hlibrary : ∃ library, Java.Library.ofPackage ({} : JavaSettings).runtimePackage =
      .ok library := ⟨_, rfl⟩
  obtain ⟨library, hlibrary⟩ := hlibrary
  obtain ⟨files, hfiles⟩ := Mapper.exists_javaFiles hlibrary (mappersOf namesakes)
  refine ⟨hderive, (Derive.planned namesakes {} user).toMapper, by simp [hmappers],
    (Derive.planned namesakes {} namesake).toMapper, by simp [hmappers], ?_, by rw [htype],
    ?_, files, hfiles, ?_⟩
  · change userId ≠ namesake.representer
    decide
  · rw [htype, hmappers]
    exact Entries.get?_insert_self _ _ _
  · rw [Mapper.map_path_of_javaFiles hfiles, hmappers]
    simp [Mapper.javaPath, htype]

end Sample

end JsonMapping
