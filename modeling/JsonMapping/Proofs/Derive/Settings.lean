import JsonMapping.Proofs.Derive.Plan
import JsonMapping.Proofs.Naming.Written

/-! Settings that name mappers. Whether they do does not depend on the representer: the prefix must
be a package, and the suffix make a class of an identifier, no matter of which one. -/

namespace JsonMapping

/-! ## Dotted texts -/

theorem Text.pieces_append_left {sep : Char} {p : List Char} (h : sep ∉ p) (cs : List Char) :
    pieces sep (p ++ cs) = (p ++ (pieces sep cs).headD []) :: (pieces sep cs).tail := by
  induction p with
  | nil =>
    obtain ⟨q, qs, hpieces⟩ := List.exists_cons_of_ne_nil (pieces_ne_nil sep cs)
    simp [hpieces]
  | cons c p ih =>
    have hc : c ≠ sep := fun he => h (he ▸ List.mem_cons_self)
    have hrest := ih fun hmem => h (List.mem_cons_of_mem _ hmem)
    simp [pieces, hc, hrest]

namespace JavaType

/-- Names with dots between them. -/
def IsDotted (cs : List Char) : Prop := ∃ names, names ≠ [] ∧ dotted names = cs

theorem isDotted_iff {cs : List Char} :
    IsDotted cs ↔ ∀ piece ∈ Text.pieces '.' cs, Identifier.isValid piece = true := by
  constructor
  · rintro ⟨names, hnames, rfl⟩
    rw [pieces_dotted hnames, List.forall_mem_map]
    exact fun n _ => n.valid
  · intro h
    let names : List Identifier :=
      (Text.pieces '.' cs).attach.map fun p => ⟨String.ofList p.1, by simpa using h p.1 p.2⟩
    have htexts : names.map (fun n => n.text.toList) = Text.pieces '.' cs := by
      simp [names, Function.comp_def]
    refine ⟨names, ?_, ?_⟩
    · intro hnil
      rw [hnil] at htexts
      exact Text.pieces_ne_nil '.' cs htexts.symm
    · rw [dotted, htexts, Text.intercalate_pieces]

instance (cs : List Char) : Decidable (IsDotted cs) := decidable_of_iff _ isDotted_iff.symm

theorem isDotted_dotted {names : List Identifier} (h : names ≠ []) : IsDotted (dotted names) :=
  ⟨names, h, rfl⟩

theorem isDotted_append_cons {cs ds : List Char} :
    IsDotted (cs ++ '.' :: ds) ↔ IsDotted cs ∧ IsDotted ds := by
  simp only [isDotted_iff, Text.pieces_append, List.forall_mem_append]

/-- Behind an identifier it does not matter which one it is. -/
theorem isDotted_append_iff {cs : List Char} (h : Identifier.isValid cs = true)
    (suffix : List Char) :
    IsDotted (cs ++ suffix) ↔
      (∀ c ∈ (Text.pieces '.' suffix).headD [], Identifier.isPart c = true) ∧
        ∀ piece ∈ (Text.pieces '.' suffix).tail, Identifier.isValid piece = true := by
  have hdot : '.' ∉ cs := by
    have hmem := Identifier.not_mem_text (c := '.') (by decide) ⟨String.ofList cs, by simpa using h⟩
    simpa using hmem
  rw [isDotted_iff, Text.pieces_append_left hdot, List.forall_mem_cons]
  refine and_congr_left fun _ => ?_
  cases cs with
  | nil => cases h
  | cons c rest =>
    simp only [Identifier.isValid, Bool.and_eq_true, List.all_eq_true] at h
    simp only [List.cons_append, Identifier.isValid, h.1, Bool.true_and, List.all_append,
      Bool.and_eq_true, List.all_eq_true]
    exact and_iff_right h.2

/-- The text of a class in a package, as a message gives it. -/
def named (package className : String) : String :=
  if package.isEmpty then className else s!"{package}.{className}"

theorem ofNames_cases (package className : String) :
    (∃ t, ofNames package className = .ok t) ∨
      ofNames package className = .error (.badType (named package className)) := by
  unfold ofNames
  dsimp only
  split
  · exact .inl ⟨_, rfl⟩
  · exact .inr rfl

theorem exists_ofNames_iff {package className : String} :
    (∃ t, ofNames package className = .ok t) ↔
      (package = "" ∨ IsDotted package.toList) ∧ IsDotted className.toList := by
  constructor
  · rintro ⟨t, h⟩
    obtain ⟨rfl, rfl⟩ := ofNames_ok h
    rw [packageName_eq_empty_iff, packageName, className, String.toList_ofList,
      String.toList_ofList]
    exact ⟨(em (t.package = [])).imp_right isDotted_dotted, isDotted_dotted (by simp)⟩
  · rintro ⟨hpackage, names, hnames, hclass⟩
    obtain ⟨segments, hsegments⟩ : ∃ segments, dotted segments = package.toList := by
      rcases hpackage with rfl | ⟨segments, -, hsegments⟩
      · exact ⟨[], rfl⟩
      · exact ⟨segments, hsegments⟩
    have hread := ofNames_eq_erased (.mk segments names.dropLast (names.getLast hnames) [])
    rw [packageName, JavaType.className, JavaType.package, enclosing, simple, hsegments,
      List.dropLast_append_getLast, hclass, String.ofList_toList, String.ofList_toList] at hread
    exact ⟨_, hread⟩

end JavaType

/-! ## Settings that name mappers -/

theorem Identifier.isValid_take {cs : List Char} (h : isValid cs = true) {n : Nat} (hn : 0 < n) :
    isValid (cs.take n) = true := by
  cases cs with
  | nil => cases h
  | cons c rest =>
    obtain ⟨k, rfl⟩ := Nat.exists_eq_add_of_lt hn
    simp only [isValid, Bool.and_eq_true, List.all_eq_true] at h
    simp only [Nat.zero_add, List.take_succ_cons, isValid, Bool.and_eq_true, List.all_eq_true]
    exact ⟨h.1, fun d hd => h.2 d (List.mem_of_mem_take hd)⟩

namespace GeneratorSettings

open JavaType

/-- The prefix is a package, if it is anything at all, and the suffix makes a class of every
identifier. -/
structure NamesMappers (g : GeneratorSettings) : Prop where
  packagePrefix : g.packagePrefix = "" ∨ IsDotted g.packagePrefix.toList
  mapperSuffix : ∀ name : Identifier, IsDotted (name.text.toList ++ g.mapperSuffix.toList)

variable {g : GeneratorSettings}

theorem isDotted_suffix_iff (g : GeneratorSettings) {cs ds : List Char}
    (hcs : Identifier.isValid cs = true) (hds : Identifier.isValid ds = true) :
    IsDotted (cs ++ g.mapperSuffix.toList) ↔ IsDotted (ds ++ g.mapperSuffix.toList) := by
  rw [isDotted_append_iff hcs, isDotted_append_iff hds]

/-- One identifier tells whether the settings name mappers. -/
theorem namesMappers_iff (name : Identifier) :
    g.NamesMappers ↔ (g.packagePrefix = "" ∨ IsDotted g.packagePrefix.toList) ∧
      IsDotted (name.text.toList ++ g.mapperSuffix.toList) := by
  constructor
  · exact fun h => ⟨h.packagePrefix, h.mapperSuffix name⟩
  · rintro ⟨hstart, hsuffix⟩
    exact ⟨hstart, fun other => (g.isDotted_suffix_iff name.valid other.valid).mp hsuffix⟩

instance (g : GeneratorSettings) : Decidable g.NamesMappers :=
  decidable_of_iff _ (namesMappers_iff ⟨"_", by decide⟩).symm

/-- What is left of an identifier without the suffix is one, too. -/
theorem isValid_stem (suffix : List Char) (name : Identifier) :
    Identifier.isValid (stem suffix name.text.toList) = true := by
  unfold stem
  split
  · rename_i h
    exact Identifier.isValid_take name.valid (Nat.sub_pos_of_lt h.2)
  · exact name.valid

theorem mapperPackage_toList (g : GeneratorSettings) (package : String) :
    (g.mapperPackage package).toList =
      if g.packagePrefix = "" then package.toList
      else if package = "" then g.packagePrefix.toList
      else g.packagePrefix.toList ++ '.' :: package.toList := by
  unfold mapperPackage
  simp only [String.isEmpty_iff]
  split
  · rfl
  · split
    · rfl
    · simp [ToString.toString]

theorem mapperPackage_dotted_iff (g : GeneratorSettings) (t : JavaType) :
    (g.mapperPackage t.packageName = "" ∨ IsDotted (g.mapperPackage t.packageName).toList) ↔
      (g.packagePrefix = "" ∨ IsDotted g.packagePrefix.toList) := by
  have hpackage : t.packageName = "" ∨ IsDotted t.packageName.toList := by
    rw [packageName_eq_empty_iff, packageName, String.toList_ofList]
    exact (em (t.package = [])).imp_right isDotted_dotted
  rw [← String.toList_eq_nil_iff, mapperPackage_toList]
  by_cases hstart : g.packagePrefix = ""
  · simpa [hstart] using hpackage
  · by_cases hempty : t.packageName = ""
    · simp [hstart, hempty]
    · have hdotted := hpackage.resolve_left hempty
      simp [hstart, hempty, isDotted_append_cons, hdotted]

/-- The text of the mapper's name, whether or not it is one. -/
def mapperText (g : GeneratorSettings) (id : RepresenterId) : String :=
  named (g.mapperPackage id.type.packageName)
    (String.ofList (stem g.representerSuffix.toList id.type.simpleName.toList) ++ g.mapperSuffix)

theorem exists_mapperType_iff (g : GeneratorSettings) (id : RepresenterId) :
    (∃ t, g.mapperType id = .ok t) ↔ g.NamesMappers := by
  have hstem := isValid_stem g.representerSuffix.toList id.type.simple
  rw [mapperType, exists_ofNames_iff, mapperPackage_dotted_iff, String.toList_append,
    String.toList_ofList, JavaType.simpleName, namesMappers_iff id.type.simple]
  exact and_congr_right fun _ => g.isDotted_suffix_iff hstem id.type.simple.valid

theorem mapperType_eq (g : GeneratorSettings) (id : RepresenterId) :
    g.mapperType id =
      if g.NamesMappers then .ok (g.mapperOf id) else .error (.badType (g.mapperText id)) := by
  split
  · rename_i h
    obtain ⟨t, ht⟩ := (g.exists_mapperType_iff id).mpr h
    rw [mapperOf_eq ht, ht]
  · rename_i h
    exact (ofNames_cases _ _).resolve_left fun hok => h ((g.exists_mapperType_iff id).mp hok)

end GeneratorSettings

end JsonMapping
