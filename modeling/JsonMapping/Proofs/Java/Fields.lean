import JsonMapping.Proofs.Derive.Applications
import JsonMapping.Proofs.Java.Plain

/-! Constants as fields of a class. The name of a constant comes from the simple name of its helper
without the underscores, and its role from the first use of the helper. So the name of a field may
start with a digit or be empty, and a helper that supplies links and converts values too has one
field, which is declared as a links provider. The main statement, `Registry.constants_as_fields`,
says exactly when each of these is the case. -/

namespace JsonMapping

/-! ## Identifiers -/

namespace Identifier

/-- What holds of all ASCII characters holds of those of identifiers. -/
theorem of_isPart {p : Char → Prop} (h : ∀ n < 128, p (Char.ofNat n)) {c : Char}
    (hc : isPart c = true) : p c := by
  have hcode := toNat_of_isPart hc
  have := h c.toNat (by omega)
  rwa [Char.ofNat_toNat] at this

theorem isStart_iff {c : Char} (h : isPart c = true) : isStart c = true ↔ c.isDigit = false :=
  of_isPart (p := fun c => isPart c = true → (isStart c = true ↔ c.isDigit = false)) (by decide) h h

/-- An identifier is made of its characters only and starts with no digit. -/
theorem isValid_iff {cs : List Char} (h : ∀ c ∈ cs, isPart c = true) :
    isValid cs = true ↔ cs ≠ [] ∧ ∀ c ∈ cs.head?, c.isDigit = false := by
  cases cs with
  | nil => simp [isValid]
  | cons c rest =>
    obtain ⟨hc, hrest⟩ := List.forall_mem_cons.mp h
    simp [isValid, isStart_iff hc, List.all_eq_true.mpr hrest]

theorem upperForm_of_isPart {c : Char} (h : isPart c = true) :
    Text.upperForm c = [c.toUpper] := by
  have hcode := toNat_of_isPart h
  exact Text.upperForm_of_isAscii (by simp [Text.isAscii]; omega)

theorem isPart_toUpper {c : Char} (h : isPart c = true) : isPart c.toUpper = true :=
  of_isPart (p := fun c => isPart c = true → isPart c.toUpper = true) (by decide) h h

theorem isDigit_toUpper {c : Char} (h : isPart c = true) : c.toUpper.isDigit = c.isDigit :=
  of_isPart (p := fun c => c.toUpper.isDigit = c.isDigit) (by decide) h

/-- Upper case keeps the characters of identifiers, digits where they are. -/
theorem upper_of_isPart {cs : List Char} (h : ∀ c ∈ cs, isPart c = true) :
    Text.upper cs = cs.map Char.toUpper := by
  rw [Text.upper, List.map_eq_flatMap]
  exact List.flatMap_congr fun c hc => upperForm_of_isPart (h c hc)

end Identifier

/-! ## Names of constants -/

namespace Derive

open Identifier

theorem exists_candidate_of_seekName (taken : List String) (base : String) (tries n : Nat) :
    ∃ k, seekName taken base tries n = candidate base k := by
  induction tries generalizing n with
  | zero => exact ⟨n, rfl⟩
  | succ tries ih =>
    rw [seekName]
    split
    · exact ih (n + 1)
    · exact ⟨n, rfl⟩

/-- A name that is found is an identifier unless it is empty or the base starts with a digit. -/
theorem isValid_freshName {base : String} (h : ∀ c ∈ base.toList, isPart c = true)
    (taken : List String) :
    isValid (freshName taken base).toList = true ↔
      freshName taken base ≠ "" ∧ ∀ c ∈ base.toList.head?, c.isDigit = false := by
  obtain ⟨k, hk⟩ := exists_candidate_of_seekName taken base taken.length 1
  have hname : freshName taken base = candidate base k := hk
  have hempty : (candidate base k).toList ≠ [] ↔ candidate base k ≠ "" := by simp
  rw [hname, ← hempty]
  by_cases hnumber : k ≤ 1
  · rw [candidate, if_pos hnumber]
    exact isValid_iff h
  · rw [candidate_of_two_le (by omega : 2 ≤ k), isValid_iff]
    · cases base.toList <;> simp
    · refine List.forall_mem_append.mpr ⟨h, List.forall_mem_cons.mpr ⟨by decide, fun c hc => ?_⟩⟩
      rw [Nat.toList_repr] at hc
      have hdigit : c.isDigit = true := Nat.isDigit_of_mem_toDigits (by decide) (by decide) hc
      simp [isPart, Char.isAlphanum, hdigit]

theorem eq_empty_of_freshName_eq_empty {taken : List String} {base : String}
    (h : freshName taken base = "") : base = "" := by
  obtain ⟨k, hk⟩ := exists_candidate_of_seekName taken base taken.length 1
  have hname : candidate base k = "" := hk.symm.trans h
  by_cases hnumber : k ≤ 1
  · rwa [candidate, if_pos hnumber] at hname
  · have htext := congrArg String.toList hname
    simp [candidate_of_two_le (by omega : 2 ≤ k)] at htext

theorem isPart_of_mem_join_split (t : JavaType) :
    ∀ c ∈ Words.join (Words.split t.simpleName.toList), isPart c = true :=
  forall_mem_intercalate (List.forall_mem_singleton.mpr rfl) <|
    Words.forall_mem_split t.simple.isPart_of_mem_text

theorem baseName_toList {use : HelperUse} (h : use.2 ≠ .linksProvider) :
    (baseName use).toList =
      (Words.join (Words.split use.1.simpleName.toList)).map Char.toUpper := by
  obtain ⟨t, role⟩ := use
  rw [← upper_of_isPart (isPart_of_mem_join_split t)]
  cases role with
  | linksProvider => exact absurd rfl h
  | serializer | deserializer | customDeserializer => exact String.toList_ofList

theorem isPart_of_mem_baseName (use : HelperUse) :
    ∀ c ∈ (baseName use).toList, isPart c = true := by
  by_cases hrole : use.2 = .linksProvider
  · obtain ⟨t, role⟩ := use
    obtain rfl : role = .linksProvider := hrole
    exact List.all_eq_true.mp (rfl : "LINKS_PROVIDER".toList.all isPart = true)
  · rw [baseName_toList hrole]
    exact List.forall_mem_map.mpr fun c hc => isPart_toUpper (isPart_of_mem_join_split use.1 c hc)

/-- The name of a constant that is no links provider starts with a digit if the simple name of its
type does, underscores aside. -/
theorem head?_baseName_isDigit {use : HelperUse} (h : use.2 ≠ .linksProvider) :
    (∀ c ∈ (baseName use).toList.head?, c.isDigit = false) ↔
      ∀ c ∈ use.1.simpleName.toList.find? (· ≠ '_'), c.isDigit = false := by
  rw [baseName_toList h, List.head?_map, Words.head?_join_split]
  cases hfirst : use.1.simpleName.toList.find? (· ≠ '_') with
  | none => simp
  | some c =>
    have hpart := use.1.simple.isPart_of_mem_text c (List.mem_of_find?_eq_some hfirst)
    simp [isDigit_toUpper hpart]

/-- Which constants are named by identifiers. -/
theorem isValid_name_iff {uses : List HelperUse} {c : Constant} (h : c ∈ constantsFor uses) :
    isValid c.name.toList = true ↔ c.role = .linksProvider ∨
      c.name ≠ "" ∧ ∀ x ∈ c.type.simpleName.toList.find? (· ≠ '_'), x.isDigit = false := by
  obtain ⟨before, -, -, -, hname⟩ := exists_first_use h
  rw [hname, isValid_freshName (isPart_of_mem_baseName _)]
  by_cases hrole : c.role = .linksProvider
  · rw [hrole]
    have hne : freshName ((constantsFor before).map (·.name)) "LINKS_PROVIDER" ≠ "" :=
      mt eq_empty_of_freshName_eq_empty (by decide)
    have hhead : ∀ x ∈ "LINKS_PROVIDER".toList.head?, x.isDigit = false := by
      rintro _ ⟨⟩
      rfl
    exact ⟨fun _ => .inl rfl, fun _ => ⟨hne, hhead⟩⟩
  · rw [head?_baseName_isDigit (show (c.type, c.role).2 ≠ .linksProvider from hrole)]
    simp [hrole]

end Derive

/-! ## Roles of constants -/

namespace Derive

variable {reg : Registry} {g : GeneratorSettings} {d : Descriptor} {c : Constant}

theorem Plan.exists_links_of_mem_helperUses {p : Plan} {t : JavaType}
    (h : (t, .linksProvider) ∈ p.helperUses) :
    p.descriptor.skipSerialize = false ∧ p.links = some t := by
  rcases List.mem_append.mp h with h | h
  · split at h
    · cases h
    rename_i hskip
    refine ⟨by simpa using hskip, ?_⟩
    rcases List.mem_append.mp h with h | h
    · simpa using h
    · obtain ⟨a, -, ha⟩ := List.mem_filterMap.mp h
      unfold Transfer.serializer? at ha
      split at ha <;> cases ha
  · split at h
    · cases h
    unfold readingUses at h
    split at h
    · cases List.mem_singleton.mp h
    · obtain ⟨a, -, ha⟩ := List.mem_filterMap.mp h
      unfold Transfer.deserializer? at ha
      split at ha <;> cases ha

/-- The constant of the links provider has that role, whatever else it is used for, and no other
constant has. -/
theorem role_eq_linksProvider_iff (h : c ∈ (planned reg g d).constants) :
    c.role = .linksProvider ↔ d.skipSerialize = false ∧ g.linksOf d = some c.type := by
  obtain ⟨before, after, huses, hnew, -⟩ := exists_first_use h
  constructor
  · intro hrole
    refine Plan.exists_links_of_mem_helperUses (p := planned reg g d) ?_
    rw [huses, hrole]
    exact List.mem_append_right _ List.mem_cons_self
  · rintro ⟨hskip, hlinks⟩
    -- the links provider is used first, so no use of its type comes before
    have hfirst : (planned reg g d).helperUses.head? = some (c.type, .linksProvider) := by
      have hdescriptor : (planned reg g d).descriptor = d := rfl
      have hplinks : (planned reg g d).links = some c.type := hlinks
      simp [Plan.helperUses, Plan.writingUses, hdescriptor, hskip, hplinks]
    rw [huses] at hfirst
    cases before with
    | nil => simpa using hfirst
    | cons use rest =>
      have hhead : use = (c.type, .linksProvider) := by simpa using hfirst
      exact absurd (by simp [hhead]) hnew

/-- Links are had from the links provider alone, in the method that writes. -/
theorem linksOf_of_mem_applications {k : MethodKind} {t : JavaType} {v context : Var}
    (h : .links t v context ∈ reg.applications g d k) : k = .toJson ∧ g.linksOf d = some t := by
  cases k with
  | toJson =>
    refine ⟨rfl, ?_⟩
    rcases List.mem_append.mp h with h | h
    · obtain ⟨u, hu, heq⟩ := Option.map_eq_some_iff.mp (Option.mem_toList.mp h)
      cases heq
      exact hu
    · obtain ⟨m, -, hm⟩ := List.mem_filterMap.mp h
      unfold AttributeMapping.encoding? at hm
      split at hm <;> cases hm
  | fromJson =>
    simp only [Registry.applications] at h
    split at h
    · cases List.mem_singleton.mp h
    · obtain ⟨m, -, hm⟩ := List.mem_filterMap.mp h
      unfold AttributeMapping.decoding? at hm
      split at hm <;> cases hm
  | toJsonCollection | fromJsonCollection => cases h

end Derive

namespace Registry

open Derive

/-- The constants of a derived mapper as fields. A constant is named by an identifier unless its
name is empty or its type's simple name starts with a digit, underscores aside; the links provider
always is. Only the constant of the descriptor's links provider is declared as one, and expressions
for links name no other constant; but an application to a value names it too where the same helper
converts a value. -/
theorem constants_as_fields {reg : Registry} {g : GeneratorSettings} {d : Descriptor}
    {m : Mapper} (h : reg.derive g d = .ok m) :
    (∀ c ∈ m.constants, Identifier.isValid c.name.toList = true ↔ c.role = .linksProvider ∨
      c.name ≠ "" ∧ ∀ x ∈ c.type.simpleName.toList.find? (· ≠ '_'), x.isDigit = false) ∧
    ∀ f ∈ m.methods, ∀ x ∈ f.applications, ∃ c ∈ m.constants, m.constant? x.helper = some c ∧
      (c.role = .linksProvider ↔ d.skipSerialize = false ∧ g.linksOf d = some c.type) ∧
      ∀ name v context, x = .links name v context → c.role = .linksProvider := by
  obtain ⟨rfl, -, -⟩ := derive_ok h
  refine ⟨fun c hc => isValid_name_iff hc, ?_⟩
  intro f hf x hx
  obtain ⟨k, hskips, rfl⟩ := Plan.mem_methods_iff.mp hf
  rw [applications_method] at hx
  obtain ⟨y, hy, rfl⟩ := List.mem_map.mp hx
  obtain ⟨c, hc, htype⟩ := constant?_constantName (helper_mem_helperTypes hskips hy)
  have hmem : c ∈ (planned reg g d).constants := List.mem_of_find?_eq_some hc
  have hrole := role_eq_linksProvider_iff hmem
  refine ⟨c, hmem, by rwa [Application.helper_map], hrole, ?_⟩
  intro name v context hlinks
  cases y with
  | apply t e => cases hlinks
  | links t v' context' =>
    obtain ⟨rfl, hlinksOf⟩ := linksOf_of_mem_applications hy
    exact hrole.mpr ⟨hskips, hlinksOf.trans (congrArg some htype.symm)⟩

end Registry

/-! ## Odd names as a sample

A links provider that writes a crest as well, and codecs of which little is left without the
underscores. -/

namespace Sample

def oddTeams : Registry := { linkingTeams with
  additions := [
    (team.representer, crestThrough northCodec (typeNamed ⟨"_1Codec", by decide⟩)),
    (team.representer,
      crestThrough (typeNamed ⟨"__", by decide⟩) (typeNamed ⟨"___", by decide⟩))] }

def oddMapper : Mapper := (Derive.planned oddTeams {} linkingTeam).toMapper

theorem constants_as_fields_oddTeams :
    oddTeams.derive {} linkingTeam = .ok oddMapper ∧
      oddMapper.constants.map (fun c => (c.name, c.role)) =
        [("LINKS_PROVIDER", .linksProvider), ("", .serializer), ("1_CODEC", .deserializer),
          ("_2", .deserializer)] ∧
      (∀ c ∈ oddMapper.constants, Identifier.isValid c.name.toList = true ↔
        c.role = .linksProvider ∨
          c.name ≠ "" ∧ ∀ x ∈ c.type.simpleName.toList.find? (· ≠ '_'), x.isDigit = false) ∧
      oddMapper.constants.map (fun c => Identifier.isValid c.name.toList) =
        [true, false, false, true] := by
  have hm : oddTeams.derive {} linkingTeam = .ok oddMapper := rfl
  obtain ⟨hnames, -⟩ := Registry.constants_as_fields hm
  exact ⟨hm, by decide +kernel, hnames, by decide +kernel⟩

/-- The deserializer named by `1_CODEC` is no field, and the serializer of the first crest is
applied by the name of the links provider. -/
theorem constants_no_fields_oddTeams :
    oddTeams.derive {} linkingTeam = .ok oddMapper ∧
      ¬ (∀ c ∈ oddMapper.constants, Identifier.isValid c.name.toList = true) ∧
      ¬ ∀ f ∈ oddMapper.methods, ∀ name e, .apply name e ∈ f.applications →
        ∀ c, oddMapper.constant? name = some c → c.role ≠ .linksProvider := by
  refine ⟨rfl, by decide +kernel, ?_⟩
  intro h
  have hmethod : (Derive.planned oddTeams {} linkingTeam).method .toJson ∈ oddMapper.methods :=
    Derive.Plan.mem_methods_iff.mpr ⟨.toJson, rfl, rfl⟩
  have hmem : .apply "LINKS_PROVIDER" (.getAttribute .value
      (crestThrough northCodec numberedCodec).model) ∈
        ((Derive.planned oddTeams {} linkingTeam).method .toJson).applications := by
    rw [Derive.applications_method]
    exact List.mem_map.mpr ⟨.apply northCodec (.getAttribute .value
      (crestThrough northCodec numberedCodec).model), .tail _ (.head _), rfl⟩
  exact h _ hmethod _ _ hmem _ rfl rfl

end Sample

end JsonMapping
