import JsonMapping.Proofs.Derive.Constants
import JsonMapping.Proofs.Derive.Names
import JsonMapping.Proofs.Descriptor.Document

/-! Canonical types in derived mappers. The type of a mapper does not come from a text, but it is
put together from names that do. Where the settings add lower case packages and no further classes,
it is canonical if that of the representer is, and so all types are that a plan names. -/

namespace JsonMapping

/-! ## Types of mappers -/

namespace JavaType

/-- The segments of a dotted text start with lower case letters. -/
def LowerSegments (text : String) : Prop :=
  ∀ piece ∈ Text.pieces '.' text.toList, ∀ c ∈ piece.head?, c.isLower = true

theorem lowerSegments_packageName_iff {t : JavaType} :
    LowerSegments t.packageName ↔ ∀ n ∈ t.package, startsLower n = true := by
  unfold LowerSegments
  rw [packageName, String.toList_ofList]
  by_cases hp : t.package = []
  · simp [hp, dotted, Text.pieces]
  · rw [pieces_dotted hp, List.forall_mem_map]
    refine forall₂_congr fun n _ => ?_
    obtain ⟨c, rest, hn⟩ := List.exists_cons_of_ne_nil n.text_ne_nil
    simp [startsLower, hn]

/-- A class name without dots is a single class. -/
theorem enclosing_eq_nil {t : JavaType} (h : '.' ∉ t.className.toList) : t.enclosing = [] := by
  by_contra hne
  refine h ?_
  rw [className, String.toList_ofList, dotted_append hne (by simp)]
  simp

/-- A single class in a lower case package. -/
theorem canonical_of_ofNames {package className : String} {t : JavaType}
    (h : ofNames package className = .ok t) (hpackage : LowerSegments package)
    (hclass : '.' ∉ className.toList) : t.Canonical := by
  obtain ⟨rfl, rfl⟩ := ofNames_ok h
  have herased : t.erased = t := Except.ok.inj ((ofNames_eq_erased t).symm.trans h)
  have henclosing := enclosing_eq_nil hclass
  have hlower := lowerSegments_packageName_iff.mp hpackage
  rw [← herased]
  exact ⟨hlower, by simp [henclosing], trivial⟩

end JavaType

namespace GeneratorSettings

open JavaType

/-- The settings put lower case packages in front of that of the representer, if any, and make no
further classes of its name. -/
structure Plain (g : GeneratorSettings) : Prop where
  packagePrefix : LowerSegments g.packagePrefix
  mapperSuffix : '.' ∉ g.mapperSuffix.toList

variable {g : GeneratorSettings}

theorem lowerSegments_mapperPackage {package : String} (hg : g.Plain)
    (hpackage : LowerSegments package) : LowerSegments (g.mapperPackage package) := by
  have hfront := hg.packagePrefix
  unfold LowerSegments at *
  rw [mapperPackage_toList]
  split
  · exact hpackage
  · split
    · exact hfront
    · rw [Text.pieces_append]
      exact List.forall_mem_append.mpr ⟨hfront, hpackage⟩

/-- The mapper of a canonical representer is canonical. -/
theorem canonical_mapperOf (hg : g.Plain) {r : RepresenterId} (hr : r.type.Canonical)
    (h : g.mapperType r = .ok (g.mapperOf r)) : (g.mapperOf r).Canonical := by
  have hpackage : LowerSegments r.type.packageName :=
    lowerSegments_packageName_iff.mpr hr.package
  refine canonical_of_ofNames h (lowerSegments_mapperPackage hg hpackage) ?_
  intro hdot
  rw [String.toList_append, String.toList_ofList, List.mem_append] at hdot
  rcases hdot with hdot | hdot
  · exact r.type.simple.not_mem_text (by decide) (stem_subset _ _ hdot)
  · exact hg.mapperSuffix hdot

end GeneratorSettings

/-! ## Types in a registry -/

/-- All types that the descriptors and attributes of the registry name. -/
def Registry.types (reg : Registry) : List JavaType :=
  reg.registrations.flatMap (·.descriptor.types) ++
    reg.additions.flatMap fun (owner, m) => owner.type :: m.types

namespace Registry

variable {reg : Registry}

theorem types_subset_of_resolve? {id : RepresenterId} {d : Descriptor}
    (h : reg.resolve? id = some d) : d.types ⊆ reg.types := by
  obtain ⟨r, hr, rfl⟩ := Option.map_eq_some_iff.mp h
  have hmem := List.mem_of_find?_eq_some hr
  exact fun t ht => List.mem_append_left _ (List.mem_flatMap.mpr ⟨r, hmem, ht⟩)

theorem types_subset_of_mem_attributesOf {id : RepresenterId} {m : AttributeMapping}
    (h : m ∈ reg.attributesOf id) : m.types ⊆ reg.types := by
  obtain ⟨⟨owner, m'⟩, hmem, hsome⟩ := List.mem_filterMap.mp h
  obtain ⟨-, rfl⟩ : owner = id ∧ m' = m := by simpa using hsome
  intro t ht
  exact List.mem_append_right _ (List.mem_flatMap.mpr ⟨_, hmem, List.mem_cons_of_mem _ ht⟩)

end Registry

/-! ## Types in a plan -/

namespace Derive

/-- The types that a value is converted through. -/
def Transfer.types : Transfer → List JavaType
  | .plain serializer deserializer => serializer.toList ++ deserializer.toList
  | .single mapper | .collection mapper => [mapper]

/-- All types that the attribute names are canonical. -/
structure PlannedAttribute.Canonical (a : PlannedAttribute) : Prop where
  model : ∀ t ∈ a.model.types, t.Canonical
  wire : ∀ t ∈ a.wire.types, t.Canonical
  transfer : ∀ t ∈ a.transfer.types, t.Canonical

/-- All types that the plan names are canonical. -/
structure Plan.Canonical (p : Plan) : Prop where
  representer : p.descriptor.representer.type.Canonical
  model : p.descriptor.model.Canonical
  custom : ∀ t ∈ p.descriptor.customDeserializer, t.Canonical
  mapper : p.mapper.Canonical
  links : ∀ t ∈ p.links, t.Canonical
  attributes : ∀ a ∈ p.attributes, a.Canonical
  dispatch : ∀ d ∈ p.dispatch, ∀ v ∈ d.variants, v.mapper.Canonical ∧ v.model.Canonical

variable {reg : Registry} {g : GeneratorSettings} {d : Descriptor}

theorem canonical_plannedAttribute (hg : g.Plain) {m : AttributeMapping}
    (h : ∀ t ∈ m.types, t.Canonical)
    (hnested : ∀ r ∈ m.nested?, g.mapperType r = .ok (g.mapperOf r)) :
    (plannedAttribute g m).Canonical := by
  obtain ⟨hmodel, hwire, hconversion⟩ := AttributeMapping.forall_types.mp h
  refine ⟨hmodel, hwire, ?_⟩
  change ∀ t ∈ (transferOf g m.conversion).types, t.Canonical
  cases hm : m.conversion with
  | plain serializer deserializer =>
    rw [hm] at hconversion
    exact hconversion
  | single r | collection r element =>
    rw [hm] at hconversion
    have hr : r.type.Canonical := hconversion _ List.mem_cons_self
    have hmapper := hnested r (by simp [AttributeMapping.nested?, hm])
    exact List.forall_mem_singleton.mpr (GeneratorSettings.canonical_mapperOf hg hr hmapper)

theorem canonical_planned (hg : g.Plain) (hreg : ∀ t ∈ reg.types, t.Canonical)
    (hd : ∀ t ∈ d.types, t.Canonical)
    (hown : g.mapperType d.representer = .ok (g.mapperOf d.representer))
    (hrefs : ∀ r ∈ reg.references d, Resolves reg g r) : (planned reg g d).Canonical := by
  obtain ⟨hrepresenter, hmodel, hlinks, hcustom, hdispatch⟩ := Descriptor.forall_types.mp hd
  refine ⟨hrepresenter, hmodel, hcustom, GeneratorSettings.canonical_mapperOf hg hrepresenter hown,
    ?links, ?attributes, ?dispatch⟩
  case links =>
    intro t ht
    exact hlinks t (Option.filter_eq_some_iff.mp ht).1
  case attributes =>
    refine List.forall_mem_map.mpr fun m hm => canonical_plannedAttribute hg ?_ ?_
    · exact fun t ht => hreg t (Registry.types_subset_of_mem_attributesOf hm ht)
    · exact fun r hr => (hrefs r (List.mem_append_left _ (List.mem_filterMap.mpr ⟨m, hm, hr⟩))).2
  case dispatch =>
    intro y hy
    obtain ⟨x, hx, rfl⟩ := Option.map_eq_some_iff.mp hy
    refine List.forall_mem_map.mpr fun v hv => ?_
    have href : v.representer ∈ reg.references d :=
      List.mem_append_right _ (List.mem_map_of_mem (by rwa [Descriptor.variants_eq hx]))
    obtain ⟨⟨e, he⟩, hmapper⟩ := hrefs v.representer href
    have hv' := hdispatch x hx _ (List.mem_map_of_mem hv)
    refine ⟨GeneratorSettings.canonical_mapperOf hg hv' hmapper, ?_⟩
    have hmodel := (Descriptor.forall_types.mp fun t ht =>
      hreg t (Registry.types_subset_of_resolve? he ht)).2.1
    simpa [plannedVariant, Registry.modelOf_eq he] using hmodel

/-! ## Constants -/

theorem exists_use_of_mem_declareHelper {table : List Constant} {use : HelperUse} {c : Constant}
    (h : c ∈ declareHelper table use) : c ∈ table ∨ c.type = use.1 := by
  unfold declareHelper at h
  split at h
  · exact .inl h
  · rcases List.mem_append.mp h with h | h
    · exact .inl h
    · rw [List.mem_singleton.mp h]
      exact .inr rfl

/-- Every constant is there for some use. -/
theorem exists_use_of_mem_constantsFor {uses : List HelperUse} {c : Constant}
    (h : c ∈ constantsFor uses) : ∃ use ∈ uses, c.type = use.1 := by
  have hfrom : ∀ table : List Constant, c ∈ uses.foldl declareHelper table →
      c ∈ table ∨ ∃ use ∈ uses, c.type = use.1 := by
    clear h
    induction uses with
    | nil => exact fun _ => .inl
    | cons use rest ih =>
      intro table hc
      rcases ih _ hc with hc | ⟨other, hother, heq⟩
      · exact (exists_use_of_mem_declareHelper hc).imp_right fun heq => ⟨use, by simp, heq⟩
      · exact .inr ⟨other, List.mem_cons_of_mem _ hother, heq⟩
  exact (hfrom [] h).resolve_left List.not_mem_nil

theorem Transfer.mem_types_of_serializer? {x : Transfer} {use : HelperUse}
    (h : x.serializer? = some use) : use.1 ∈ x.types := by
  unfold serializer? at h
  split at h <;> cases h
  exact List.mem_append_left _ (by simp)

theorem Transfer.mem_types_of_deserializer? {x : Transfer} {use : HelperUse}
    (h : x.deserializer? = some use) : use.1 ∈ x.types := by
  unfold deserializer? at h
  split at h <;> cases h
  exact List.mem_append_right _ (by simp)

theorem canonical_constants {p : Plan} (h : p.Canonical) :
    ∀ c ∈ p.constants, c.type.Canonical := by
  have hwriting : ∀ use ∈ p.writingUses, use.1.Canonical := by
    intro use huse
    rcases List.mem_append.mp huse with huse | huse
    · obtain ⟨t, ht, rfl⟩ := Option.map_eq_some_iff.mp (Option.mem_toList.mp huse)
      exact h.links t ht
    · obtain ⟨a, ha, hser⟩ := List.mem_filterMap.mp huse
      have hmem : a ∈ p.attributes :=
        (List.mem_append.mp ha).elim List.mem_of_mem_filter List.mem_of_mem_filter
      exact (h.attributes a hmem).transfer _ (Transfer.mem_types_of_serializer? hser)
  have hreading : ∀ use ∈ p.readingUses, use.1.Canonical := by
    intro use huse
    unfold Plan.readingUses at huse
    split at huse
    · rename_i t ht
      rw [List.mem_singleton.mp huse]
      exact h.custom t ht
    · obtain ⟨a, ha, hdes⟩ := List.mem_filterMap.mp huse
      exact (h.attributes a ha).transfer _ (Transfer.mem_types_of_deserializer? hdes)
  intro c hc
  obtain ⟨use, huse, heq⟩ := exists_use_of_mem_constantsFor hc
  rw [heq]
  rcases List.mem_append.mp huse with huse | huse
  · split at huse
    · cases huse
    · exact hwriting use huse
  · split at huse
    · cases huse
    · exact hreading use huse

end Derive

end JsonMapping
