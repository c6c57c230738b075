import JsonMapping.Proofs.Derive.Faults
import JsonMapping.Proofs.Derive.Names

/-! What a mapper depends on: its own descriptor and attributes, which of the representers that
these refer to are registered, and the models of its variants. So registries that agree on this give
the same mapper or the same fault, whatever else they hold, in whatever order, and whether or not a
descriptor is external. The main statement is `derive_depends_on_slice`. -/

namespace JsonMapping

open Derive

namespace Registry

/-- The registries agree on what the mapper of the representer depends on. -/
structure SameSlice (reg reg' : Registry) (id : RepresenterId) : Prop where
  descriptor : reg.resolve? id = reg'.resolve? id
  attributes : reg.attributesOf id = reg'.attributesOf id
  registered : ∀ d, reg.resolve? id = some d →
    ∀ r ∈ reg.references d, reg.contains r = reg'.contains r
  models : ∀ d, reg.resolve? id = some d → ∀ v ∈ d.variants,
    (reg.resolve? v.representer).map (·.model) = (reg'.resolve? v.representer).map (·.model)

variable {reg reg' : Registry} {g : GeneratorSettings} {id : RepresenterId} {d : Descriptor}

/-! ## Plans and faults -/

theorem planned_congr
    (hattributes : reg.attributesOf d.representer = reg'.attributesOf d.representer)
    (hmodels : ∀ v ∈ d.variants, reg.modelOf v.representer = reg'.modelOf v.representer) :
    planned reg g d = planned reg' g d := by
  have hdispatch : d.dispatch.map (plannedDispatch reg g) =
      d.dispatch.map (plannedDispatch reg' g) := by
    cases hx : d.dispatch with
    | none => rfl
    | some x =>
      rw [Descriptor.variants_eq hx] at hmodels
      have hvariants : x.variants.map (plannedVariant reg g) =
          x.variants.map (plannedVariant reg' g) := by
        refine List.map_congr_left fun v hv => ?_
        rw [plannedVariant, plannedVariant, hmodels v hv]
      rw [Option.map_some, Option.map_some, plannedDispatch, plannedDispatch, hvariants]
  rw [planned, planned, hattributes, hdispatch]

theorem firstVariantFault?_congr {source : RepresenterId} {before vs : List Variant}
    (h : ∀ v ∈ vs, reg.contains v.representer = reg'.contains v.representer) :
    reg.firstVariantFault? source before vs = reg'.firstVariantFault? source before vs := by
  induction vs generalizing before with
  | nil => rfl
  | cons v rest ih =>
    rw [List.forall_mem_cons] at h
    rw [firstVariantFault?_cons, firstVariantFault?_cons, ih h.2, variantFault?, variantFault?, h.1]

theorem findSome?_nestedFault?_congr {source : RepresenterId} {ms : List AttributeMapping}
    (h : ∀ r ∈ ms.filterMap (·.nested?), reg.contains r = reg'.contains r) :
    ms.findSome? (reg.nestedFault? source) = ms.findSome? (reg'.nestedFault? source) := by
  induction ms with
  | nil => rfl
  | cons m rest ih =>
    have hm : reg.nestedFault? source m = reg'.nestedFault? source m := by
      unfold nestedFault?
      cases hr : m.nested? with
      | none => rfl
      | some r => rw [Option.filter_some, Option.filter_some, h r (by simp [hr])]
    have hrest := ih fun r hr => h r (by
      obtain ⟨n, hn, hr⟩ := List.mem_filterMap.mp hr
      exact List.mem_filterMap.mpr ⟨n, List.mem_cons_of_mem _ hn, hr⟩)
    rw [List.findSome?_cons, List.findSome?_cons, hm, hrest]

theorem fault?_congr (hid : reg.contains d.representer = reg'.contains d.representer)
    (hattributes : reg.attributesOf d.representer = reg'.attributesOf d.representer)
    (hregistered : ∀ r ∈ reg.references d, reg.contains r = reg'.contains r) :
    reg.fault? g d = reg'.fault? g d := by
  obtain ⟨hnested, hvariants⟩ := List.forall_mem_append.mp hregistered
  unfold fault?
  rw [hid, findSome?_nestedFault?_congr hnested, hattributes,
    firstVariantFault?_congr (List.forall_mem_map.mp hvariants)]

/-- Registries that agree on the slice of a representer give the same mapper or the same fault. -/
theorem SameSlice.deriveId_eq (h : reg.SameSlice reg' id) (g : GeneratorSettings) :
    reg.deriveId g id = reg'.deriveId g id := by
  unfold deriveId resolve
  rw [← h.descriptor]
  cases hd : reg.resolve? id with
  | none => rfl
  | some d =>
    obtain rfl := representer_of_resolve? hd
    have hid : reg.contains d.representer = reg'.contains d.representer := by
      rw [contains_eq, contains_eq, h.descriptor]
    have hmodels : ∀ v ∈ d.variants, reg.modelOf v.representer = reg'.modelOf v.representer := by
      intro v hv
      rw [modelOf, modelOf, h.models d hd v hv]
    rw [ok_bind, ok_bind, derive_eq_okUnless, derive_eq_okUnless,
      planned_congr h.attributes hmodels, fault?_congr hid h.attributes (h.registered d hd)]

/-! ## Additions -/

theorem sameSlice_addAttribute {owner : RepresenterId} (h : owner ≠ id) (m : AttributeMapping) :
    reg.SameSlice (reg.addAttribute owner m) id where
  descriptor := rfl
  attributes := by simp [attributesOf, addAttribute, h]
  registered _ _ _ _ := rfl
  models _ _ _ _ := rfl

/-- A new id goes behind what is there. -/
theorem insert_of_none (external : Bool) (h : reg.registration? d.representer = none) :
    ∃ added, (insert d external).run reg = .ok () added ∧
      added.registrations = reg.registrations ++ [⟨d, external⟩] ∧
      added.additions = reg.additions := by
  unfold EStateM.run insert
  split
  · rename_i r hr
    rw [h] at hr
    cases hr
  · exact ⟨_, rfl, rfl, rfl⟩

/-- Where the id is there already, the registry that is left is the same. -/
theorem insert_of_some {r : Registration} (external : Bool)
    (h : reg.registration? d.representer = some r) :
    (insert d external).run reg = if r.descriptor.model = d.model then .ok () reg
      else .error (.conflictingRegistration d.representer r.descriptor.model d.model) reg := by
  unfold EStateM.run insert
  split
  · rename_i found hfound
    obtain rfl := Option.some.inj (h.symm.trans hfound)
    rfl
  · rename_i hnone
    rw [h] at hnone
    cases hnone

theorem changed_of_ok {change : EStateM MappingError Registry Unit}
    (h : change.run reg = .ok () reg') : reg.changed change = .ok reg' := by
  rw [changed, h]

theorem changed_of_error {change : EStateM MappingError Registry Unit} {e : MappingError}
    (h : change.run reg = .error e reg') : reg.changed change = .error e := by
  rw [changed, h]

theorem register_of_none (external : Bool) (h : reg.registration? d.representer = none) :
    ∃ added, reg.register d external = .ok added ∧
      added.registrations = reg.registrations ++ [⟨d, external⟩] ∧
      added.additions = reg.additions := by
  obtain ⟨added, hok, hadded⟩ := insert_of_none external h
  exact ⟨added, changed_of_ok hok, hadded⟩

theorem register_of_some {r : Registration} (external : Bool)
    (h : reg.registration? d.representer = some r) :
    reg.register d external = if r.descriptor.model = d.model then .ok reg
      else .error (.conflictingRegistration d.representer r.descriptor.model d.model) := by
  have hrun := insert_of_some external h
  by_cases hmodel : r.descriptor.model = d.model
  · rw [if_pos hmodel] at hrun ⊢
    exact changed_of_ok hrun
  · rw [if_neg hmodel] at hrun ⊢
    exact changed_of_error hrun

/-- A registration adds what is new, or it changes nothing. -/
theorem register_cases {external : Bool} (h : reg.register d external = .ok reg') :
    (reg.contains d.representer = false ∧
        reg'.registrations = reg.registrations ++ [⟨d, external⟩] ∧
        reg'.additions = reg.additions) ∨
      reg' = reg := by
  cases hfound : reg.registration? d.representer with
  | none =>
    obtain ⟨added, hok, hadded⟩ := register_of_none external hfound
    obtain rfl := Except.ok.inj (hok.symm.trans h)
    exact .inl ⟨by simp [contains, hfound], hadded⟩
  | some r =>
    rw [register_of_some external hfound] at h
    split at h <;> cases h
    exact .inr rfl

/-- Another registration is found under its own id only. -/
theorem resolve?_register_of_ne {external : Bool} (h : reg.register d external = .ok reg')
    (hne : d.representer ≠ id) : reg'.resolve? id = reg.resolve? id := by
  rcases register_cases h with ⟨-, hregistrations, -⟩ | rfl
  · simp [resolve?, registration?, hregistrations, List.find?_append, Registration.id, hne]
  · rfl

theorem attributesOf_register {external : Bool} (h : reg.register d external = .ok reg') :
    reg'.attributesOf id = reg.attributesOf id := by
  rcases register_cases h with ⟨-, -, hadditions⟩ | rfl
  · rw [attributesOf, hadditions, attributesOf]
  · rfl

/-- What is registered is not changed by another registration. -/
theorem resolve?_register_of_contains {external : Bool} (h : reg.register d external = .ok reg')
    (hid : reg.contains id = true) : reg'.resolve? id = reg.resolve? id := by
  rcases register_cases h with ⟨hnew, -⟩ | rfl
  · refine resolve?_register_of_ne h ?_
    rintro rfl
    rw [hnew] at hid
    cases hid
  · rfl

theorem sameSlice_of_resolve?_eq (hid : reg'.resolve? id = reg.resolve? id)
    (hattributes : reg'.attributesOf id = reg.attributesOf id)
    (h : ∀ d, reg.resolve? id = some d → ∀ r ∈ reg.references d, reg'.resolve? r = reg.resolve? r) :
    reg.SameSlice reg' id where
  descriptor := hid.symm
  attributes := hattributes.symm
  registered d hd r hr := by rw [contains_eq, contains_eq, h d hd r hr]
  models d hd v hv := by
    rw [h d hd v.representer (List.mem_append_right _ (List.mem_map_of_mem hv))]

/-- A mapper that is derived stays the same whatever is registered later. -/
theorem deriveId_register_of_ok {external : Bool} (h : reg.register d external = .ok reg')
    {m : Mapper} (hm : reg.deriveId g id = .ok m) : reg'.deriveId g id = .ok m := by
  have hslice : reg.SameSlice reg' id := by
    rw [deriveId] at hm
    obtain ⟨e, he, hderive⟩ := bind_eq_ok.mp hm
    have he : reg.resolve? id = some e := by
      unfold resolve at he
      split at he <;> simp_all
    obtain ⟨-, -, hresolves⟩ := derive_ok hderive
    have hkept : ∀ r, reg.contains r = true → reg'.resolve? r = reg.resolve? r :=
      fun r => resolve?_register_of_contains h
    refine sameSlice_of_resolve?_eq (hkept id (by simp [contains_eq, he]))
      (attributesOf_register h) fun e' he' r hr => hkept r ?_
    obtain rfl := Option.some.inj (he.symm.trans he')
    obtain ⟨⟨e'', he''⟩, -⟩ := hresolves r hr
    simp [contains_eq, he'']
  rw [← hslice.deriveId_eq, hm]

theorem deriveId_register_of_ne {external : Bool} (h : reg.register d external = .ok reg')
    (hid : d.representer ≠ id)
    (hreferences : ∀ e, reg.resolve? id = some e → d.representer ∉ reg.references e) :
    reg'.deriveId g id = reg.deriveId g id := by
  have hslice : reg.SameSlice reg' id :=
    sameSlice_of_resolve?_eq (resolve?_register_of_ne h hid) (attributesOf_register h)
      fun e he r hr => resolve?_register_of_ne h fun heq => hreferences e he (heq ▸ hr)
  exact (hslice.deriveId_eq g).symm

end Registry

/-! ## Sets with distinct ids -/

def DescriptorEntry.id (e : DescriptorEntry) : RepresenterId := e.descriptor.representer

namespace Registry

/-- What the entries register and add, one after the other. -/
def entryRegistrations (es : List DescriptorEntry) : List Registration :=
  es.map fun e => ⟨e.descriptor, e.external⟩

def entryAdditions (es : List DescriptorEntry) : List (RepresenterId × AttributeMapping) :=
  es.flatMap fun e => e.attributes.map (e.id, ·)

theorem foldl_addAttribute (reg : Registry) (owner : RepresenterId) (ms : List AttributeMapping) :
    (ms.foldl (·.addAttribute owner ·) reg).registrations = reg.registrations ∧
      (ms.foldl (·.addAttribute owner ·) reg).additions =
        reg.additions ++ ms.map (owner, ·) := by
  induction ms generalizing reg with
  | nil => simp
  | cons m rest ih =>
    obtain ⟨hregistrations, hadditions⟩ := ih (reg.addAttribute owner m)
    rw [List.foldl_cons, hregistrations, hadditions]
    simp [addAttribute]

/-- An entry with a new id is added behind what is there. -/
theorem addEntry_of_not_contains {reg : Registry} {e : DescriptorEntry}
    (h : e.id ∉ reg.registrations.map Registration.id) :
    ∃ reg', reg.addEntry e = .ok reg' ∧
      reg'.registrations = reg.registrations ++ [⟨e.descriptor, e.external⟩] ∧
      reg'.additions = reg.additions ++ e.attributes.map (e.id, ·) := by
  have hnone : reg.registration? e.descriptor.representer = none := registration?_eq_none_iff.mpr h
  obtain ⟨added, hok, hregistrations, hadditions⟩ := register_of_none e.external hnone
  obtain ⟨hkept, hmore⟩ := foldl_addAttribute added e.id e.attributes
  refine ⟨_, ?_, hkept.trans hregistrations, hmore.trans (by rw [hadditions])⟩
  rw [addEntry, hok]
  rfl

theorem foldlM_addEntry (reg : Registry) {es : List DescriptorEntry}
    (h : (reg.registrations.map Registration.id ++ es.map DescriptorEntry.id).Nodup) :
    ∃ reg', es.foldlM addEntry reg = .ok reg' ∧
      reg'.registrations = reg.registrations ++ entryRegistrations es ∧
      reg'.additions = reg.additions ++ entryAdditions es := by
  induction es generalizing reg with
  | nil => exact ⟨reg, rfl, by simp [entryRegistrations], by simp [entryAdditions]⟩
  | cons e rest ih =>
    have hnew : e.id ∉ reg.registrations.map Registration.id := fun hmem =>
      (List.nodup_append.mp h).2.2 _ hmem e.id (by simp) rfl
    obtain ⟨added, hok, hregistrations, hadditions⟩ := addEntry_of_not_contains hnew
    have hrest : (added.registrations.map Registration.id ++
        rest.map DescriptorEntry.id).Nodup := by
      rw [hregistrations, List.map_append, List.append_assoc]
      exact h
    obtain ⟨reg', hfold, hall, hmore⟩ := ih added hrest
    refine ⟨reg', ?_, ?_, ?_⟩
    · rw [List.foldlM_cons, hok, ok_bind, hfold]
    · rw [hall, hregistrations]
      simp [entryRegistrations]
    · rw [hmore, hadditions]
      simp [entryAdditions]

/-- A set with distinct ids makes a registry of just its entries. -/
theorem exists_ofSet {set : DescriptorSet} (h : (set.entries.map DescriptorEntry.id).Nodup) :
    ∃ reg, ofSet set = .ok reg ∧ reg.registrations = entryRegistrations set.entries ∧
      reg.additions = entryAdditions set.entries :=
  foldlM_addEntry empty h

section Entries

variable {reg reg' : Registry} {es es' : List DescriptorEntry}

theorem localDescriptors_of_entries (h : reg.registrations = entryRegistrations es) :
    reg.localDescriptors = (es.filter (!·.external)).map (·.descriptor) := by
  rw [localDescriptors, h, entryRegistrations, List.filter_map, List.map_map]
  rfl

theorem filterMap_entryAdditions_of_not_mem {id : RepresenterId}
    (h : id ∉ es.map DescriptorEntry.id) :
    (entryAdditions es).filterMap (fun (owner, m) => if owner = id then some m else none) = [] := by
  rw [List.filterMap_eq_nil_iff]
  rintro ⟨owner, m⟩ hmem
  obtain ⟨e, he, hmem⟩ := List.mem_flatMap.mp hmem
  obtain ⟨_, _, hpair⟩ := List.mem_map.mp hmem
  obtain ⟨rfl, -⟩ := Prod.mk.inj hpair
  have hne : e.id ≠ id := fun heq => h (heq ▸ List.mem_map_of_mem he)
  simp [hne]

/-- Where ids are distinct, the attributes of an entry are its own. -/
theorem attributesOf_of_entries (h : reg.additions = entryAdditions es)
    (hnodup : (es.map DescriptorEntry.id).Nodup) {e : DescriptorEntry} (he : e ∈ es) :
    reg.attributesOf e.id = e.attributes := by
  rw [attributesOf, h]
  clear h
  induction es with
  | nil => cases he
  | cons first rest ih =>
    obtain ⟨hfirst, hrest⟩ := List.nodup_cons.mp hnodup
    have hcons : entryAdditions (first :: rest) =
        first.attributes.map (first.id, ·) ++ entryAdditions rest := rfl
    rw [hcons, List.filterMap_append]
    rcases List.mem_cons.mp he with rfl | hmem
    · rw [filterMap_entryAdditions_of_not_mem hfirst]
      simp [List.filterMap_map]
    · have hne : first.id ≠ e.id := fun heq => hfirst (heq ▸ List.mem_map_of_mem hmem)
      rw [ih hrest hmem]
      simp [hne, List.filterMap_map]

theorem registration?_perm (h : reg.registrations.Perm reg'.registrations) (id : RepresenterId) :
    reg.registration? id = reg'.registration? id := by
  cases hr : reg.registration? id with
  | none =>
    rw [registration?_eq_none_iff, (h.map Registration.id).mem_iff] at hr
    exact (registration?_eq_none_iff.mpr hr).symm
  | some r =>
    have hid : r.id = id := by simpa using List.find?_some hr
    have hmem := h.mem_iff.mp (List.mem_of_find?_eq_some hr)
    rw [← hid, registration?_eq_some hmem]

/-- The order of the entries does not matter. -/
theorem sameSlice_of_perm (hperm : es.Perm es') (hnodup : (es.map DescriptorEntry.id).Nodup)
    (hregistrations : reg.registrations = entryRegistrations es)
    (hadditions : reg.additions = entryAdditions es)
    (hregistrations' : reg'.registrations = entryRegistrations es')
    (hadditions' : reg'.additions = entryAdditions es') {e : DescriptorEntry} (he : e ∈ es) :
    reg.SameSlice reg' e.id := by
  have hresolve : ∀ id, reg'.resolve? id = reg.resolve? id := by
    intro id
    have hregs : reg.registrations.Perm reg'.registrations := by
      rw [hregistrations, hregistrations']
      exact hperm.map _
    rw [resolve?, resolve?, registration?_perm hregs]
  have hnodup' := (hperm.map DescriptorEntry.id).nodup_iff.mp hnodup
  have hattributes : reg'.attributesOf e.id = reg.attributesOf e.id := by
    rw [attributesOf_of_entries hadditions hnodup he,
      attributesOf_of_entries hadditions' hnodup' (hperm.mem_iff.mp he)]
  exact sameSlice_of_resolve?_eq (hresolve _) hattributes fun _ _ r _ => hresolve r

theorem resolve?_of_entries (h : reg.registrations = entryRegistrations es) {e : DescriptorEntry}
    (he : e ∈ es) : reg.resolve? e.id = some e.descriptor := by
  have hmem : (⟨e.descriptor, e.external⟩ : Registration) ∈ reg.registrations := by
    rw [h]
    exact List.mem_map_of_mem he
  have hfind := registration?_eq_some hmem
  rw [resolve?]
  exact congrArg (Option.map (·.descriptor)) hfind

theorem deriveId_of_entries (h : reg.registrations = entryRegistrations es) {e : DescriptorEntry}
    (he : e ∈ es) (g : GeneratorSettings) : reg.deriveId g e.id = reg.derive g e.descriptor := by
  rw [deriveId, resolve, resolve?_of_entries h he, ok_bind]

/-- Where all mappers of the entries are derived in one order, the same are in any other. -/
theorem deriveAll_perm {g : GeneratorSettings} (hperm : es.Perm es')
    (hregistrations : reg.registrations = entryRegistrations es)
    (hregistrations' : reg'.registrations = entryRegistrations es')
    (hsame : ∀ e ∈ es, reg'.deriveId g e.id = reg.deriveId g e.id) {ms : List Mapper}
    (hms : reg.deriveAll g = .ok ms) :
    ∃ f : DescriptorEntry → Mapper,
      (∀ e ∈ es.filter (!·.external), reg.deriveId g e.id = .ok (f e)) ∧
      ms = (es.filter (!·.external)).map f ∧
      reg'.deriveAll g = .ok ((es'.filter (!·.external)).map f) := by
  have hlocal := localDescriptors_of_entries hregistrations
  have hderived : ∀ e ∈ es.filter (!·.external),
      reg.deriveId g e.id = .ok (planned reg g e.descriptor).toMapper := by
    intro e he
    have hd : e.descriptor ∈ reg.localDescriptors := hlocal ▸ List.mem_map_of_mem he
    rw [deriveId_of_entries hregistrations (List.mem_filter.mp he).1, derive_eq hms hd]
  refine ⟨fun e => (planned reg g e.descriptor).toMapper, hderived, ?_, ?_⟩
  · rw [(deriveAll_ok hms).1, hlocal, List.map_map]
    rfl
  · -- each of the mappers is found by its id in the other registry, too
    rw [deriveAll, localDescriptors_of_entries hregistrations', List.mapM_map]
    have hall : ∀ e ∈ es'.filter (!·.external),
        reg'.derive g e.descriptor = pure (planned reg g e.descriptor).toMapper := by
      intro e he
      have hmem := (hperm.filter _).mem_iff.mpr he
      rw [← deriveId_of_entries hregistrations' (List.mem_filter.mp he).1,
        hsame e (List.mem_filter.mp hmem).1, hderived e hmem, pure_eq_ok]
    exact (mapM_congr_mem hall).trans List.mapM_pure

end Entries

end Registry

open Registry in
/-- A mapper depends on no more than the slice of its representer. So the entries of a set may come
in any order, and what is added for others changes nothing. -/
theorem derive_depends_on_slice (g : GeneratorSettings) :
    (∀ (reg reg' : Registry) (id : RepresenterId), reg.SameSlice reg' id →
      reg.deriveId g id = reg'.deriveId g id) ∧
    (∀ set set' : DescriptorSet, (set.entries.map DescriptorEntry.id).Nodup →
      set.entries.Perm set'.entries →
      ∃ reg reg', ofSet set = .ok reg ∧ ofSet set' = .ok reg' ∧
        (∀ e ∈ set.entries, reg'.deriveId g e.id = reg.deriveId g e.id) ∧
        ∀ ms, reg.deriveAll g = .ok ms → ∃ f : DescriptorEntry → Mapper,
          (∀ e ∈ set.entries.filter (!·.external), reg.deriveId g e.id = .ok (f e)) ∧
          ms = (set.entries.filter (!·.external)).map f ∧
          reg'.deriveAll g = .ok ((set'.entries.filter (!·.external)).map f)) ∧
    (∀ (reg : Registry) (owner id : RepresenterId) (m : AttributeMapping), owner ≠ id →
      (reg.addAttribute owner m).deriveId g id = reg.deriveId g id) ∧
    ∀ (reg reg' : Registry) (d : Descriptor) (external : Bool) (id : RepresenterId),
      reg.register d external = .ok reg' →
      (d.representer ≠ id → (∀ e, reg.resolve? id = some e → d.representer ∉ reg.references e) →
        reg'.deriveId g id = reg.deriveId g id) ∧
      ∀ m, reg.deriveId g id = .ok m → reg'.deriveId g id = .ok m := by
  refine ⟨fun reg reg' id h => h.deriveId_eq g, ?_, ?_, ?_⟩
  · intro set set' hnodup hperm
    obtain ⟨reg, hreg, hregistrations, hadditions⟩ := exists_ofSet hnodup
    obtain ⟨reg', hreg', hregistrations', hadditions'⟩ :=
      exists_ofSet ((hperm.map DescriptorEntry.id).nodup_iff.mp hnodup)
    have hsame : ∀ e ∈ set.entries, reg'.deriveId g e.id = reg.deriveId g e.id := by
      intro e he
      have hslice := sameSlice_of_perm hperm hnodup hregistrations hadditions hregistrations'
        hadditions' he
      exact (hslice.deriveId_eq g).symm
    exact ⟨reg, reg', hreg, hreg', hsame,
      fun ms => deriveAll_perm hperm hregistrations hregistrations' hsame⟩
  · intro reg owner id m h
    exact ((sameSlice_addAttribute h m).deriveId_eq g).symm
  · intro reg reg' d external id h
    exact ⟨deriveId_register_of_ne h, fun m => deriveId_register_of_ok h⟩

namespace Sample

def teamEntry : DescriptorEntry := ⟨team, [lead], false⟩

def userEntry : DescriptorEntry := ⟨user, [], false⟩

/-- The team and its lead in either order, and what a namesake of the lead is to the team. -/
theorem derive_depends_on_slice_teams :
    (teams.SameSlice namesakes team.representer ∧
      teams.deriveId {} team.representer = namesakes.deriveId {} team.representer) ∧
    (([teamEntry, userEntry].map DescriptorEntry.id).Nodup ∧
      [teamEntry, userEntry].Perm [userEntry, teamEntry] ∧
      ∃ reg reg', Registry.ofSet ⟨[teamEntry, userEntry]⟩ = .ok reg ∧
        Registry.ofSet ⟨[userEntry, teamEntry]⟩ = .ok reg' ∧
        ∃ f : DescriptorEntry → Mapper, reg.deriveAll {} = .ok [f teamEntry, f userEntry] ∧
          reg'.deriveAll {} = .ok [f userEntry, f teamEntry]) ∧
    (userId ≠ team.representer ∧
      (teams.addAttribute userId label).deriveId {} team.representer =
        teams.deriveId {} team.representer) ∧
    ∃ reg, teams.register namesake true = .ok reg ∧ namesake.representer ≠ team.representer ∧
      (∀ e, teams.resolve? team.representer = some e →
        namesake.representer ∉ teams.references e) ∧
      reg.deriveId {} team.representer = teams.deriveId {} team.representer ∧
      ∃ m, teams.deriveId {} team.representer = .ok m ∧
        reg.deriveId {} team.representer = .ok m := by
  obtain ⟨hslice, hperm, hattribute, hregister⟩ := derive_depends_on_slice {}
  have hresolve : teams.resolve? team.representer = some team := rfl
  have hsame : teams.SameSlice namesakes team.representer := {
    descriptor := rfl
    attributes := rfl
    registered := by
      intro e he
      obtain rfl := Option.some.inj (hresolve.symm.trans he)
      decide
    models := by
      intro e he
      obtain rfl := Option.some.inj (hresolve.symm.trans he)
      decide }
  have hnodup : ([teamEntry, userEntry].map DescriptorEntry.id).Nodup := by decide
  have hswap : [teamEntry, userEntry].Perm [userEntry, teamEntry] := .swap _ _ _
  have hother : userId ≠ team.representer := by decide
  refine ⟨⟨hsame, hslice _ _ _ hsame⟩, ⟨hnodup, hswap, ?_⟩, ⟨hother, hattribute _ _ _ _ hother⟩, ?_⟩
  · obtain ⟨reg, reg', hreg, hreg', -, hall⟩ := hperm ⟨_⟩ ⟨_⟩ hnodup hswap
    obtain rfl := Except.ok.inj (hreg.symm.trans rfl)
    obtain ⟨f, -, hms, hms'⟩ := hall _ rfl
    exact ⟨_, _, hreg, hreg', f, congrArg Except.ok hms, hms'⟩
  · have hunrelated : ∀ e, teams.resolve? team.representer = some e →
        namesake.representer ∉ teams.references e := by
      intro e he
      obtain rfl := Option.some.inj (hresolve.symm.trans he)
      decide
    obtain ⟨hkept, hok⟩ := hregister teams _ namesake true team.representer rfl
    exact ⟨_, rfl, by decide, hunrelated, hkept (by decide) hunrelated, _, rfl, hok _ rfl⟩

end Sample

end JsonMapping
