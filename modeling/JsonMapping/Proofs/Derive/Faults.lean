import JsonMapping.Proofs.Derive.Emissions
import JsonMapping.Proofs.Derive.Settings

/-! Why deriving fails. A mapper is derived exactly if its representer is registered, the settings
name mappers, and everything that the descriptor refers to is registered, with no discriminator
repeated. Otherwise the first reason in this order is reported. The main statement is
`derive_outcome`. -/

namespace JsonMapping

/-! ## The first fault -/

/-- The value, unless there is a fault. -/
def okUnless {ε α : Type} (a : α) : Option ε → Except ε α
  | some fault => .error fault
  | none => .ok a

section OkUnless

variable {ε α β : Type} {a : α} {x : Option ε}

theorem okUnless_bind_ok (b : α → β) :
    (okUnless a x >>= fun a => .ok (b a)) = okUnless (b a) x := by
  cases x <;> rfl

theorem okUnless_eq_ok {b : α} : okUnless a x = .ok b ↔ x = none ∧ a = b := by
  cases x <;> simp [okUnless]

/-- A loop ends with the first fault of an element. -/
theorem mapM_okUnless {f : α → Except ε β} {fault : α → Option ε} {g : α → β}
    (h : ∀ a, f a = okUnless (g a) (fault a)) (as : List α) :
    as.mapM f = okUnless (as.map g) (as.findSome? fault) := by
  induction as with
  | nil => rfl
  | cons a rest ih =>
    rw [List.mapM_cons, h, ih, List.findSome?_cons, List.map_cons]
    cases fault a with
    | some e => rfl
    | none => exact okUnless_bind_ok (g a :: ·)

theorem forM_okUnless {f : α → Except ε PUnit} {fault : α → Option ε}
    (h : ∀ a, f a = okUnless () (fault a)) (as : List α) :
    as.forM f = okUnless () (as.findSome? fault) := by
  induction as with
  | nil => rfl
  | cons a rest ih =>
    change (f a >>= fun _ => rest.forM f) = _
    rw [h, ih, List.findSome?_cons]
    cases fault a <;> rfl

end OkUnless

namespace Registry

/-- An attribute is at fault if it refers to a representer that is not registered. -/
def nestedFault? (reg : Registry) (source : RepresenterId) (m : AttributeMapping) :
    Option MappingError :=
  (m.nested?.filter (!reg.contains ·)).map (.unresolvedReference source)

/-- A variant behind others is at fault if it repeats one of their discriminators or, failing that,
if its representer is not registered. -/
def variantFault? (reg : Registry) (source : RepresenterId) (before : List Variant) (v : Variant) :
    Option MappingError :=
  if v.id ∈ before.map (·.id) then some (.duplicateDiscriminator source v.id)
  else if reg.contains v.representer then none
  else some (.unresolvedReference source v.representer)

/-- The first fault of the variants behind some others. -/
def firstVariantFault? (reg : Registry) (source : RepresenterId) (before vs : List Variant) :
    Option MappingError :=
  vs.zipIdx.findSome? fun p => reg.variantFault? source (before ++ vs.take p.2) p.1

/-- The first fault: that of the descriptor's own id, of the settings, of the attributes in order,
of the variants in order. -/
def fault? (reg : Registry) (g : GeneratorSettings) (d : Descriptor) : Option MappingError :=
  if !reg.contains d.representer then some (.unknownRepresenter d.representer)
  else if ¬ g.NamesMappers then some (.naming (.badType (g.mapperText d.representer)))
  else ((reg.attributesOf d.representer).findSome? (reg.nestedFault? d.representer)).or
    (reg.firstVariantFault? d.representer [] d.variants)

variable {reg : Registry} {g : GeneratorSettings} {source : RepresenterId}

theorem contains_eq (reg : Registry) (id : RepresenterId) :
    reg.contains id = (reg.resolve? id).isSome := by
  rw [contains, resolve?, Option.isSome_map]

theorem firstVariantFault?_cons (reg : Registry) (source : RepresenterId) (before : List Variant)
    (v : Variant) (rest : List Variant) :
    reg.firstVariantFault? source before (v :: rest) =
      (reg.variantFault? source before v).or
        (reg.firstVariantFault? source (before ++ [v]) rest) := by
  unfold firstVariantFault?
  have hshift : (rest.zipIdx 1).findSome?
      (fun p => reg.variantFault? source (before ++ (v :: rest).take p.2) p.1) =
      rest.zipIdx.findSome?
        (fun p => reg.variantFault? source (before ++ [v] ++ rest.take p.2) p.1) := by
    rw [List.zipIdx_succ, List.findSome?_map]
    simp [Function.comp_def]
  rw [List.zipIdx_cons, List.findSome?_cons, hshift, List.take_zero, List.append_nil]
  cases reg.variantFault? source before v <;> rfl

theorem variantFault?_eq_none_iff {before : List Variant} {v : Variant} :
    reg.variantFault? source before v = none ↔
      v.id ∉ before.map (·.id) ∧ reg.contains v.representer := by
  unfold variantFault?
  split
  · rename_i hrepeated
    simp [hrepeated]
  · rename_i hfresh
    simp [hfresh]

theorem firstVariantFault?_eq_none_iff {before vs : List Variant} :
    reg.firstVariantFault? source before vs = none ↔
      (∀ v ∈ vs, v.id ∉ before.map (·.id) ∧ reg.contains v.representer) ∧
        (vs.map (·.id)).Nodup := by
  induction vs generalizing before with
  | nil => simp [firstVariantFault?]
  | cons v rest ih =>
    rw [firstVariantFault?_cons, Option.or_eq_none_iff, variantFault?_eq_none_iff, ih,
      List.forall_mem_cons, List.map_cons, List.nodup_cons]
    rw [and_assoc (a := _ ∧ _)]
    refine and_congr_right fun _ => ?_
    constructor
    · rintro ⟨hrest, hnodup⟩
      refine ⟨fun u hu => ⟨fun hmem => (hrest u hu).1 (by simp [hmem]), (hrest u hu).2⟩, ?_, hnodup⟩
      intro hmem
      obtain ⟨u, hu, hid⟩ := List.mem_map.mp hmem
      exact (hrest u hu).1 (by simp [hid])
    · rintro ⟨hrest, hv, hnodup⟩
      refine ⟨fun u hu => ⟨?_, (hrest u hu).2⟩, hnodup⟩
      rw [List.map_append, List.mem_append, not_or]
      refine ⟨(hrest u hu).1, fun hmem => hv ?_⟩
      have hid : u.id = v.id := by simpa using hmem
      exact hid ▸ List.mem_map_of_mem hu

end Registry

namespace Derive

open Registry

variable {reg : Registry} {g : GeneratorSettings} {b : Draft} {d : Descriptor}

theorem mapperType_of_namesMappers (h : g.NamesMappers) (id : RepresenterId) :
    mapperType g id = .ok (g.mapperOf id) := by
  rw [mapperType, g.mapperType_eq, if_pos h]
  rfl

/-! ## The check of the references -/

namespace Draft

/-- The first reference of a draft that is not found, or the first repeated discriminator. -/
def fault? (b : Draft) : Option MappingError :=
  (b.attributes.findSome? (b.registry.nestedFault? b.descriptor.representer)).or
    (b.registry.firstVariantFault? b.descriptor.representer [] b.descriptor.variants)

theorem checkAttribute_eq (b : Draft) (m : AttributeMapping) : b.checkAttribute m =
    okUnless () (b.registry.nestedFault? b.descriptor.representer m) := by
  unfold checkAttribute nestedFault?
  cases m.nested? with
  | none => rfl
  | some id =>
    rw [Option.filter_some, contains_eq]
    change discard (b.resolve id) = _
    unfold resolve
    cases b.registry.resolve? id <;> rfl

theorem nestedMapper_eq (h : b.settings.NamesMappers) {id : RepresenterId}
    (hid : b.registry.contains id) : b.nestedMapper id = .ok (b.settings.mapperOf id) := by
  obtain ⟨d, hd⟩ := Option.isSome_iff_exists.mp (contains_eq b.registry id ▸ hid)
  rw [nestedMapper, resolve, hd, ok_bind, mapperType_of_namesMappers h]

theorem resolveVariants_eq (h : b.settings.NamesMappers) {seen : List String}
    {before : List Variant} (hseen : ∀ id, id ∈ seen ↔ id ∈ before.map (·.id))
    (vs : List Variant) :
    b.resolveVariants seen vs = okUnless (vs.map (plannedVariant b.registry b.settings))
      (b.registry.firstVariantFault? b.descriptor.representer before vs) := by
  induction vs generalizing seen before with
  | nil => rfl
  | cons v rest ih =>
    -- the ids that were seen stand in reverse order, and only which they are counts
    have hseen' : ∀ id, id ∈ v.id :: seen ↔ id ∈ (before ++ [v]).map (·.id) := by
      simp [hseen, or_comm]
    have hrest := ih hseen'
    rw [firstVariantFault?_cons, variantFault?, resolveVariants, hrest, resolve, contains_eq]
    by_cases hrepeated : v.id ∈ seen
    · rw [if_pos hrepeated, if_pos ((hseen _).mp hrepeated)]
      rfl
    · rw [if_neg hrepeated, if_neg (mt (hseen _).mpr hrepeated)]
      cases hresolve : b.registry.resolve? v.representer with
      | none => rfl
      | some d =>
        have hv : plannedVariant b.registry b.settings v =
            { id := v.id, mapper := b.settings.mapperOf v.representer, model := d.model } := by
          rw [plannedVariant, Registry.modelOf_eq hresolve]
        rw [nestedMapper_eq h (by simp [contains_eq, hresolve]), List.map_cons, hv]
        exact okUnless_bind_ok (List.cons _)

theorem resolveDispatch_eq (h : b.settings.NamesMappers) (x : Dispatch) :
    b.resolveDispatch x = okUnless (plannedDispatch b.registry b.settings x)
      (b.registry.firstVariantFault? b.descriptor.representer [] x.variants) := by
  unfold resolveDispatch
  have hnone : ∀ id, id ∈ ([] : List String) ↔ id ∈ ([] : List Variant).map (·.id) := by simp
  rw [resolveVariants_eq h hnone]
  exact okUnless_bind_ok fun vs => ({ x with variants := vs } : PlannedDispatch)

theorem checkDispatch_eq (h : b.settings.NamesMappers) :
    (b.descriptor.dispatch.forM fun x => discard (b.resolveDispatch x)) = okUnless ()
      (b.registry.firstVariantFault? b.descriptor.representer [] b.descriptor.variants) := by
  cases hx : b.descriptor.dispatch with
  | none => simp [Descriptor.variants, hx, firstVariantFault?, okUnless]
  | some x =>
    rw [Descriptor.variants_eq hx]
    change discard (b.resolveDispatch x) = _
    rw [resolveDispatch_eq h]
    cases b.registry.firstVariantFault? b.descriptor.representer [] x.variants <;> rfl

theorem checkReferences_eq (h : b.settings.NamesMappers) :
    b.checkReferences = okUnless () b.fault? := by
  unfold checkReferences fault?
  rw [forM_okUnless b.checkAttribute_eq, checkDispatch_eq h]
  cases b.attributes.findSome? (b.registry.nestedFault? b.descriptor.representer) <;> rfl

/-- A draft without faults is sound: what has been found once is found again. -/
theorem sound_of_fault?_eq_none (h : b.settings.NamesMappers) (hb : b.fault? = none) :
    b.Sound := by
  obtain ⟨hnested, hvariants⟩ := Option.or_eq_none_iff.mp hb
  refine ⟨?_, ?_⟩
  · intro m hm r hr
    have hfault := List.findSome?_eq_none_iff.mp hnested m hm
    rw [nestedFault?, Option.mem_def.mp hr] at hfault
    exact nestedMapper_eq h (by simpa using hfault)
  · intro x hx
    rw [Descriptor.variants_eq hx] at hvariants
    rw [resolveDispatch_eq h, hvariants]
    rfl

/-- The draft of a descriptor whose mapper has a name. -/
def ofDescriptor (reg : Registry) (g : GeneratorSettings) (d : Descriptor) : Draft where
  registry := reg
  settings := g
  descriptor := d
  attributes := reg.attributesOf d.representer
  mapper := g.mapperOf d.representer

theorem start_eq (reg : Registry) (g : GeneratorSettings) (d : Descriptor) :
    start reg g d = if g.NamesMappers then .ok (ofDescriptor reg g d)
      else .error (.naming (.badType (g.mapperText d.representer))) := by
  unfold start mapperType
  rw [g.mapperType_eq]
  split <;> rfl

theorem start_eq_ok (h : start reg g d = .ok b) :
    g.NamesMappers ∧ b = ofDescriptor reg g d := by
  rw [start_eq] at h
  split at h
  · rename_i hsettings
    exact ⟨hsettings, (Except.ok.inj h).symm⟩
  · cases h

/-- Behind the check of the references no step fails, whichever methods are written and whatever
helpers have been declared. -/
theorem sound_of_checked (h : start reg g d = .ok b) (hcheck : b.checkReferences = .ok ()) :
    b.Sound := by
  obtain ⟨hsettings, rfl⟩ := start_eq_ok h
  rw [checkReferences_eq hsettings] at hcheck
  exact sound_of_fault?_eq_none hsettings (okUnless_eq_ok.mp hcheck).1

end Draft

/-! ## Deriving -/

/-- The mapper that the descriptor stands for is derived, unless there is a fault. -/
theorem derive_eq_okUnless (reg : Registry) (g : GeneratorSettings) (d : Descriptor) :
    reg.derive g d = okUnless (planned reg g d).toMapper (reg.fault? g d) := by
  unfold Registry.derive Registry.fault?
  rw [contains_eq, Registry.resolve, Draft.start_eq]
  cases reg.resolve? d.representer with
  | none => rfl
  | some e =>
    rw [ok_bind, Option.isSome_some, Bool.not_true, if_neg Bool.false_ne_true]
    by_cases h : g.NamesMappers
    · rw [if_pos h, ok_bind, Draft.checkReferences_eq h, if_neg (not_not.mpr h)]
      change _ = okUnless _ (Draft.ofDescriptor reg g d).fault?
      cases hfault : (Draft.ofDescriptor reg g d).fault? with
      | some fault => rfl
      | none =>
        change (Draft.ofDescriptor reg g d).methods.run [] >>= _ = _
        rw [(Draft.sound_of_fault?_eq_none h hfault).methods_run]
        rfl
    · rw [if_neg h, if_pos h]
      rfl

end Derive

/-- There is no fault exactly if the descriptor's id and all that it refers to is registered, no two
variants have one discriminator, and the settings name mappers. -/
theorem Registry.fault?_eq_none_iff {reg : Registry} {g : GeneratorSettings} {d : Descriptor} :
    reg.fault? g d = none ↔ reg.contains d.representer ∧ g.NamesMappers ∧
      (∀ r ∈ reg.references d, reg.contains r) ∧ (d.variants.map (·.id)).Nodup := by
  have hnested :
      (reg.attributesOf d.representer).findSome? (reg.nestedFault? d.representer) = none ↔
      ∀ r ∈ (reg.attributesOf d.representer).filterMap (·.nested?), reg.contains r := by
    simp only [List.findSome?_eq_none_iff, nestedFault?, Option.map_eq_none_iff,
      Option.filter_eq_none_iff, List.mem_filterMap]
    constructor
    · rintro h r ⟨m, hm, hr⟩
      simpa using h m hm r hr
    · intro h m hm r hr
      simpa using h r ⟨m, hm, hr⟩
  unfold fault? references
  split
  · rename_i hunknown
    simp_all
  · split
    · rename_i hsettings
      simp [hsettings]
    · rename_i hknown hsettings
      rw [Option.or_eq_none_iff, hnested, firstVariantFault?_eq_none_iff, List.forall_mem_append,
        List.forall_mem_map]
      simp_all [and_assoc]

namespace Derive

open Registry

variable {reg : Registry} {g : GeneratorSettings}

/-! ## Mappers that are derived -/

/-- A mapper that is derived is the one that the descriptor stands for. -/
theorem derive_ok {d : Descriptor} {m : Mapper} (h : reg.derive g d = .ok m) :
    m = (planned reg g d).toMapper ∧
      g.mapperType d.representer = .ok (g.mapperOf d.representer) ∧
      ∀ r ∈ reg.references d, Resolves reg g r := by
  rw [derive_eq_okUnless, okUnless_eq_ok] at h
  obtain ⟨hfault, rfl⟩ := h
  obtain ⟨-, hsettings, hreferences, -⟩ := fault?_eq_none_iff.mp hfault
  have hnames : ∀ id, g.mapperType id = .ok (g.mapperOf id) := fun id => by
    rw [g.mapperType_eq, if_pos hsettings]
  refine ⟨rfl, hnames _, fun r hr => ⟨?_, hnames r⟩⟩
  exact Option.isSome_iff_exists.mp (contains_eq reg r ▸ hreferences r hr)

/-- Where all mappers are derived, each local descriptor has the one that it stands for. -/
theorem deriveAll_ok {ms : List Mapper} (h : reg.deriveAll g = .ok ms) :
    ms = reg.localDescriptors.map (fun d => (planned reg g d).toMapper) ∧
      ∀ d ∈ reg.localDescriptors, g.mapperType d.representer = .ok (g.mapperOf d.representer) ∧
        ∀ r ∈ reg.references d, Resolves reg g r :=
  eq_map_of_mapM_eq_ok h fun _ _ => derive_ok

theorem exists_descriptor {ms : List Mapper} (h : reg.deriveAll g = .ok ms) {m : Mapper}
    (hm : m ∈ ms) :
    ∃ d ∈ reg.localDescriptors, m = (planned reg g d).toMapper ∧
      g.mapperType d.representer = .ok (g.mapperOf d.representer) ∧
      ∀ r ∈ reg.references d, Resolves reg g r := by
  obtain ⟨rfl, hlocal⟩ := deriveAll_ok h
  obtain ⟨d, hd, rfl⟩ := List.mem_map.mp hm
  exact ⟨d, hd, rfl, hlocal d hd⟩

theorem toMapper_mem {ms : List Mapper} (h : reg.deriveAll g = .ok ms) {d : Descriptor}
    (hd : d ∈ reg.localDescriptors) : (planned reg g d).toMapper ∈ ms := by
  obtain ⟨rfl, -⟩ := deriveAll_ok h
  exact List.mem_map_of_mem hd

theorem derive_eq {ms : List Mapper} (h : reg.deriveAll g = .ok ms) {d : Descriptor}
    (hd : d ∈ reg.localDescriptors) : reg.derive g d = .ok (planned reg g d).toMapper := by
  obtain ⟨m, -, hm⟩ := exists_mem_of_mapM_eq_ok h hd
  obtain ⟨rfl, -, -⟩ := derive_ok hm
  exact hm

/-- Where deriving succeeds, no two variants have the same discriminator. -/
theorem variants_nodup_of_derive_ok {d : Descriptor} {m : Mapper} {x : Dispatch}
    (h : reg.derive g d = .ok m) (hx : d.dispatch = some x) : (x.variants.map (·.id)).Nodup := by
  rw [derive_eq_okUnless, okUnless_eq_ok] at h
  rw [← Descriptor.variants_eq hx]
  exact (fault?_eq_none_iff.mp h.1).2.2.2

end Derive

/-- Whether the settings name mappers is the same for all representers: the prefix must be a
package, and the suffix make a class of an identifier, no matter of which one. Deriving ends with
the first fault, if there is one: an id that is not registered, settings that name no mappers, a
nested representer that is not registered, a variant that repeats a discriminator or whose
representer is not registered. The directions that the descriptor skips do not count. Otherwise the
mapper is the one that the descriptor stands for. No step behind the check of the references fails:
the emitters look references up again, and find them, in either direction and with whatever helpers
have been declared. -/
theorem derive_outcome (reg : Registry) (g : GeneratorSettings) (d : Descriptor) :
    (∀ id, (∃ t, g.mapperType id = .ok t) ↔ g.NamesMappers) ∧
    (∀ name : Identifier, g.NamesMappers ↔
      (g.packagePrefix = "" ∨ JavaType.IsDotted g.packagePrefix.toList) ∧
        JavaType.IsDotted (name.text.toList ++ g.mapperSuffix.toList)) ∧
    (reg.derive g d = match reg.fault? g d with
      | some fault => .error fault
      | none => .ok (Derive.planned reg g d).toMapper) ∧
    ((∃ m, reg.derive g d = .ok m) ↔ reg.contains d.representer ∧ g.NamesMappers ∧
      (∀ r ∈ reg.references d, reg.contains r) ∧ (d.variants.map (·.id)).Nodup) ∧
    ∀ draft, Derive.Draft.start reg g d = .ok draft → draft.checkReferences = .ok () →
      ∀ table, (∃ written, draft.toJson.run table = .ok written) ∧
        (∃ read, draft.fromJson.run table = .ok read) ∧
        ∃ methods, draft.methods.run table = .ok methods := by
  have hderive := Derive.derive_eq_okUnless reg g d
  refine ⟨g.exists_mapperType_iff, GeneratorSettings.namesMappers_iff, ?_, ?_, ?_⟩
  · rw [hderive]
    cases reg.fault? g d <;> rfl
  · rw [← Registry.fault?_eq_none_iff, hderive]
    simp [okUnless_eq_ok]
  · intro draft hstart hcheck table
    have hsound := Derive.Draft.sound_of_checked hstart hcheck
    exact ⟨⟨_, (Derive.Draft.toJson_emits hsound).run_eq table⟩,
      ⟨_, (Derive.Draft.fromJson_emits hsound).run_eq table⟩,
      ⟨_, (Derive.Draft.methods_emits hsound).run_eq table⟩⟩

namespace Sample

/-- The name of a class in the package of the samples. -/
def typeNamed (name : Identifier) : JavaType := .mk [⟨"com", by decide⟩] [] name []

def figureId : RepresenterId := ⟨typeNamed ⟨"FigureRepresenter", by decide⟩⟩

/-- A figure that has itself for a variant, and is neither written nor read. -/
def figure : Descriptor where
  representer := figureId
  model := typeNamed ⟨"Figure", by decide⟩
  dispatch := some {
    discriminator := "kind"
    nestedAttribute := none
    variants := [⟨"plain", figureId⟩] }
  skipSerialize := true
  skipDeserialize := true

/-- The figures that a figure consists of. -/
def figureParts : AttributeMapping where
  model := { name := ⟨"parts", by decide⟩, type := none }
  wire := { name := ⟨"parts", by decide⟩, type := none }
  embedded := false
  conversion := .collection figureId figure.model

def figures : Registry where
  registrations := [⟨figure, false⟩]
  additions := [(figureId, figureParts)]

/-- The methods that the figure skips could be written, too. -/
theorem derive_outcome_figures :
    ∃ draft, Derive.Draft.start figures {} figure = .ok draft ∧
      draft.checkReferences = .ok () ∧
      (∀ table, (∃ written, draft.toJson.run table = .ok written) ∧
        ∃ read, draft.fromJson.run table = .ok read) ∧
      ∃ m, figures.derive {} figure = .ok m := by
  obtain ⟨-, -, -, hderived, hmethods⟩ := derive_outcome figures {} figure
  obtain ⟨draft, hstart⟩ : ∃ draft, Derive.Draft.start figures {} figure = .ok draft := ⟨_, rfl⟩
  have hcheck : draft.checkReferences = .ok () := by
    obtain rfl := (Derive.Draft.start_eq_ok hstart).2
    rfl
  have hsettings : ({} : GeneratorSettings).NamesMappers := (Derive.Draft.start_eq_ok hstart).1
  refine ⟨draft, hstart, hcheck, fun table => ?_, hderived.mpr ⟨rfl, hsettings, ?_, by decide⟩⟩
  · obtain ⟨hwritten, hread, -⟩ := hmethods draft hstart hcheck table
    exact ⟨hwritten, hread⟩
  · decide

end Sample

end JsonMapping
