import JsonMapping.Proofs.RoundTrip.Fit
import JsonMapping.Proofs.Run.Reading
import JsonMapping.Proofs.Scope.Worlds

/-! Types of models that are read. Reading checks every plain value by a cast to the type of its
attribute, and leaves others to the nested descriptor. So what it gives is a model of the
descriptor's type whose mapped fields have their types all the way down, if the fields that new
models have do. -/

namespace JsonMapping

open Derive

namespace Registry

variable (reg : Registry)

mutual
/-- A model of the descriptor's type. The fields that are there and that the descriptor maps have
the types of their attributes. -/
inductive WellTyped : Descriptor → Value → Prop
  | model {d : Descriptor} {fields : Entries Value} :
    (∀ m ∈ reg.attributesOf d.representer, ∀ x, fields.get? m.model.name.text = some x →
      FieldTyped m x) → WellTyped d (.model d.model.qualifiedName fields)
/-- A plain value that its declared type accepts, or null; a model of the nested descriptor, or
null; or a list of such. -/
inductive FieldTyped : AttributeMapping → Value → Prop
  | plain {m : AttributeMapping} {serializer deserializer : Option JavaType} {x : Value} :
    m.conversion = .plain serializer deserializer →
      (∀ t, m.model.type = some t → x = .null ∨ t.accepts x = true) → FieldTyped m x
  | single {m : AttributeMapping} {r : RepresenterId} {e : Descriptor} {x : Value} :
    m.conversion = .single r → reg.resolve? r = some e → (x ≠ .null → WellTyped e x) →
      FieldTyped m x
  | collection {m : AttributeMapping} {r : RepresenterId} {element : JavaType} {e : Descriptor}
      {xs : List Value} :
    m.conversion = .collection r element → reg.resolve? r = some e →
      (∀ x ∈ xs, x ≠ .null → WellTyped e x) → FieldTyped m (.list xs)
end

/-- Nothing but attributes takes part in reading, and they are read without helpers, each into a
field of its own. -/
structure ReadsPlainly (d : Descriptor) : Prop where
  reads : d.skipDeserialize = false
  standard : d.customDeserializer = none
  flat : d.dispatch = none
  undecoded : ∀ m ∈ reg.attributesOf d.representer, ∀ s t, m.conversion ≠ .plain s (some t)
  names : ((reg.attributesOf d.representer).map fun m => m.model.name.text).Nodup

end Registry

/-- The attribute's field is in its container: that of the embedded fields, or the value itself. -/
inductive AttributeMapping.Occurs (m : AttributeMapping) : Value → Prop
  | plain {es : Entries Value} : m.embedded = false → m.wireKey ∈ es.keys → Occurs m (.map es)
  | embedded {es inner : Entries Value} : m.embedded = true →
    es.get? embeddedKey = some (.map inner) → m.wireKey ∈ inner.keys → Occurs m (.map es)

/-! ## One step of reading -/

theorem Value.null_or_accepts_of_cast {v u : Value} {t : JavaType}
    (h : v.cast (.declared t) = .ok u) : u = .null ∨ t.accepts u = true := by
  unfold cast at h
  split at h
  · rename_i hpasses
    cases h
    exact (Bool.or_eq_true _ _ ▸ hpasses).imp_left isNull_iff.mp
  · cases h

namespace Graph

variable {G : Graph} {w : World} {R : Reader} {d : Descriptor} {j embedded : Value}

/-- The field of an attribute is found exactly if it occurs. -/
theorem occurs_iff {m : AttributeMapping} {es : Entries Value} (hm : m ∈ G.attributes d)
    (hembedded : G.embeddedIn d j = .ok embedded) (hes : fieldsFor j embedded m = .ok es) :
    m.Occurs j ↔ m.wireKey ∈ es.keys := by
  unfold fieldsFor at hes
  split at hes
  · rename_i hm'
    obtain rfl := Value.eq_map_of_entries hes
    have hany : G.hasEmbedded d = true := List.any_eq_true.mpr ⟨m, hm, hm'⟩
    unfold embeddedIn at hembedded
    rw [if_pos hany] at hembedded
    obtain ⟨top, htop, hfound⟩ := bind_eq_ok.mp hembedded
    obtain rfl := Value.eq_map_of_entries htop
    have hget : top.get? embeddedKey = some (.map es) ∨ top.get? embeddedKey = none ∧ es = [] := by
      split at hfound
      · rename_i found hget
        rw [hget, Value.eq_of_cast hfound]
        exact .inl rfl
      · rename_i hget
        cases hfound
        exact .inr ⟨hget, rfl⟩
    constructor
    · rintro (⟨hplain, -⟩ | ⟨-, hinner, hkey⟩)
      · rw [hm'] at hplain
        cases hplain
      · rcases hget with hget | ⟨hget, -⟩ <;> rw [hget] at hinner <;> cases hinner
        exact hkey
    · intro hkey
      rcases hget with hget | ⟨-, rfl⟩
      · exact .embedded hm' hget hkey
      · cases hkey
  · rename_i hm'
    obtain rfl := Value.eq_map_of_entries hes
    constructor
    · intro h
      cases h with
      | plain _ hkey => exact hkey
      | embedded hembedded => exact absurd hembedded hm'
    · exact .plain (by simpa using hm')

/-- The members' references lead to members. -/
def ReferencesResolve (G : Graph) : Prop :=
  ∀ d ∈ G.members, ∀ r ∈ G.references d, ∃ e ∈ G.members, G.registry.resolve? r = some e

/-- Whatever is read by a member is null or has the member's type. -/
def ReadsTyped (G : Graph) (R : Reader) (u : Value) : Prop :=
  ∀ e ∈ G.members, ∀ v, R e u = .ok v → v ≠ .null → G.registry.WellTyped e v

theorem ReferencesResolve.of_callee (hG : G.ReferencesResolve) (hd : d ∈ G.members)
    {r : RepresenterId} (hr : r ∈ G.references d) {k : MethodKind} {e : Descriptor}
    (h : G.callee k r = .ok e) : e ∈ G.members ∧ G.registry.resolve? r = some e := by
  obtain ⟨e', he', hresolve⟩ := hG d hd r hr
  have hfind := (callee_ok h).1
  rw [find?_of_resolve? hresolve he'] at hfind
  cases hfind
  exact ⟨he', hresolve⟩

theorem typed_readOne (hG : G.ReferencesResolve) (hd : d ∈ G.members) {r : RepresenterId}
    (hr : r ∈ G.references d) {u v : Value} (hread : G.ReadsTyped R u)
    (h : G.readOne R r u = .ok v) :
    ∃ e, G.registry.resolve? r = some e ∧ (v ≠ .null → G.registry.WellTyped e v) := by
  obtain ⟨e, he, h⟩ := bind_eq_ok.mp h
  obtain ⟨hmember, hresolve⟩ := hG.of_callee hd hr (lift_eq_ok.mp he)
  exact ⟨e, hresolve, hread e hmember v h⟩

theorem typed_readAll (hG : G.ReferencesResolve) (hd : d ∈ G.members) {r : RepresenterId}
    (hr : r ∈ G.references d) {u v : Value}
    (hread : ∀ i : Value, i.height < u.height → G.ReadsTyped R i)
    (h : G.readAll R r u = .ok v) :
    ∃ e xs, G.registry.resolve? r = some e ∧ v = .list xs ∧
      ∀ x ∈ xs, x ≠ .null → G.registry.WellTyped e x := by
  obtain ⟨e, he, h⟩ := bind_eq_ok.mp h
  obtain ⟨hmember, hresolve⟩ := hG.of_callee hd hr (lift_eq_ok.mp he)
  split at h
  · cases h
    exact ⟨e, [], hresolve, rfl, nofun⟩
  · obtain ⟨items, hitems, h⟩ := bind_eq_ok.mp h
    obtain ⟨xs, hxs, h⟩ := bind_eq_ok.mp h
    cases h
    refine ⟨e, xs, hresolve, rfl, fun x hx => ?_⟩
    obtain ⟨i, hi, hix⟩ := exists_of_mem_of_mapM_eq_ok hxs hx
    exact hread i (Value.height_lt_of_elements (lift_eq_ok.mp hitems) hi) e hmember x hix

theorem typed_readValue (hG : G.ReferencesResolve) (hd : d ∈ G.members)
    (hplain : G.registry.ReadsPlainly d) {m : AttributeMapping} (hm : m ∈ G.attributes d)
    {raw v : Value} (hread : ∀ i : Value, i.height ≤ raw.height → G.ReadsTyped R i)
    (h : G.readValue w R m raw = .ok v) : G.registry.FieldTyped m v := by
  unfold readValue at h
  cases hc : m.conversion with
  | plain serializer deserializer =>
    rw [hc] at h
    cases deserializer with
    | some t => exact absurd hc (hplain.undecoded m hm serializer t)
    | none =>
      refine .plain hc fun t ht => ?_
      have hcast : raw.castTo m.model.type = .ok v := lift_eq_ok.mp h
      rw [ht] at hcast
      exact Value.null_or_accepts_of_cast hcast
  | single r =>
    rw [hc] at h
    obtain ⟨u, hu, hrun⟩ := bind_eq_ok.mp h
    obtain rfl := Value.eq_of_cast (lift_eq_ok.mp hu)
    have hr := single_mem_references hm hc
    obtain ⟨e, he, htyped⟩ := typed_readOne hG hd hr (hread u (Nat.le_refl _)) hrun
    exact .single hc he htyped
  | collection r element =>
    rw [hc] at h
    obtain ⟨u, hu, hrun⟩ := bind_eq_ok.mp h
    obtain rfl := Value.eq_of_cast (lift_eq_ok.mp hu)
    have hr := collection_mem_references hm hc
    obtain ⟨e, xs, he, rfl, htyped⟩ :=
      typed_readAll hG hd hr (fun i hi => hread i (Nat.le_of_lt hi)) hrun
    exact .collection hc he htyped

end Graph

/-! ## Fields -/

/-- A well-typed model that has the fields which are there before, and those of the attributes that
occur. -/
def Registry.TypedModel (reg : Registry) (d : Descriptor) (before : Entries Value)
    (ms : List AttributeMapping) (j v : Value) : Prop :=
  ∃ fields : Entries Value, v = .model d.model.qualifiedName fields ∧ reg.WellTyped d v ∧
    ∀ key, key ∈ fields.keys ↔
      key ∈ before.keys ∨ ∃ m ∈ ms, m.Occurs j ∧ m.model.name.text = key

/-- A model stays well typed when one of its fields gets a value of its type. -/
theorem Registry.WellTyped.insert {reg : Registry} {d : Descriptor} (hplain : reg.ReadsPlainly d)
    {fields : Entries Value} (h : reg.WellTyped d (.model d.model.qualifiedName fields))
    {m : AttributeMapping} (hm : m ∈ reg.attributesOf d.representer) {u : Value}
    (hu : reg.FieldTyped m u) :
    reg.WellTyped d (.model d.model.qualifiedName (fields.insert m.model.name.text u)) := by
  cases h with
  | model hfields =>
    refine .model fun m' hm' x hx => ?_
    rw [Entries.get?_insert] at hx
    split at hx
    · rename_i hname
      cases hx
      -- no other attribute has this field
      rwa [← List.inj_on_of_nodup_map hplain.names hm hm' hname]
    · exact hfields m' hm' x hx

namespace Graph

variable {G : Graph} {w : World} {R : Reader} {d : Descriptor} {j embedded : Value}

/-- Every attribute sets its field, or it leaves the model as it is. -/
theorem readInto_cases (hG : G.ReferencesResolve) (hd : d ∈ G.members)
    (hplain : G.registry.ReadsPlainly d)
    (hread : ∀ i : Value, i.height < j.height → G.ReadsTyped R i)
    (hembedded : G.embeddedIn d j = .ok embedded) {m : AttributeMapping}
    (hm : m ∈ G.attributes d) {type : String} {fields : Entries Value} {v : Value}
    (h : G.readInto w R j embedded (.model type fields) m = .ok v) :
    (m.Occurs j ∧ ∃ u, G.registry.FieldTyped m u ∧
      v = .model type (fields.insert m.model.name.text u)) ∨
      (¬ m.Occurs j ∧ v = .model type fields) := by
  obtain ⟨es, hes, h⟩ := bind_eq_ok.mp h
  have hes := lift_eq_ok.mp hes
  rw [occurs_iff hm hembedded hes]
  split at h
  · rename_i raw hraw
    obtain ⟨u, hu, h⟩ := bind_eq_ok.mp h
    cases h
    have hlt := height_lt_of_fieldsFor (height_embeddedIn_le hembedded) hes hraw
    have hkey : m.wireKey ∈ es.keys := by
      by_contra hkey
      rw [Entries.get?_eq_none_of_not_mem hkey] at hraw
      cases hraw
    exact .inl ⟨hkey, u, typed_readValue hG hd hplain hm (fun i hi => hread i (by omega)) hu, rfl⟩
  · rename_i hnone
    cases h
    exact .inr ⟨(Entries.get?_eq_none_iff _ _).mp hnone, rfl⟩

/-- After all attributes, the fields that are there are those from before and the ones that were
set. -/
theorem foldlM_readInto_typed (hG : G.ReferencesResolve) (hd : d ∈ G.members)
    (hplain : G.registry.ReadsPlainly d)
    (hread : ∀ i : Value, i.height < j.height → G.ReadsTyped R i)
    (hembedded : G.embeddedIn d j = .ok embedded) {ms : List AttributeMapping}
    (hms : ms ⊆ G.attributes d) {fields : Entries Value} {v : Value}
    (htyped : G.registry.WellTyped d (.model d.model.qualifiedName fields))
    (h : ms.foldlM (G.readInto w R j embedded) (.model d.model.qualifiedName fields) = .ok v) :
    G.registry.TypedModel d fields ms j v := by
  induction ms generalizing fields with
  | nil =>
    cases h
    exact ⟨fields, rfl, htyped, by simp⟩
  | cons m rest ih =>
    obtain ⟨hm, hrest⟩ := List.cons_subset.mp hms
    rw [List.foldlM_cons] at h
    obtain ⟨model, hmodel, h⟩ := bind_eq_ok.mp h
    rcases readInto_cases hG hd hplain hread hembedded hm hmodel with
      ⟨hoccurs, u, hu, rfl⟩ | ⟨hoccurs, rfl⟩
    · obtain ⟨fields', rfl, htyped', hkeys⟩ := ih hrest (htyped.insert hplain hm hu) h
      refine ⟨fields', rfl, htyped', fun key => ?_⟩
      rw [hkeys, Entries.mem_keys_insert]
      simp only [List.mem_cons, exists_eq_or_imp, hoccurs, true_and, eq_comm (a := key), or_assoc]
    · obtain ⟨fields', rfl, htyped', hkeys⟩ := ih hrest htyped h
      refine ⟨fields', rfl, htyped', fun key => ?_⟩
      rw [hkeys]
      simp only [List.mem_cons, exists_eq_or_imp, hoccurs, false_and, false_or]

/-! ## Reading -/

theorem readWith_typed (hG : G.ReferencesResolve) (hd : d ∈ G.members)
    (hplain : G.registry.ReadsPlainly d)
    (hdefaults : G.registry.WellTyped d (w.instantiate d.model))
    (hread : ∀ i : Value, i.height < j.height → G.ReadsTyped R i) (hj : j.isNull = false)
    {v : Value} (h : G.readWith w R d j = .ok v) :
    G.registry.TypedModel d (w.defaultFields d.model) (G.attributes d) j v := by
  unfold readWith makeModel at h
  rw [hj, hplain.standard, hplain.flat] at h
  obtain ⟨model, hmodel, h⟩ := bind_eq_ok.mp h
  cases hmodel
  change G.readAttributes w R d j (w.instantiate d.model) = .ok v at h
  obtain ⟨embedded, hembedded, h⟩ := bind_eq_ok.mp h
  exact foldlM_readInto_typed hG hd hplain hread (lift_eq_ok.mp hembedded) (List.Subset.refl _)
    hdefaults h

theorem read_typed (hG : G.ReferencesResolve) (hd : d ∈ G.members)
    (hplain : ∀ e ∈ G.members, G.registry.ReadsPlainly e)
    (hdefaults : ∀ e ∈ G.members, G.registry.WellTyped e (w.instantiate e.model))
    (hj : j.isNull = false) {v : Value} (h : G.read w d j = .ok v) :
    G.registry.TypedModel d (w.defaultFields d.model) (G.attributes d) j v := by
  induction hheight : j.height using Nat.strong_induction_on generalizing d j v with
  | _ height ih =>
    rw [read_eq] at h
    refine readWith_typed hG hd (hplain d hd) (hdefaults d hd) ?_ hj h
    intro i hi e he u hu hne
    -- null is read as null, which has no type to have
    have hi' : i.isNull = false := by
      by_contra hnull
      rw [read_eq, readWith, if_pos (by simpa using hnull)] at hu
      cases hu
      exact hne rfl
    obtain ⟨_, -, htyped, -⟩ := ih i.height (hheight ▸ hi) he hi' hu rfl
    exact htyped

end Graph

/-! ## Worlds where all mappers are loaded -/

/-- The models that descriptors start from in reading are well typed. -/
def World.DefaultsTyped (w : World) (reg : Registry) : Prop :=
  ∀ d ∈ reg.localDescriptors, reg.WellTyped d (w.instantiate d.model)

theorem World.defaults_loadAll (w : World) (ms : List Mapper) :
    (w.loadAll ms).defaults = w.defaults := by
  induction ms generalizing w with
  | nil => rfl
  | cons m rest ih => exact ih (w.load m)

/-- Whatever is read and is not null to begin with becomes a model of the descriptor's type. It is
well typed all the way down, and it has the default fields and those of the attributes that occur,
and no others. -/
theorem typed_of_fromJson {reg : Registry} {g : GeneratorSettings} {ms : List Mapper} {w : World}
    (hlocal : reg.IsLocal) (hms : reg.deriveAll g = .ok ms)
    (hnames : (ms.map fun m => m.type.qualifiedName).Nodup) (hw : w.mappers = [])
    (hplain : ∀ d ∈ reg.localDescriptors, reg.ReadsPlainly d) (hdefaults : w.DefaultsTyped reg)
    {d : Descriptor} (hd : d ∈ reg.localDescriptors) {m : Mapper} (hm : reg.derive g d = .ok m)
    {j v : Value} (hj : j ≠ .null) (h : (w.loadAll ms).fromJson m.type.qualifiedName j = .ok v) :
    reg.TypedModel d (w.defaultFields d.model) (reg.attributesOf d.representer) j v := by
  obtain ⟨hmappers, hresolves⟩ := deriveAll_ok hms
  have hrunnable : reg.Runnable g := by
    refine ⟨?_, acyclic_of_flat ?_⟩
    · rwa [hmappers, List.map_map] at hnames
    · rintro e he _ ⟨-, a, ha, -⟩
      simp [Descriptor.variants, (hplain e he).flat] at ha
  have hserves := World.serves_ofRegistry hrunnable hw hms
  have hreferences : (Graph.ofRegistry reg g hrunnable).ReferencesResolve := by
    intro e he r hr
    obtain ⟨⟨e', he'⟩, -⟩ := (hresolves e he).2 r hr
    exact ⟨e', hlocal.mem_of_resolve? he', he'⟩
  have hstart : ∀ e ∈ reg.localDescriptors,
      reg.WellTyped e ((w.loadAll ms).instantiate e.model) := by
    intro e he
    rw [World.instantiate, w.defaults_loadAll]
    exact hdefaults e he
  obtain ⟨rfl, -, -⟩ := derive_ok hm
  have hrun := Reading.fromJson_eq hserves hd (hplain d hd).reads j
  have h := hrun.symm.trans h
  have hnull : j.isNull = false := by
    simpa using mt Value.isNull_iff.mp hj
  have hread := Graph.read_typed hreferences hd hplain hstart hnull h
  rwa [World.defaultFields, w.defaults_loadAll] at hread

namespace Sample

theorem typed_of_fromJson_tree :
    trees.IsLocal ∧ trees.deriveAll {} = .ok [treeGraph.mapper node] ∧
      (∀ d ∈ trees.localDescriptors, trees.ReadsPlainly d) ∧ World.DefaultsTyped {} trees ∧
      treeWorld.fromJson "gen.com.NodeMapper" (.map treeEntries) = .ok tree ∧
      trees.WellTyped node tree := by
  have hlocal : trees.IsLocal := by decide
  have hms : trees.deriveAll {} = .ok [treeGraph.mapper node] := rfl
  have hattributes : trees.attributesOf nodeId = [label, children] := by decide
  have hplain : ∀ d ∈ trees.localDescriptors, trees.ReadsPlainly d := by
    intro d hd
    obtain rfl : d = node := List.mem_singleton.mp hd
    refine ⟨rfl, rfl, rfl, ?_, ?_⟩
    · intro m hm s t hc
      rw [show node.representer = nodeId from rfl, hattributes] at hm
      rcases List.mem_cons.mp hm with rfl | hm
      · cases hc
      · obtain rfl := List.mem_singleton.mp hm
        cases hc
    · rw [show node.representer = nodeId from rfl, hattributes]
      decide
  have hdefaults : World.DefaultsTyped {} trees := by
    intro d hd
    obtain rfl : d = node := List.mem_singleton.mp hd
    exact .model nofun
  have hread : treeWorld.fromJson "gen.com.NodeMapper" (.map treeEntries) = .ok tree :=
    (Reading.fromJson_eq treeWorld_serves node_mem rfl _).trans rfl
  obtain ⟨_, -, htyped, -⟩ := typed_of_fromJson hlocal hms (List.nodup_singleton _) rfl hplain
    hdefaults (List.mem_singleton_self node) (treeWorld_serves.derive node_mem)
    (by simp) hread
  exact ⟨hlocal, hms, hplain, hdefaults, hread, htyped⟩

end Sample

end JsonMapping
