import JsonMapping.Proofs.Derive.Names
import JsonMapping.Proofs.Scope.Demands

/-! Worlds of derived mappers. The mappers of a registry without external representers call one
another only, so a world into which all of them are loaded provides what they demand. From this it
follows what their runs may miss: methods of directions that are skipped, and nothing else. -/

namespace JsonMapping

/-! ## Registries without external representers -/

namespace Registry

/-- All mappers are generated here. -/
def IsLocal (reg : Registry) : Prop := ∀ r ∈ reg.registrations, r.external = false

instance (reg : Registry) : Decidable reg.IsLocal :=
  inferInstanceAs (Decidable (∀ r ∈ reg.registrations, r.external = false))

/-- Wherever a descriptor goes through its attributes and variants, in writing or in reading, what
it refers to does not skip that direction. -/
def Answerable (reg : Registry) : Prop :=
  ∀ d ∈ reg.localDescriptors, ∀ r ∈ reg.references d, ∀ e ∈ reg.resolve? r,
    (d.skipSerialize = false → e.skipSerialize = false) ∧
      (d.skipDeserialize = false → d.customDeserializer = none → e.skipDeserialize = false)

instance (reg : Registry) : Decidable reg.Answerable :=
  inferInstanceAs (Decidable (∀ d ∈ reg.localDescriptors, ∀ r ∈ reg.references d,
    ∀ e ∈ reg.resolve? r, (d.skipSerialize = false → e.skipSerialize = false) ∧
      (d.skipDeserialize = false → d.customDeserializer = none → e.skipDeserialize = false)))

theorem IsLocal.mem_of_resolve? {reg : Registry} (h : reg.IsLocal) {id : RepresenterId}
    {d : Descriptor} (hd : reg.resolve? id = some d) : d ∈ reg.localDescriptors := by
  obtain ⟨r, hr, rfl⟩ := Option.map_eq_some_iff.mp hd
  have hmem : r ∈ reg.registrations := List.mem_of_find?_eq_some hr
  refine List.mem_map_of_mem (List.mem_filter.mpr ⟨hmem, ?_⟩)
  rw [h r hmem]
  rfl

end Registry

namespace Derive

variable {reg : Registry} {g : GeneratorSettings} {ms : List Mapper} {d : Descriptor}

theorem mapper?_plannedAttribute (m : AttributeMapping) :
    (plannedAttribute g m).transfer.mapper? = m.nested?.map g.mapperOf := by
  obtain ⟨model, wire, embedded, conversion⟩ := m
  cases conversion <;> rfl

theorem variants_planned :
    (planned reg g d).variants = d.variants.map (plannedVariant reg g) := by
  unfold Plan.variants Descriptor.variants planned
  cases d.dispatch <;> rfl

/-- A plan refers to the mappers of all that its descriptor refers to. -/
theorem callees_planned : (planned reg g d).callees = (reg.references d).map g.mapperOf := by
  have hattributes : (planned reg g d).attributes =
    (reg.attributesOf d.representer).map (plannedAttribute g) := rfl
  rw [Plan.callees, Registry.references, List.map_append, hattributes, variants_planned,
    List.filterMap_map, List.map_filterMap, List.map_map, List.map_map]
  congr 1
  exact List.filterMap_congr fun m _ => mapper?_plannedAttribute m

/-- Descriptors skip the methods of a direction together. -/
theorem skips_congr {k k' : MethodKind} (h : k'.writes = k.writes) : d.skips k' = d.skips k := by
  cases k <;> cases k' <;> first | rfl | cases h

/-- A method calls its own mapper, or one of a descriptor that its own refers to. The call is for a
method of its direction, which the other descriptor does not skip if the registry is answerable. -/
theorem exists_callee (hlocal : reg.IsLocal) (hresolves : ∀ r ∈ reg.references d, Resolves reg g r)
    (hd : d ∈ reg.localDescriptors) {k k' : MethodKind} (hs : d.skips k = false) {t : JavaType}
    {context : Bool} (h : .call t k' context ∈ ((planned reg g d).method k).demands) :
    context = k'.writes ∧ ∃ e ∈ reg.localDescriptors, t = (planned reg g e).toMapper.type ∧
      (e = d ∨ e.representer ∈ reg.references d) ∧ (reg.Answerable → e.skips k' = false) := by
  obtain ⟨hk, hcontext, ht⟩ := asks_of_mem_demands hs h
  have hskip : d.skips k' = false := (skips_congr hk).trans hs
  rcases ht with rfl | ⟨ht, hread⟩
  · exact ⟨hcontext, d, hd, rfl, .inl rfl, fun _ => hskip⟩
  · rw [callees_planned] at ht
    obtain ⟨r, hr, rfl⟩ := List.mem_map.mp ht
    obtain ⟨⟨e, he⟩, -⟩ := hresolves r hr
    have hid := Registry.representer_of_resolve? he
    refine ⟨hcontext, e, hlocal.mem_of_resolve? he, by rw [← hid]; rfl, .inr (hid ▸ hr), ?_⟩
    intro hanswers
    obtain ⟨hwrites, hreads⟩ := hanswers d hd r hr e he
    cases k' with
    | toJson | toJsonCollection => exact hwrites hskip
    | fromJson | fromJsonCollection => exact hreads hskip (hread rfl)

end Derive

/-! ## Worlds -/

namespace World

/-- There are helpers and links providers for the types of all constants of the mappers. -/
def Equips (w : World) (ms : List Mapper) : Prop :=
  ∀ m ∈ ms, ∀ c ∈ m.constants, (∃ f, w.helpers.get? c.type.qualifiedName = some f) ∧
    ∃ f, w.linksProviders.get? c.type.qualifiedName = some f

/-- The helpers and links providers for the constants of the mappers do not themselves fail for
want of a thing of the given kinds. -/
structure Candid (w : World) (kinds : List Lookup) (ms : List Mapper) : Prop where
  helpers : ∀ m ∈ ms, ∀ c ∈ m.constants, ∀ f, w.helpers.get? c.type.qualifiedName = some f →
    ∀ v e, f v = .error e → ∀ kind ∈ e.lookup?, kind ∉ kinds
  linksProviders : ∀ m ∈ ms, ∀ c ∈ m.constants, ∀ f,
    w.linksProviders.get? c.type.qualifiedName = some f →
      ∀ v context e, f v context = .error e → ∀ kind ∈ e.lookup?, kind ∉ kinds

variable {w : World} {kinds : List Lookup} {ms : List Mapper}

theorem finds_lift {α : Type} {x : Except RunError α}
    (h : ∀ e, x = .error e → ∀ kind ∈ e.lookup?, kind ∉ kinds) : FindsAll kinds (liftM x) := by
  cases x with
  | ok a => trivial
  | error e => exact h e rfl

theorem Candid.finds_helper (h : w.Candid kinds ms) (hequips : .helper ∈ kinds → w.Equips ms)
    {m : Mapper} (hm : m ∈ ms) {c : Constant} (hc : c ∈ m.constants) (v : Value) :
    FindsAll kinds (liftM (do (← w.helper c.type) v) : Outcome Value) := by
  unfold helper
  cases hget : w.helpers.get? c.type.qualifiedName with
  | some f => exact finds_lift (h.helpers m hm c hc f hget v)
  | none =>
    intro kind hkind hmem
    cases hkind
    obtain ⟨⟨f, hf⟩, -⟩ := hequips hmem m hm c hc
    rw [hget] at hf
    cases hf

theorem Candid.finds_linksProvider (h : w.Candid kinds ms)
    (hequips : .helper ∈ kinds → w.Equips ms) {m : Mapper} (hm : m ∈ ms) {c : Constant}
    (hc : c ∈ m.constants) (v : Value) (context : RequestContext) :
    FindsAll kinds (liftM (do (← w.linksProvider c.type) v context) :
      Outcome (Entries Value)) := by
  unfold linksProvider
  cases hget : w.linksProviders.get? c.type.qualifiedName with
  | some f => exact finds_lift (h.linksProviders m hm c hc f hget v context)
  | none =>
    intro kind hkind hmem
    cases hkind
    obtain ⟨-, f, hf⟩ := hequips hmem m hm c hc
    rw [hget] at hf
    cases hf

theorem helper_loadAll (w : World) (ms : List Mapper) (t : JavaType) :
    (w.loadAll ms).helper t = w.helper t := by
  induction ms generalizing w with
  | nil => rfl
  | cons m rest ih => exact ih (w.load m)

theorem linksProvider_loadAll (w : World) (ms : List Mapper) (t : JavaType) :
    (w.loadAll ms).linksProvider t = w.linksProvider t := by
  induction ms generalizing w with
  | nil => rfl
  | cons m rest ih => exact ih (w.load m)

/-- Of all mappers that are loaded under a name, one is found by it. -/
theorem exists_get?_loadAll (w : World) {m : Mapper} (hm : m ∈ ms) :
    ∃ m' ∈ ms, (w.loadAll ms).mappers.get? m.type.qualifiedName = some m' := by
  have hkey : m.type.qualifiedName ∈
      Entries.keys (ms.map fun m => (m.type.qualifiedName, m)) := by
    simpa [Entries.keys] using ⟨m, hm, rfl⟩
  obtain ⟨m', hmem, hget⟩ := Entries.exists_get?_insertAll hkey w.mappers
  obtain ⟨n, hn, he⟩ := List.mem_map.mp hmem
  obtain ⟨-, rfl⟩ := Prod.mk.inj he
  rw [mappers_loadAll]
  exact ⟨n, hn, hget⟩

end World

/-! ## Derived mappers together -/

section Loaded

open Derive

variable {reg : Registry} {g : GeneratorSettings} {ms : List Mapper} {kinds : List Lookup}
  {w : World}

/-- Derived mappers mention constants that they have. -/
theorem Derive.exists_constant {p : Plan} {use : HelperUse} (h : use ∈ p.helperUses) :
    ∃ c, p.toMapper.constant? (constantName p.constants use.1) = some c ∧
      c ∈ p.toMapper.constants := by
  obtain ⟨c, hc, -⟩ := find?_constantName h
  exact ⟨c, hc, List.mem_of_find?_eq_some hc⟩

/-- Where all mappers of a registry are loaded, the world provides what they demand. For methods
that are called to be there, none of them may be skipped and no mapper replaced. -/
theorem World.supports_loadAll (hlocal : reg.IsLocal) (hms : reg.deriveAll g = .ok ms)
    (hcandid : w.Candid kinds ms) (hequips : .helper ∈ kinds → w.Equips ms)
    (hmethods : .method ∈ kinds →
      reg.Answerable ∧ (ms.map fun m => m.type.qualifiedName).Nodup) :
    (w.loadAll ms).Supports kinds ms where
  wellScoped := by
    intro m hm method hmethod
    obtain ⟨d, -, rfl, -⟩ := exists_descriptor hms hm
    exact wellScoped_of_mem_methods _ hmethod
  provides := by
    intro m hm method hmethod demand hdemand
    obtain ⟨d, hd, rfl, -, hresolves⟩ := exists_descriptor hms hm
    obtain ⟨k, hskip, rfl⟩ := Plan.mem_methods_iff.mp hmethod
    cases demand with
    | helper name =>
      obtain ⟨use, huse, rfl⟩ := asks_of_mem_demands hskip hdemand
      obtain ⟨c, hc, hmem⟩ := exists_constant huse
      refine ⟨c, hc, ?_⟩
      intro v
      rw [helper_loadAll]
      exact hcandid.finds_helper hequips hm hmem v
    | links name =>
      obtain ⟨use, huse, rfl⟩ := asks_of_mem_demands hskip hdemand
      obtain ⟨c, hc, hmem⟩ := exists_constant huse
      refine ⟨c, hc, ?_⟩
      intro v context
      rw [linksProvider_loadAll]
      exact hcandid.finds_linksProvider hequips hm hmem v context
    | call t k' context =>
      obtain ⟨rfl, e, he, rfl, -, hanswers⟩ := exists_callee hlocal hresolves hd hskip hdemand
      have hcallee := toMapper_mem hms he
      refine ⟨id, ?_⟩
      by_cases hkind : Lookup.method ∈ kinds
      · obtain ⟨hanswerable, hnodup⟩ := hmethods hkind
        refine ⟨_, hcallee, w.get?_loadAll hnodup hcallee, ?_⟩
        intro _
        have hskip' : (planned reg g e).descriptor.skips k' = false := hanswers hanswerable
        simp [Plan.method?_toMapper, hskip']
      · -- another mapper of the same name may have been loaded later, but then that one is found
        obtain ⟨m', hm', hget⟩ := w.exists_get?_loadAll hcallee
        exact ⟨m', hm', hget, fun h => absurd h hkind⟩

/-- In every method that is derived, a variable is used only where it is a parameter or declared
before on every path, and none is declared twice. So no run of a mapper ends for want of a variable,
a helper or a mapper, whatever the argument is, if there are helpers and links providers for all
constants and these do not fail so themselves. -/
theorem runs_find_names (hlocal : reg.IsLocal) (hms : reg.deriveAll g = .ok ms) :
    (∀ m ∈ ms, ∀ method ∈ m.methods, method.WellScoped) ∧
    ∀ w : World, w.Equips ms → w.Candid [.variable, .helper, .mapper] ms →
      ∀ m ∈ ms, ∀ k x, (w.loadAll ms).Runs m.type.qualifiedName k x →
        ¬ Misses .variable x ∧ ¬ Misses .helper x ∧ ¬ Misses .mapper x := by
  refine ⟨?_, ?_⟩
  · intro m hm method hmethod
    obtain ⟨d, -, rfl, -⟩ := exists_descriptor hms hm
    exact wellScoped_of_mem_methods _ hmethod
  · intro w hequips hcandid m hm k x hx
    have hsupports := World.supports_loadAll hlocal hms hcandid (fun _ => hequips)
      (fun h => absurd h (by decide))
    obtain ⟨m', hm', hget⟩ := w.exists_get?_loadAll hm
    have hfinds := hsupports.finds_of_runs hx hm' hget (fun h => absurd h (by decide))
    exact ⟨hfinds.not_misses (by decide), hfinds.not_misses (by decide),
      hfinds.not_misses (by decide)⟩

end Loaded

namespace Sample

/-! ### Mappers that find all names -/

def codec : JavaType := typeNamed ⟨"MottoCodec", by decide⟩

/-- The motto of a team, which a codec writes and reads. -/
def motto : AttributeMapping where
  model := { name := ⟨"motto", by decide⟩, type := none }
  wire := { name := ⟨"motto", by decide⟩, type := none }
  embedded := false
  conversion := .plain (some codec) (some codec)

/-- A team without a lead. -/
def mottos : Registry where
  registrations := [⟨team, false⟩]
  additions := [(team.representer, motto)]

theorem mottos_constants : ∀ m ∈ mappersOf mottos, ∀ c ∈ m.constants, c.type = codec := by
  decide

/-- A world with one helper and one links provider. -/
def codecWorld (f : Helper) : World :=
  (World.bindHelper {} codec.qualifiedName f).bindLinksProvider codec.qualifiedName
    fun _ _ => .ok []

theorem get?_helpers_codecWorld (f : Helper) :
    (codecWorld f).helpers.get? codec.qualifiedName = some f :=
  Entries.get?_insert_self _ _ _

theorem codecWorld_equips (f : Helper) : (codecWorld f).Equips (mappersOf mottos) := by
  intro m hm c hc
  rw [mottos_constants m hm c hc]
  exact ⟨⟨f, get?_helpers_codecWorld f⟩, _, Entries.get?_insert_self _ _ _⟩

theorem codecWorld_candid (kinds : List Lookup) :
    (codecWorld .ok).Candid kinds (mappersOf mottos) := by
  refine ⟨?_, ?_⟩
  · intro m hm c hc f hf v e he
    rw [mottos_constants m hm c hc, get?_helpers_codecWorld] at hf
    cases hf
    cases he
  · intro m hm c hc f hf v context e he
    rw [mottos_constants m hm c hc,
      show (codecWorld .ok).linksProviders.get? codec.qualifiedName = some fun _ _ => .ok [] from
        Entries.get?_insert_self _ _ _] at hf
    cases hf
    cases he

theorem runs_find_names_mottos :
    mottos.IsLocal ∧ mottos.deriveAll {} = .ok (mappersOf mottos) ∧
      (codecWorld .ok).Equips (mappersOf mottos) ∧
      (codecWorld .ok).Candid [.variable, .helper, .mapper] (mappersOf mottos) ∧
      ∀ v c, ¬ Misses .helper
        (((codecWorld .ok).loadAll (mappersOf mottos)).toJson "gen.com.TeamMapper" v c) := by
  have hlocal : mottos.IsLocal := by decide
  have hms : mottos.deriveAll {} = .ok (mappersOf mottos) := rfl
  have hequips := codecWorld_equips .ok
  have hcandid := codecWorld_candid [.variable, .helper, .mapper]
  have hteam : (Derive.planned mottos {} team).toMapper ∈ mappersOf mottos :=
    List.mem_singleton_self _
  refine ⟨hlocal, hms, hequips, hcandid, ?_⟩
  intro v c
  exact ((runs_find_names hlocal hms).2 _ hequips hcandid _ hteam .toJson _ (.toJson v c)).2.1

end Sample

end JsonMapping
