import JsonMapping.Proofs.Registry.History
import JsonMapping.Proofs.Run.Contexts
import JsonMapping.Proofs.Run.Refilling

/-! A set that is registered twice. The second time no descriptor changes, but every attribute is
added again. So the plans have all attributes twice, the mappers do everything for them twice, and
nothing else comes of it. The main statement is `registering_twice_is_harmless`. -/

namespace JsonMapping

open Derive

/-! ## Registries -/

namespace Registry

/-- The second registry knows the same descriptors and has all attributes twice. -/
structure Doubles (reg reg' : Registry) : Prop where
  registrations : reg'.registrations = reg.registrations
  additions : reg'.additions = reg.additions ++ reg.additions

variable {reg reg' : Registry} {es : List DescriptorEntry}

/-- An entry whose model is known adds its attributes only. -/
theorem addEntry_of_known {e : DescriptorEntry} {r : Registration}
    (hr : reg.registration? e.id = some r) (hmodel : r.descriptor.model = e.descriptor.model) :
    reg.addEntry e = .ok (e.attributes.foldl (·.addAttribute e.id ·) reg) := by
  have hregister : reg.register e.descriptor e.external = .ok reg := by
    rw [register_of_some e.external hr, if_pos hmodel]
  rw [addEntry, hregister]
  rfl

theorem foldlM_addEntry_of_known
    (h : ∀ e ∈ es, ∃ r, reg.registration? e.id = some r ∧
      r.descriptor.model = e.descriptor.model) :
    ∃ reg', es.foldlM addEntry reg = .ok reg' ∧ reg'.registrations = reg.registrations ∧
      reg'.additions = reg.additions ++ entryAdditions es := by
  induction es generalizing reg with
  | nil => exact ⟨reg, rfl, rfl, by simp [entryAdditions]⟩
  | cons e rest ih =>
    obtain ⟨⟨r, hr, hmodel⟩, hrest⟩ := List.forall_mem_cons.mp h
    obtain ⟨hkept, hmore⟩ := foldl_addAttribute reg e.id e.attributes
    have hfound : ∀ id, (e.attributes.foldl (·.addAttribute e.id ·) reg).registration? id =
        reg.registration? id := by
      intro id
      rw [registration?, hkept, ← registration?]
    obtain ⟨reg', hfold, hregistrations, hadditions⟩ := ih fun e' he' => by
      rw [hfound]
      exact hrest e' he'
    refine ⟨reg', ?_, hregistrations.trans hkept, ?_⟩
    · rw [List.foldlM_cons, addEntry_of_known hr hmodel, ok_bind, hfold]
    · rw [hadditions, hmore]
      simp [entryAdditions]

theorem additions_of_ofSet {set : DescriptorSet} (h : ofSet set = .ok reg) :
    reg.additions = entryAdditions set.entries := by
  have hcalls := (ofSet_eq_changed set).symm.trans h
  rw [eq_after_of_changed hcalls, additions_after, DescriptorSet.calls, entryAdditions,
    List.filterMap_flatMap]
  refine List.flatMap_congr fun e _ => ?_
  rw [DescriptorEntry.calls, List.filterMap_cons_none rfl]
  simp [RegistryCall.adds?, List.filterMap_map, Function.comp_def]

/-- A set that can be registered can be registered again. -/
theorem exists_ofSet_twice {set : DescriptorSet} (h : ofSet set = .ok reg) :
    ∃ reg', ofSet ⟨set.entries ++ set.entries⟩ = .ok reg' ∧ reg.Doubles reg' := by
  have hknown : ∀ e ∈ set.entries, ∃ r, reg.registration? e.id = some r ∧
      r.descriptor.model = e.descriptor.model := by
    intro e he
    obtain ⟨first, hfirst⟩ : ∃ first, set.entries.find? (·.id = e.id) = some first := by
      rw [← Option.isSome_iff_exists, List.find?_isSome]
      exact ⟨e, he, by simp⟩
    refine ⟨⟨first.descriptor, first.external⟩, ?_, model_eq_of_foldlM_addEntry h he hfirst⟩
    rw [registration?_foldlM_addEntry h, hfirst]
    rfl
  obtain ⟨reg', hfold, hregistrations, hadditions⟩ := foldlM_addEntry_of_known hknown
  refine ⟨reg', ?_, hregistrations, ?_⟩
  · rw [ofSet, List.foldlM_append]
    exact (congrArg (· >>= _) h).trans hfold
  · rw [hadditions, additions_of_ofSet h]

namespace Doubles

variable (h : reg.Doubles reg')
include h

theorem attributesOf_eq (id : RepresenterId) :
    reg'.attributesOf id = reg.attributesOf id ++ reg.attributesOf id := by
  rw [attributesOf, h.additions, List.filterMap_append, ← attributesOf]

theorem registration?_eq (id : RepresenterId) : reg'.registration? id = reg.registration? id := by
  rw [registration?, h.registrations, ← registration?]

theorem localDescriptors_eq : reg'.localDescriptors = reg.localDescriptors := by
  rw [localDescriptors, h.registrations, ← localDescriptors]

end Doubles

end Registry

/-! ## Plans -/

namespace Derive

/-- The plan with all attributes twice. -/
def Plan.doubled (p : Plan) : Plan := { p with attributes := p.attributes ++ p.attributes }

variable {reg reg' : Registry} {g : GeneratorSettings} {p : Plan}

theorem planned_of_doubles (h : reg.Doubles reg') (d : Descriptor) :
    planned reg' g d = (planned reg g d).doubled := by
  have hmodel : ∀ id, reg'.modelOf id = reg.modelOf id := by
    intro id
    rw [Registry.modelOf, Registry.modelOf, Registry.resolve?, Registry.resolve?,
      h.registration?_eq]
  have hdispatch : plannedDispatch reg' g = plannedDispatch reg g := by
    funext x
    have hvariant : plannedVariant reg' g = plannedVariant reg g := by
      funext v
      rw [plannedVariant, plannedVariant, hmodel]
    rw [plannedDispatch, plannedDispatch, hvariant]
  rw [Plan.doubled, planned, planned, h.attributesOf_eq, List.map_append, hdispatch]

theorem fault?_of_doubles (h : reg.Doubles reg') (d : Descriptor) :
    reg'.fault? g d = reg.fault? g d := by
  have hcontains : ∀ id, reg'.contains id = reg.contains id := by
    intro id
    rw [Registry.contains, Registry.contains, h.registration?_eq]
  have hnested : reg'.nestedFault? d.representer = reg.nestedFault? d.representer := by
    funext m
    simp only [Registry.nestedFault?, hcontains]
  rw [Registry.fault?, Registry.fault?, hcontains, hnested, h.attributesOf_eq,
    List.findSome?_append, Option.or_self,
    Registry.firstVariantFault?_congr fun v _ => hcontains v.representer]

theorem deriveAll_eq_okUnless (reg : Registry) (g : GeneratorSettings) :
    reg.deriveAll g = okUnless (reg.localDescriptors.map fun d => (planned reg g d).toMapper)
      (reg.localDescriptors.findSome? (reg.fault? g)) :=
  mapM_okUnless (derive_eq_okUnless reg g) _

/-- The mappers are derived as before, but for plans that are doubled. -/
theorem deriveAll_of_doubles (h : reg.Doubles reg') (g : GeneratorSettings) :
    reg'.deriveAll g =
      okUnless (reg.localDescriptors.map fun d => (planned reg g d).doubled.toMapper)
        (reg.localDescriptors.findSome? (reg.fault? g)) := by
  rw [deriveAll_eq_okUnless, h.localDescriptors_eq]
  simp only [planned_of_doubles h, funext (fault?_of_doubles h)]

/-! ## Constants -/

theorem foldl_declareHelper_of_known {table : List Constant} {uses : List HelperUse}
    (h : ∀ use ∈ uses, ∃ c ∈ table, c.type = use.1) : uses.foldl declareHelper table = table := by
  induction uses with
  | nil => rfl
  | cons use rest ih =>
    obtain ⟨hfirst, hrest⟩ := List.forall_mem_cons.mp h
    obtain ⟨c, hc, htype⟩ := hfirst
    have hany : table.any (·.type = use.1) = true := List.any_eq_true.mpr ⟨c, hc, by simpa⟩
    rw [List.foldl_cons, declareHelper, if_pos hany]
    exact ih hrest

/-- Uses that come again declare nothing. -/
theorem foldl_declareHelper_self (table : List Constant) (uses : List HelperUse) :
    uses.foldl declareHelper (uses.foldl declareHelper table) = uses.foldl declareHelper table :=
  foldl_declareHelper_of_known fun _ huse => exists_type_foldl_declareHelper huse

namespace Plan

theorem plainAttributes_doubled (p : Plan) :
    p.doubled.plainAttributes = p.plainAttributes ++ p.plainAttributes :=
  List.filter_append ..

theorem embeddedAttributes_doubled (p : Plan) :
    p.doubled.embeddedAttributes = p.embeddedAttributes ++ p.embeddedAttributes :=
  List.filter_append ..

theorem foldl_writingUses_doubled (p : Plan) (table : List Constant) :
    p.doubled.writingUses.foldl declareHelper table =
      p.writingUses.foldl declareHelper table := by
  rw [writingUses, writingUses, plainAttributes_doubled, embeddedAttributes_doubled]
  simp only [List.filterMap_append, List.foldl_append, foldl_declareHelper_self]
  rfl

theorem foldl_readingUses_doubled (p : Plan) (table : List Constant) :
    p.doubled.readingUses.foldl declareHelper table =
      p.readingUses.foldl declareHelper table := by
  have hdescriptor : p.doubled.descriptor = p.descriptor := rfl
  unfold readingUses
  rw [hdescriptor]
  cases p.descriptor.customDeserializer with
  | some t => rfl
  | none =>
    have hattributes : p.doubled.attributes = p.attributes ++ p.attributes := rfl
    dsimp only
    rw [hattributes, List.filterMap_append, List.foldl_append, foldl_declareHelper_self]

theorem constants_doubled (p : Plan) : p.doubled.constants = p.constants := by
  have hdescriptor : p.doubled.descriptor = p.descriptor := rfl
  rw [constants, constants, constantsFor, constantsFor, helperUses, helperUses, hdescriptor,
    List.foldl_append, List.foldl_append]
  split <;> split <;>
    simp only [List.foldl_nil, foldl_writingUses_doubled, foldl_readingUses_doubled]

end Plan

end Derive

/-! ## Methods -/

/-- The statements run in the same way from all variables. -/
def Stmt.SameRuns (s : Scope) (xs ys : List Stmt) : Prop := ∀ f, execAll s f xs = execAll s f ys

namespace Stmt.SameRuns

variable {s : Scope} {xs ys xs' ys' : List Stmt}

theorem refl (s : Scope) (xs : List Stmt) : SameRuns s xs xs := fun _ => rfl

theorem append (hx : SameRuns s xs xs') (hy : SameRuns s ys ys') :
    SameRuns s (xs ++ ys) (xs' ++ ys') := by
  intro f
  rw [execAll_append, execAll_append, hx f]
  refine bind_congr fun flow => ?_
  cases flow with
  | next g => exact hy g
  | done result => rfl

theorem cons (stmt : Stmt) (h : SameRuns s xs xs') : SameRuns s (stmt :: xs) (stmt :: xs') :=
  append (refl s [stmt]) h

end Stmt.SameRuns

namespace Derive

open Stmt

variable {s : Scope} {p : Plan}

theorem hasEmbedded_doubled (p : Plan) : p.doubled.hasEmbedded = p.hasEmbedded := by
  rw [Plan.hasEmbedded, Plan.doubled, List.any_append, Bool.or_self, Plan.hasEmbedded]

theorem sameRuns_putEmbedded (table : List Constant) :
    SameRuns s (putEmbedded table p.doubled) (putEmbedded table p) := by
  unfold putEmbedded
  rw [hasEmbedded_doubled, p.embeddedAttributes_doubled, List.map_append]
  split
  · exact .append (.cons _ (fills_putValues (by simp) _).execAll_twice) (.refl s _)
  · exact .refl s _

theorem sameRuns_toJsonBody (table : List Constant) :
    SameRuns s (toJsonBody table p.doubled) (toJsonBody table p) := by
  have hplain : SameRuns s (p.doubled.plainAttributes.map (putValue table .json))
      (p.plainAttributes.map (putValue table .json)) := by
    rw [p.plainAttributes_doubled, List.map_append]
    exact (fills_putValues (by simp) _).execAll_twice
  have hstart : SameRuns s (.declare .json .container .newContainer :: putLinks table p.doubled)
      (.declare .json .container .newContainer :: putLinks table p) := .refl s _
  exact (((hstart.append hplain).append (sameRuns_putEmbedded table)).append (.refl s _)).append
    (.refl s _)

theorem sameRuns_fromJsonBody (table : List Constant) :
    SameRuns s (fromJsonBody table p.doubled) (fromJsonBody table p) := by
  have hdescriptor : p.doubled.descriptor = p.descriptor := rfl
  refine .cons _ ?_
  unfold readModel
  rw [hdescriptor]
  split
  · exact .refl s _
  · have hfind : findEmbedded p.doubled = findEmbedded p := by
      rw [findEmbedded, findEmbedded, hasEmbedded_doubled]
    have hsets : SameRuns s (p.doubled.attributes.map (setValue table))
        (p.attributes.map (setValue table)) := by
      rw [show p.doubled.attributes = p.attributes ++ p.attributes from rfl, List.map_append]
      exact (fills_setValues _).execAll_twice
    rw [hfind]
    exact ((SameRuns.refl s (makeModel p ++ findEmbedded p)).append hsets).append (.refl s _)

/-- A method does the same with all attributes twice. -/
theorem run_method_doubled (s : Scope) (p : Plan) (k : MethodKind) (args : List Value)
    (context : Option RequestContext) :
    (p.doubled.method k).run s args context = (p.method k).run s args context := by
  have hrun : ∀ m m' : Method, m'.params = m.params → SameRuns s m'.body m.body →
      m'.run s args context = m.run s args context := by
    intro m m' hparams hbody
    rw [Method.run, Method.run, hparams, hbody]
  cases k with
  | toJson =>
    refine hrun _ _ rfl ?_
    rw [Plan.method, toJsonMethod, p.constants_doubled]
    exact sameRuns_toJsonBody _
  | fromJson =>
    refine hrun _ _ rfl ?_
    rw [Plan.method, fromJsonMethod, p.constants_doubled]
    exact sameRuns_fromJsonBody _
  | toJsonCollection | fromJsonCollection => rfl

end Derive

/-! ## Worlds -/

/-- The mappers are the same, or the second is the first with all attributes twice. -/
def Mapper.Doubles (m m' : Mapper) : Prop :=
  m' = m ∨ ∃ p : Plan, m = p.toMapper ∧ m' = p.doubled.toMapper

/-- Scopes that differ in the mappers of their worlds answer alike, if they hand on the same calls
and look in the same constants. -/
theorem World.SameBindings.alike {w w' : World} (hw : w.SameBindings w') {m m' : Mapper}
    (hconstants : m'.constants = m.constants) (call : Caller) (d : Demand) :
    Scope.Alike Eq ⟨w, m, call⟩ ⟨w', m', call⟩ d := by
  have htype : ∀ c, Scope.constantType ⟨w', m', call⟩ c = Scope.constantType ⟨w, m, call⟩ c := by
    intro c
    simp only [Scope.constantType, Mapper.constant?, hconstants]
  cases d with
  | helper c =>
    rw [Scope.Alike, htype]
    exact bind_congr fun t => hw.helper_eq t
  | links c =>
    rw [Scope.Alike, htype, funext hw.linksProvider_eq]
    refine .bind_same fun t => ?_
    cases w.linksProvider t with
    | ok p => exact .ok fun v a b hab => by rw [hab]
    | error e => exact .error e
  | call t k context =>
    intro args x y hxy
    cases hxy with
    | none => rfl
    | some hab => rw [hab]

namespace World

/-- The worlds differ in doubled mappers only. -/
structure Doubles (w w' : World) : Prop extends w.SameBindings w' where
  keys : w'.mappers.keys = w.mappers.keys
  mappers : ∀ name, Option.Rel Mapper.Doubles (w.mappers.get? name) (w'.mappers.get? name)

namespace Doubles

variable {w w' : World}

theorem runMethod_eq (h : w.Doubles w') (call : Caller) {m m' : Mapper} (hm : m.Doubles m')
    (k : MethodKind) (args : List Value) (context : Option RequestContext) :
    w'.runMethod call m' k args context = w.runMethod call m k args context := by
  have hcontext : Option.Rel Eq context context := by
    cases context with
    | none => exact .none
    | some c => exact .some rfl
  obtain rfl | ⟨p, rfl, rfl⟩ := hm
  · unfold runMethod
    cases hmethod : m'.method? k with
    | none => rfl
    | some method =>
      exact Method.run_related h.defaults method args hcontext fun d _ => h.alike rfl call d
  · unfold runMethod
    rw [Plan.method?_toMapper, Plan.method?_toMapper,
      show p.doubled.descriptor = p.descriptor from rfl]
    cases p.descriptor.skips k with
    | true => rfl
    | false =>
      refine (run_method_doubled _ p k args context).trans ?_
      exact Method.run_related h.defaults (p.method k) args hcontext
        fun d _ => h.alike p.constants_doubled call d

theorem simulates (h : w.Doubles w') :
    w.Simulates (fun _ => True) (fun _ => True) Eq Mapper.Doubles w' where
  mappers name _ := h.mappers name
  runMethod call call' hcall m m' hm k _ args x y hxy := by
    obtain rfl : call' = call :=
      funext₂ fun t k => funext₂ fun args x => hcall t trivial k trivial args x x rfl
    subst hxy
    exact h.runMethod_eq call' hm k args x

theorem runWithin_eq (h : w.Doubles w') (depth : Nat) (name : String) (k : MethodKind) (v : Value)
    (context : Option RequestContext) :
    w'.runWithin depth name k v context = w.runWithin depth name k v context :=
  h.simulates.runWithin_eq depth trivial trivial v rfl

theorem run_eq (h : w.Doubles w') (name : String) (k : MethodKind) (v : Value)
    (context : Option RequestContext) : w'.run name k v context = w.run name k v context := by
  have hlength : w'.mappers.length = w.mappers.length := by
    simpa [Entries.keys] using congrArg List.length h.keys
  exact h.simulates.run_eq hlength trivial trivial v rfl

theorem refl (w : World) : w.Doubles w where
  helpers := rfl
  linksProviders := rfl
  defaults := rfl
  keys := rfl
  mappers name := by
    cases w.mappers.get? name with
    | none => exact .none
    | some m => exact .some (.inl rfl)

theorem load (h : w.Doubles w') (p : Plan) :
    (w.load p.toMapper).Doubles (w'.load p.doubled.toMapper) where
  helpers := h.helpers
  linksProviders := h.linksProviders
  defaults := h.defaults
  keys := by
    have htype : p.doubled.toMapper.type = p.toMapper.type := rfl
    rw [World.load, World.load, Entries.keys_insert, Entries.keys_insert, h.keys, htype]
  mappers name := by
    rw [World.load, World.load, Entries.get?_insert, Entries.get?_insert]
    by_cases hname : p.toMapper.type.qualifiedName = name
    · have hname' : p.doubled.toMapper.type.qualifiedName = name := hname
      rw [if_pos hname, if_pos hname']
      exact .some (.inr ⟨p, rfl, rfl⟩)
    · have hname' : ¬ p.doubled.toMapper.type.qualifiedName = name := hname
      rw [if_neg hname, if_neg hname']
      exact h.mappers name

theorem loadAll (h : w.Doubles w') (ps : List Plan) :
    (w.loadAll (ps.map (·.toMapper))).Doubles (w'.loadAll (ps.map (·.doubled.toMapper))) := by
  induction ps generalizing w w' with
  | nil => exact h
  | cons p rest ih => exact ih (h.load p)

end Doubles

end World

/-- A set that can be registered can be registered twice, which gives every representer its
attributes twice. The mappers can be derived from the one if they can from the other, and with the
same error if not. They have the same names and the same constants, and wherever they are loaded,
beside whatever else, each run of whatever mapper ends in the same way with both. -/
theorem registering_twice_is_harmless (set : DescriptorSet) {reg : Registry}
    (h : Registry.ofSet set = .ok reg) :
    ∃ reg', Registry.ofSet ⟨set.entries ++ set.entries⟩ = .ok reg' ∧
      (∀ id, reg'.attributesOf id = reg.attributesOf id ++ reg.attributesOf id) ∧
      ∀ g, (∀ e, reg'.deriveAll g = .error e ↔ reg.deriveAll g = .error e) ∧
        ∀ ms, reg.deriveAll g = .ok ms → ∃ ms', reg'.deriveAll g = .ok ms' ∧
          ms'.map (·.type) = ms.map (·.type) ∧ ms'.map (·.constants) = ms.map (·.constants) ∧
          ∀ (w : World) name v,
            (∀ c, (w.loadAll ms').toJson name v c = (w.loadAll ms).toJson name v c) ∧
            (∀ c, (w.loadAll ms').toJsonList name v c = (w.loadAll ms).toJsonList name v c) ∧
            (w.loadAll ms').fromJson name v = (w.loadAll ms).fromJson name v ∧
            (w.loadAll ms').fromJsonList name v = (w.loadAll ms).fromJsonList name v ∧
            ∀ depth k context, (w.loadAll ms').runWithin depth name k v context =
              (w.loadAll ms).runWithin depth name k v context := by
  obtain ⟨reg', hreg', hdoubles⟩ := Registry.exists_ofSet_twice h
  refine ⟨reg', hreg', hdoubles.attributesOf_eq, fun g => ?_⟩
  have honce := deriveAll_eq_okUnless reg g
  have htwice := deriveAll_of_doubles hdoubles g
  constructor
  · intro e
    rw [honce, htwice]
    cases reg.localDescriptors.findSome? (reg.fault? g) <;> simp [okUnless]
  · intro ms hms
    rw [honce] at hms
    obtain ⟨hfault, rfl⟩ := okUnless_eq_ok.mp hms
    rw [hfault] at htwice
    refine ⟨_, htwice, ?_, ?_, fun w name v => ?_⟩
    · rw [List.map_map, List.map_map]
      rfl
    · rw [List.map_map, List.map_map]
      exact List.map_congr_left fun d _ => (planned reg g d).constants_doubled
    · have hworlds := (World.Doubles.refl w).loadAll (reg.localDescriptors.map (planned reg g))
      rw [List.map_map, List.map_map] at hworlds
      exact ⟨fun c => hworlds.run_eq name .toJson v (some c),
        fun c => hworlds.run_eq name .toJsonCollection v (some c),
        hworlds.run_eq name .fromJson v none, hworlds.run_eq name .fromJsonCollection v none,
        fun depth k context => hworlds.runWithin_eq depth name k v context⟩

namespace Sample

def teamSet : DescriptorSet := ⟨[teamEntry, userEntry]⟩

/-- The team of the set that is registered twice has its lead twice, and is written as before. -/
theorem registering_twice_is_harmless_teams :
    ∃ reg reg' ms ms', Registry.ofSet teamSet = .ok reg ∧
      Registry.ofSet ⟨[teamEntry, userEntry, teamEntry, userEntry]⟩ = .ok reg' ∧
      reg'.attributesOf team.representer = [lead, lead] ∧
      reg.deriveAll {} = .ok ms ∧ reg'.deriveAll {} = .ok ms' ∧
      ∀ v c, (World.loadAll {} ms').toJson "gen.com.TeamMapper" v c =
        (World.loadAll {} ms).toJson "gen.com.TeamMapper" v c := by
  have hset : Registry.ofSet teamSet = .ok _ := rfl
  obtain ⟨reg', hreg', hattributes, hderive⟩ := registering_twice_is_harmless teamSet hset
  obtain ⟨-, hmappers⟩ := hderive {}
  obtain ⟨ms', hms', -, -, hruns⟩ := hmappers _ rfl
  exact ⟨_, reg', _, ms', hset, hreg', hattributes team.representer, rfl, hms',
    fun v => (hruns {} "gen.com.TeamMapper" v).1⟩

end Sample

end JsonMapping
