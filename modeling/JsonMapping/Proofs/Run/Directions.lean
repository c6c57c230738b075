import JsonMapping.Proofs.Derive.Faults
import JsonMapping.Proofs.Graph.Loaded
import JsonMapping.Proofs.Run.Bodies
import JsonMapping.Proofs.Run.Renaming
import JsonMapping.Proofs.Run.Simulation
import JsonMapping.Proofs.Scope.Worlds

/-! Mappers that skip a direction. The methods of the other direction then have other names for
their constants and are the same besides, and methods call methods of their own direction only. So
in any world of derived mappers a direction that a mapper keeps goes on as if the mapper kept both.
The main statement is `skips_remove_their_pair`. -/

namespace JsonMapping

/-- The descriptor with other flags. -/
def Descriptor.skipping (d : Descriptor) (serialize deserialize : Bool) : Descriptor :=
  { d with skipSerialize := serialize, skipDeserialize := deserialize }

namespace Derive

/-! ## Constants under other names -/

/-- The name in one table of what a name stands for in another. -/
def translate (table table' : List Constant) (name : String) : String :=
  ((table.find? (·.name == name)).map fun c => constantName table' c.type).getD name

theorem translate_constantName {uses : List HelperUse} {use : HelperUse} (h : use ∈ uses)
    (table' : List Constant) :
    translate (constantsFor uses) table' (constantName (constantsFor uses) use.1) =
      constantName table' use.1 := by
  obtain ⟨c, hc, ht⟩ := find?_constantName h
  rw [translate, hc, ← ht]
  rfl

section Bodies

variable {names : String → String} {table table' : List Constant} {p : Plan}

theorem rename_writeValue {a : PlannedAttribute} (ha : a ∈ p.attributes)
    (h : ∀ use ∈ p.writingUses, names (constantName table use.1) = constantName table' use.1) :
    (writeValue table a).rename names = writeValue table' a := by
  unfold writeValue
  cases ht : a.transfer with
  | plain serializer deserializer =>
    cases serializer with
    | none => rfl
    | some t => simp only [Expr.rename, h _ (Plan.serializer_mem_writingUses ha ht)]
  | single mapper | collection mapper => rfl

theorem rename_putValues {as : List PlannedAttribute} (has : as ⊆ p.attributes) (target : Var)
    (h : ∀ use ∈ p.writingUses, names (constantName table use.1) = constantName table' use.1) :
    (as.map (putValue table target)).map (Stmt.rename names) = as.map (putValue table' target) := by
  rw [List.map_map]
  refine List.map_congr_left fun a ha => ?_
  simp only [Function.comp_apply, putValue, Stmt.rename, rename_writeValue (has ha) h]

theorem rename_putLinks
    (h : ∀ use ∈ p.writingUses, names (constantName table use.1) = constantName table' use.1) :
    (putLinks table p).map (Stmt.rename names) = putLinks table' p := by
  unfold putLinks
  cases hl : p.links with
  | none => rfl
  | some t =>
    simp only [List.map_cons, List.map_nil, Stmt.rename, Expr.rename,
      h _ (Plan.linksProvider_mem_writingUses hl)]

theorem rename_putEmbedded
    (h : ∀ use ∈ p.writingUses, names (constantName table use.1) = constantName table' use.1) :
    (putEmbedded table p).map (Stmt.rename names) = putEmbedded table' p := by
  have hputs : (p.embeddedAttributes.map (putValue table .embeddedMap)).map (Stmt.rename names) =
      p.embeddedAttributes.map (putValue table' .embeddedMap) :=
    rename_putValues (List.filter_subset_self _) .embeddedMap h
  unfold putEmbedded
  split
  · simp only [List.map_append, List.map_cons, hputs]
    rfl
  · rfl

theorem rename_putVariants : (putVariants p).map (Stmt.rename names) = putVariants p := by
  unfold putVariants
  cases p.dispatch with
  | none => rfl
  | some x =>
    simp only [List.map_map]
    refine List.map_congr_left fun v _ => ?_
    simp only [Function.comp_apply, putVariant]
    cases x.nestedAttribute <;> rfl

theorem rename_toJsonMethod
    (h : ∀ use ∈ p.writingUses, names (constantName table use.1) = constantName table' use.1) :
    (toJsonMethod table p).rename names = toJsonMethod table' p := by
  have hplain : (p.plainAttributes.map (putValue table .json)).map (Stmt.rename names) =
      p.plainAttributes.map (putValue table' .json) :=
    rename_putValues (List.filter_subset_self _) .json h
  have hbody : (toJsonBody table p).map (Stmt.rename names) = toJsonBody table' p := by
    simp only [toJsonBody, List.map_append, List.map_cons, hplain, rename_putLinks h,
      rename_putEmbedded h, rename_putVariants]
    rfl
  simp only [Method.rename, toJsonMethod, writingMethod, hbody]

/-! ### Methods that read -/

theorem rename_readValue {a : PlannedAttribute} (hcustom : p.descriptor.customDeserializer = none)
    (ha : a ∈ p.attributes) {v : Var} {key : String}
    (h : ∀ use ∈ p.readingUses, names (constantName table use.1) = constantName table' use.1) :
    (readValue table a (.lookup v key)).rename names = readValue table' a (.lookup v key) := by
  have hcast : ∀ t : Option JavaType,
      (castTo t (.lookup v key)).rename names = castTo t (.lookup v key) := by
    intro t
    cases t <;> rfl
  unfold readValue
  cases ht : a.transfer with
  | plain serializer deserializer =>
    cases deserializer with
    | none => exact hcast _
    | some t =>
      simp only [Expr.rename, hcast, h _ (Plan.deserializer_mem_readingUses hcustom ha ht)]
  | single mapper | collection mapper => rfl

theorem rename_makeModel : (makeModel p).map (Stmt.rename names) = makeModel p := by
  unfold makeModel constructVariant
  cases p.dispatch with
  | none => rfl
  | some x =>
    have harms : Stmt.renameArms names (x.variants.map (readVariant x)) =
        x.variants.map (readVariant x) := by
      rw [Stmt.renameArms_eq_map, List.map_map]
      refine List.map_congr_left fun v _ => ?_
      simp only [Function.comp_apply, readVariant, variantSource]
      cases x.nestedAttribute <;> rfl
    simp only [List.map_cons, List.map_nil, Stmt.rename, harms]
    rfl

theorem rename_readModel
    (h : ∀ use ∈ p.readingUses, names (constantName table use.1) = constantName table' use.1) :
    (readModel table p).map (Stmt.rename names) = readModel table' p := by
  unfold readModel
  cases hcustom : p.descriptor.customDeserializer with
  | some t =>
    have huse : (t, .customDeserializer) ∈ p.readingUses := by simp [Plan.readingUses, hcustom]
    simp only [List.map_cons, List.map_nil, Stmt.rename, Expr.rename, h _ huse]
  | none =>
    have hsets : (p.attributes.map (setValue table)).map (Stmt.rename names) =
        p.attributes.map (setValue table') := by
      rw [List.map_map]
      refine List.map_congr_left fun a ha => ?_
      simp only [Function.comp_apply, setValue, Stmt.rename, Stmt.renameAll, Expr.rename,
        rename_readValue hcustom ha h]
    have hfind : (findEmbedded p).map (Stmt.rename names) = findEmbedded p := by
      unfold findEmbedded
      split <;> rfl
    simp only [List.map_append, rename_makeModel, hfind, hsets]
    rfl

theorem rename_fromJsonMethod
    (h : ∀ use ∈ p.readingUses, names (constantName table use.1) = constantName table' use.1) :
    (fromJsonMethod table p).rename names = fromJsonMethod table' p := by
  have hbody : (fromJsonBody table p).map (Stmt.rename names) = fromJsonBody table' p := by
    simp only [fromJsonBody, List.map_cons, rename_readModel h]
    rfl
  simp only [Method.rename, fromJsonMethod, readingMethod, hbody]

end Bodies

/-! ## Plans with other flags -/

namespace Plan

/-- The plan of the descriptor with other flags. -/
def skipping (p : Plan) (serialize deserialize : Bool) : Plan :=
  { p with descriptor := p.descriptor.skipping serialize deserialize }

variable {p q : Plan} {k : MethodKind}

/-- The plans differ at most in that `q` skips the other direction. -/
structure Keeps (p q : Plan) (writes : Bool) : Prop where
  flags : ∃ serialize deserialize, q = p.skipping serialize deserialize
  uses : q.helperUses ⊆ p.helperUses
  skips : ∀ k : MethodKind, k.writes = writes → q.descriptor.skips k = p.descriptor.skips k

theorem Keeps.refl (p : Plan) (writes : Bool) : p.Keeps p writes where
  flags := ⟨p.descriptor.skipSerialize, p.descriptor.skipDeserialize, rfl⟩
  uses := List.Subset.refl _
  skips _ _ := rfl

theorem keeps_skipping {serialize deserialize : Bool}
    (hk : (p.descriptor.skipping serialize deserialize).skips k = false) :
    (p.skipping false false).Keeps (p.skipping serialize deserialize) k.writes where
  flags := ⟨serialize, deserialize, rfl⟩
  uses := by
    intro use huse
    have hwriting : (p.skipping serialize deserialize).writingUses =
      (p.skipping false false).writingUses := rfl
    have hreading : (p.skipping serialize deserialize).readingUses =
      (p.skipping false false).readingUses := rfl
    rw [helperUses, hwriting, hreading] at huse
    rcases List.mem_append.mp huse with huse | huse
    · refine mem_helperUses_of_writing rfl ?_
      split at huse
      · cases huse
      · exact huse
    · refine mem_helperUses_of_reading rfl ?_
      split at huse
      · cases huse
      · exact huse
  skips k' hk' := by
    have hnone : (p.skipping false false).descriptor.skips k' = false := by cases k' <;> rfl
    rw [hnone]
    exact (skips_congr hk').trans hk

/-- Where a direction is kept, its methods differ in the names of constants only. -/
theorem Keeps.rename_method (h : p.Keeps q k.writes) (hs : q.descriptor.skips k = false) :
    (q.method k).rename (translate q.constants p.constants) = p.method k := by
  have hnames : ∀ use ∈ q.helperUses,
      translate q.constants p.constants (constantName q.constants use.1) =
        constantName p.constants use.1 := fun use huse => translate_constantName huse _
  obtain ⟨a, b, rfl⟩ := h.flags
  cases k with
  | toJson =>
    exact rename_toJsonMethod fun use huse => hnames use (mem_helperUses_of_writing hs huse)
  | fromJson =>
    exact rename_fromJsonMethod fun use huse => hnames use (mem_helperUses_of_reading hs huse)
  | toJsonCollection | fromJsonCollection => rfl

end Plan

end Derive

/-! ## Worlds -/

open Derive

/-- The first mapper keeps a direction of the second, and both have it from one plan. -/
def Mapper.Keeps (writes : Bool) (m n : Mapper) : Prop :=
  ∃ p q : Plan, p.Keeps q writes ∧ m = p.toMapper ∧ n = q.toMapper

theorem Mapper.Keeps.type_eq {writes : Bool} {m n : Mapper} (h : Mapper.Keeps writes m n) :
    n.type = m.type := by
  obtain ⟨p, q, hkeeps, rfl, rfl⟩ := h
  obtain ⟨_, _, rfl⟩ := hkeeps.flags
  rfl

namespace World

/-- The worlds differ at most in that mappers of the second skip the other direction. -/
structure Keeps (writes : Bool) (w w' : World) : Prop extends w.SameBindings w' where
  length : w'.mappers.length = w.mappers.length
  mappers : ∀ name, Option.Rel (Mapper.Keeps writes) (w.mappers.get? name) (w'.mappers.get? name)

variable {w w' : World} {k : MethodKind}

theorem runMethod_eq_of_keeps {call call' : Caller} (hw : w.SameBindings w')
    (hcall : ∀ t k', k'.writes = k.writes → call' t k' = call t k') {m n : Mapper}
    (h : Mapper.Keeps k.writes m n) (args : List Value) (context : Option RequestContext) :
    w'.runMethod call' n k args context = w.runMethod call m k args context := by
  have htype := h.type_eq
  obtain ⟨p, q, hkeeps, rfl, rfl⟩ := h
  unfold runMethod
  rw [Plan.method?_toMapper, Plan.method?_toMapper, ← hkeeps.skips k rfl]
  cases hs : q.descriptor.skips k with
  | true => simp [htype]
  | false =>
    have hw' : w'.SameBindings w := ⟨hw.helpers.symm, hw.linksProviders.symm, hw.defaults.symm⟩
    have hanswers : ∀ d ∈ (q.method k).demands,
        (q.scope w' call').Answers (translate q.constants p.constants) (p.scope w call) d := by
      intro d hd
      have hasks := asks_of_mem_demands hs hd
      cases d with
      | helper c | links c =>
        obtain ⟨use, huse, rfl⟩ := hasks
        have hnew := q.constantType_constantName w' call' huse
        have hold := p.constantType_constantName w call (hkeeps.uses huse)
        rw [← translate_constantName huse] at hold
        exact hold.trans hnew.symm
      -- calls stay within the direction
      | call t k' context => exact (hcall t k' hasks.1).symm
    have hrun := Method.run_rename hw' (q.method k) args context hanswers
    rw [hkeeps.rename_method hs] at hrun
    exact hrun.symm

theorem Keeps.simulates {writes : Bool} (h : w.Keeps writes w') :
    w.Simulates (fun _ => True) (·.writes = writes) Eq (Mapper.Keeps writes) w' where
  mappers name _ := h.mappers name
  runMethod call call' hcall m m' hm k hk args x y hxy := by
    subst hk hxy
    refine runMethod_eq_of_keeps h.toSameBindings (fun t k' hk' => ?_) hm args x
    exact funext₂ fun args x => hcall t trivial k' hk' args x x rfl

theorem Keeps.runWithin_eq (h : w.Keeps k.writes w') (depth : Nat) (name : String) (v : Value)
    (context : Option RequestContext) :
    w'.runWithin depth name k v context = w.runWithin depth name k v context :=
  h.simulates.runWithin_eq depth trivial rfl v rfl

theorem Keeps.run_eq (h : w.Keeps k.writes w') (name : String) (v : Value)
    (context : Option RequestContext) : w'.run name k v context = w.run name k v context :=
  h.simulates.run_eq h.length trivial rfl v rfl

/-- Whatever mapper is found is derived from some registry with some settings. -/
def IsDerived (w : World) : Prop :=
  ∀ name m, w.mappers.get? name = some m → ∃ reg g d, Registry.derive reg g d = .ok m

theorem IsDerived.keeps_load (hw : w.IsDerived) {writes : Bool} {u u' : Mapper} (hu : w.Holds u)
    (h : Mapper.Keeps writes u u') : w.Keeps writes (w.load u') where
  helpers := rfl
  linksProviders := rfl
  defaults := rfl
  length := by
    -- the name is taken, so the bound on the depth of runs does not move
    have hmem : u'.type.qualifiedName ∈ w.mappers.keys := by
      by_contra hnot
      have hnone := Entries.get?_eq_none_of_not_mem hnot
      rw [h.type_eq, hu] at hnone
      cases hnone
    have hkeys : (w.load u').mappers.keys = w.mappers.keys := by
      rw [load, Entries.keys_insert, if_pos hmem]
    simpa [Entries.keys] using congrArg List.length hkeys
  mappers name := by
    by_cases hname : u'.type.qualifiedName = name
    · subst hname
      have hget : w.mappers.get? u'.type.qualifiedName = some u := by rw [h.type_eq]; exact hu
      rw [hget, load, Entries.get?_insert_self]
      exact .some h
    · rw [load, Entries.get?_insert_of_ne hname]
      cases hget : w.mappers.get? name with
      | none => exact .none
      | some m =>
        obtain ⟨reg, g, d, hm⟩ := hw name m hget
        obtain ⟨rfl, -⟩ := derive_ok hm
        exact .some ⟨_, _, .refl _ writes, rfl, rfl⟩

end World

/-- What a descriptor skips is left out of its mapper, and nothing else changes: not whether there
is a mapper or why not, and in no world of derived mappers what a run of a direction that is kept
gives, of whatever mapper. -/
theorem skips_remove_their_pair (reg : Registry) (g : GeneratorSettings) (d : Descriptor)
    (serialize deserialize : Bool) :
    (∀ e, reg.derive g (d.skipping false false) = .error e ↔
      reg.derive g (d.skipping serialize deserialize) = .error e) ∧
    ∀ u u', reg.derive g (d.skipping false false) = .ok u →
      reg.derive g (d.skipping serialize deserialize) = .ok u' →
      u'.type = u.type ∧
      u'.methods.map (·.kind) =
        (if serialize then [] else [.toJson, .toJsonCollection]) ++
          (if deserialize then [] else [.fromJson, .fromJsonCollection]) ∧
      ∀ w : World, w.IsDerived → w.Holds u →
        ∀ k, (d.skipping serialize deserialize).skips k = false → ∀ name v context,
          (w.load u').run name k v context = w.run name k v context ∧
          ∀ depth, (w.load u').runWithin depth name k v context =
            w.runWithin depth name k v context := by
  have hderive : ∀ a b, reg.derive g (d.skipping a b) =
      okUnless ((planned reg g d).skipping a b).toMapper (reg.fault? g d) :=
    fun a b => derive_eq_okUnless reg g (d.skipping a b)
  refine ⟨?_, ?_⟩
  · intro e
    rw [hderive, hderive]
    cases reg.fault? g d with
    | none => simp [okUnless]
    | some fault => simp [okUnless]
  · intro u u' hu hu'
    rw [hderive] at hu hu'
    obtain ⟨-, rfl⟩ := okUnless_eq_ok.mp hu
    obtain ⟨-, rfl⟩ := okUnless_eq_ok.mp hu'
    refine ⟨rfl, ?_, ?_⟩
    · cases serialize <;> cases deserialize <;> rfl
    · intro w hw hholds k hk name v context
      have hmapper : Mapper.Keeps k.writes ((planned reg g d).skipping false false).toMapper
          ((planned reg g d).skipping serialize deserialize).toMapper :=
        ⟨_, _, Plan.keeps_skipping hk, rfl, rfl⟩
      have hkeeps := hw.keeps_load hholds hmapper
      exact ⟨hkeeps.run_eq name v context, fun depth => hkeeps.runWithin_eq depth name v context⟩

namespace Sample

/-- A codec in another package, with the simple name of the one for mottos. -/
def decoder : JavaType := .mk [⟨"org", by decide⟩] [] codec.simple []

/-- A motto that one codec writes and the other reads. -/
def slogan : AttributeMapping := { motto with conversion := .plain (some codec) (some decoder) }

def slogans : Registry := { mottos with additions := [(team.representer, slogan)] }

def sloganMapper (serialize deserialize : Bool) : Mapper :=
  (planned slogans {} (team.skipping serialize deserialize)).toMapper

def sloganWorld (m : Mapper) : World :=
  World.loadAll (World.bindHelper {} decoder.qualifiedName .ok) [m]

/-- Without the codec that writes, the one that reads has the name of the other. -/
theorem skips_remove_their_pair_slogans :
    slogans.derive {} (team.skipping false false) = .ok (sloganMapper false false) ∧
      slogans.derive {} (team.skipping true false) = .ok (sloganMapper true false) ∧
      (sloganMapper false false).constants.map (·.name) = ["MOTTO_CODEC", "MOTTO_CODEC_2"] ∧
      (sloganMapper true false).constants.map (·.name) = ["MOTTO_CODEC"] ∧
      (sloganMapper true false).methods.map (·.kind) = [.fromJson, .fromJsonCollection] ∧
      (sloganWorld (sloganMapper false false)).IsDerived ∧
      (sloganWorld (sloganMapper false false)).Holds (sloganMapper false false) ∧
      (team.skipping true false).skips .fromJson = false ∧
      (∀ j, ((sloganWorld (sloganMapper false false)).load (sloganMapper true false)).run
          "gen.com.TeamMapper" .fromJson j none =
        (sloganWorld (sloganMapper false false)).run "gen.com.TeamMapper" .fromJson j none) ∧
      (sloganWorld (sloganMapper false false)).run "gen.com.TeamMapper" .fromJson
        (.map [("motto", .string "ad astra")]) none =
        .ok (.model "com.Team" [("motto", .string "ad astra")]) := by
  have hu : slogans.derive {} (team.skipping false false) = .ok (sloganMapper false false) := rfl
  have hu' : slogans.derive {} (team.skipping true false) = .ok (sloganMapper true false) := rfl
  obtain ⟨-, hskips⟩ := skips_remove_their_pair slogans {} team true false
  obtain ⟨-, hmethods, hruns⟩ := hskips _ _ hu hu'
  have hholds : (sloganWorld (sloganMapper false false)).Holds (sloganMapper false false) :=
    Entries.get?_insert_self _ _ _
  have hderived : (sloganWorld (sloganMapper false false)).IsDerived := by
    intro name m hm
    obtain ⟨hmem, -⟩ := World.holdsOnly_loadAll rfl _ name m hm
    obtain rfl := List.mem_singleton.mp hmem
    exact ⟨_, _, _, hu⟩
  exact ⟨hu, hu', by decide +kernel, by decide +kernel, hmethods, hderived, hholds, rfl,
    fun j => (hruns _ hderived hholds .fromJson rfl _ j none).1, rfl⟩

end Sample

end JsonMapping
