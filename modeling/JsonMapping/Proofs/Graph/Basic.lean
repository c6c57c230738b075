import JsonMapping.Proofs.Derive.Faults
import JsonMapping.Run.Call
import Mathlib.Data.Finset.Card
import Mathlib.Data.List.Perm.Subperm
import Mathlib.Logic.Relation

/-! Graphs of representers whose mappers are used together. The mappers find each other by name, so
names are distinct, and a value that goes from a mapper to that of a variant never comes back to it
as the same value. This gives every pair of a descriptor and a value a weight that bounds how deep
the calls on it nest. -/

namespace JsonMapping

/-- The name that the mapper of a representer is found by. -/
def GeneratorSettings.mapperName (g : GeneratorSettings) (id : RepresenterId) : String :=
  (g.mapperOf id).qualifiedName

/-- The mapper of `d` hands the values of a variant on to the mapper of `e`. -/
def HandsOn (g : GeneratorSettings) (members : List Descriptor) (d e : Descriptor) : Prop :=
  e ∈ members ∧ ∃ a ∈ d.variants, g.mapperName a.representer = g.mapperName e.representer

/-- Descriptors of one registry, with the settings that name their mappers. References of a member
may lead to other members, also in circles, or out of the graph. -/
structure Graph where
  registry : Registry
  settings : GeneratorSettings
  members : List Descriptor
  registered : ∀ d ∈ members, registry.resolve? d.representer = some d
  distinct : (members.map fun d => settings.mapperName d.representer).Nodup
  acyclic : ∀ d, ¬ Relation.TransGen (HandsOn settings members) d d

namespace Graph

variable (G : Graph)

/-- The attributes of a representer, in order. -/
def attributes (d : Descriptor) : List AttributeMapping := G.registry.attributesOf d.representer

def plainAttributes (d : Descriptor) : List AttributeMapping :=
  (G.attributes d).filter (!·.embedded)

def embeddedAttributes (d : Descriptor) : List AttributeMapping :=
  (G.attributes d).filter (·.embedded)

def hasEmbedded (d : Descriptor) : Bool := (G.attributes d).any (·.embedded)

/-- The links provider, unless it is the one that is as good as none. -/
def links (d : Descriptor) : Option JavaType :=
  d.linksProvider.filter fun t => some t.qualifiedName ≠ G.settings.emptyLinksProvider

def references (d : Descriptor) : List RepresenterId := G.registry.references d

/-! ## Finding members -/

/-- The member whose mapper has the name that the mapper of a representer has. -/
def find? (r : RepresenterId) : Option Descriptor :=
  G.members.find? fun e => G.settings.mapperName e.representer = G.settings.mapperName r

theorem eq_of_mapperName_eq {d e : Descriptor} (hd : d ∈ G.members) (he : e ∈ G.members)
    (h : G.settings.mapperName d.representer = G.settings.mapperName e.representer) : d = e :=
  List.inj_on_of_nodup_map G.distinct hd he h

variable {G}

theorem mem_of_find? {r : RepresenterId} {e : Descriptor} (h : G.find? r = some e) :
    e ∈ G.members :=
  List.mem_of_find?_eq_some h

theorem mapperName_of_find? {r : RepresenterId} {e : Descriptor} (h : G.find? r = some e) :
    G.settings.mapperName e.representer = G.settings.mapperName r := by
  simpa using List.find?_some h

theorem find?_representer {d : Descriptor} (hd : d ∈ G.members) :
    G.find? d.representer = some d := by
  have hsome : (G.find? d.representer).isSome := by
    unfold find?
    rw [List.find?_isSome]
    exact ⟨d, hd, by simp⟩
  obtain ⟨e, he⟩ := Option.isSome_iff_exists.mp hsome
  rw [he, G.eq_of_mapperName_eq (mem_of_find? he) hd (mapperName_of_find? he)]

theorem mapperName_ne_of_find?_eq_none {r : RepresenterId} (h : G.find? r = none)
    {d : Descriptor} (hd : d ∈ G.members) :
    G.settings.mapperName d.representer ≠ G.settings.mapperName r := by
  intro he
  exact List.find?_eq_none.mp h d hd (by simpa using he)

/-! ## The weight of a value -/

variable (G)

open Classical in
/-- The number of members that get to see a value that the mapper of `d` is given. -/
noncomputable def rank (d : Descriptor) : Nat :=
  (G.members.toFinset.filter fun e => Relation.TransGen (HandsOn G.settings G.members) d e).card

theorem rank_le (d : Descriptor) : G.rank d ≤ G.members.length := by
  classical
  exact (Finset.card_filter_le _ _).trans (List.toFinset_card_le _)

theorem rank_lt_of_handsOn {d e : Descriptor} (h : HandsOn G.settings G.members d e) :
    G.rank e < G.rank d := by
  apply Finset.card_lt_card
  rw [Finset.ssubset_iff_of_subset]
  · refine ⟨e, ?_, ?_⟩
    · simpa using ⟨h.1, Relation.TransGen.single h⟩
    · simpa using fun _ => G.acyclic e
  · intro x hx
    simp only [Finset.mem_filter] at hx ⊢
    exact ⟨hx.1, Relation.TransGen.head h hx.2⟩

/-- Calls on a value go down in it, or on to a variant of the same value. -/
noncomputable def weight (d : Descriptor) (v : Value) : Nat :=
  v.height * (G.members.length + 1) + G.rank d

/-- A bound of the weight that only depends on how many members there are. -/
def bound (v : Value) : Nat := (v.height + 1) * (G.members.length + 1)

theorem weight_lt_bound (d : Descriptor) (v : Value) : G.weight d v < G.bound v := by
  have := G.rank_le d
  unfold weight bound
  rw [Nat.add_mul]
  omega

theorem bound_pos (v : Value) : 0 < G.bound v := Nat.mul_pos (by omega) (by omega)

theorem weight_pos {v : Value} (h : 0 < v.height) (d : Descriptor) : 0 < G.weight d v :=
  Nat.add_pos_left (Nat.mul_pos h (by omega)) _

theorem bound_le_weight {u v : Value} (h : u.height < v.height) (d : Descriptor) :
    G.bound u ≤ G.weight d v := by
  have : (u.height + 1) * (G.members.length + 1) ≤ v.height * (G.members.length + 1) :=
    Nat.mul_le_mul_right _ h
  unfold weight bound
  omega

theorem weight_lt_of_height_lt {u v : Value} (h : u.height < v.height) (e d : Descriptor) :
    G.weight e u < G.weight d v :=
  (G.weight_lt_bound e u).trans_le (G.bound_le_weight h d)

theorem weight_lt_of_handsOn {d e : Descriptor} (h : HandsOn G.settings G.members d e)
    (v : Value) : G.weight e v < G.weight d v := by
  have := G.rank_lt_of_handsOn h
  unfold weight
  omega

/-- Depth that is enough for a value is enough for a call on what is inside of it. -/
theorem exists_depth_of_height_lt {d : Descriptor} {u v : Value} {depth : Nat}
    (h : u.height < v.height) (hdepth : G.weight d v ≤ depth) :
    ∃ n, depth = n + 1 ∧ ∀ e, G.weight e u ≤ n := by
  have hpos := G.bound_pos u
  have hle := G.bound_le_weight h d
  refine ⟨depth - 1, by omega, ?_⟩
  intro e
  have hlt := G.weight_lt_bound e u
  omega

/-- Depth that is enough for a value is enough for a call that hands it on. -/
theorem exists_depth_of_handsOn {d : Descriptor} {v : Value} {depth : Nat} (hv : 0 < v.height)
    (hdepth : G.weight d v ≤ depth) :
    ∃ n, depth = n + 1 ∧ ∀ e, HandsOn G.settings G.members d e → G.weight e v ≤ n := by
  have hpos := G.weight_pos hv d
  refine ⟨depth - 1, by omega, ?_⟩
  intro e he
  have hlt := G.weight_lt_of_handsOn he v
  omega

theorem handsOn_of_find? {d e : Descriptor} {a : Variant} (ha : a ∈ d.variants)
    (he : G.find? a.representer = some e) : HandsOn G.settings G.members d e :=
  ⟨mem_of_find? he, a, ha, (mapperName_of_find? he).symm⟩

end Graph

/-! ## Worlds that serve a graph -/

/-- In the world, every member's mapper is loaded under its own name, and where a member refers to
a representer outside of the graph, no mapper is found. -/
structure World.Serves (w : World) (G : Graph) : Prop where
  loaded : ∀ d ∈ G.members, ∃ m, G.registry.derive G.settings d = .ok m ∧
    w.mappers.get? m.type.qualifiedName = some m
  outside : ∀ d ∈ G.members, ∀ r ∈ G.references d, G.find? r = none →
    w.mappers.get? (G.settings.mapperName r) = none

/-- The mapper of a member. -/
def Graph.mapper (G : Graph) (d : Descriptor) : Mapper :=
  (Derive.planned G.registry G.settings d).toMapper

theorem Graph.mapper_qualifiedName (G : Graph) (d : Descriptor) :
    (G.mapper d).type.qualifiedName = G.settings.mapperName d.representer := rfl

theorem World.Serves.get? {w : World} {G : Graph} (hw : w.Serves G) {d : Descriptor}
    (hd : d ∈ G.members) :
    w.mappers.get? (G.settings.mapperName d.representer) = some (G.mapper d) := by
  obtain ⟨m, hm, hget⟩ := hw.loaded d hd
  obtain ⟨rfl, -, -⟩ := Derive.derive_ok hm
  exact hget

theorem World.Serves.derive {w : World} {G : Graph} (hw : w.Serves G) {d : Descriptor}
    (hd : d ∈ G.members) : G.registry.derive G.settings d = .ok (G.mapper d) := by
  obtain ⟨m, hm, -⟩ := hw.loaded d hd
  obtain ⟨rfl, -, -⟩ := Derive.derive_ok hm
  exact hm

/-- There are no more members than mappers in the world. -/
theorem World.Serves.length_le {w : World} {G : Graph} (hw : w.Serves G) :
    G.members.length ≤ w.mappers.length := by
  have hsub : (G.members.map fun d => G.settings.mapperName d.representer) ⊆ w.mappers.keys := by
    intro name hn
    obtain ⟨d, hd, rfl⟩ := List.mem_map.mp hn
    by_contra hkey
    have := (Entries.get?_eq_none_iff _ _).mpr hkey
    rw [hw.get? hd] at this
    cases this
  have := (List.subperm_of_subset G.distinct hsub).length_le
  simpa [Entries.keys] using this

/-- In the world, runs go as deep as any call of a member may have to. -/
theorem World.Serves.weight_le_depthFor {w : World} {G : Graph} (hw : w.Serves G) (d : Descriptor)
    (v : Value) : G.weight d v ≤ w.depthFor v := by
  have hlt := G.weight_lt_bound d v
  have hle : G.bound v ≤ (v.height + 2) * (w.mappers.length + 2) :=
    Nat.mul_le_mul (by omega) (by have := hw.length_le; omega)
  unfold World.depthFor
  omega

end JsonMapping
