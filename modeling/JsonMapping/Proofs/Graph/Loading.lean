import JsonMapping.Proofs.Entries
import JsonMapping.Proofs.Graph.Basic

/-! The graph of a registry. Its members are the descriptors whose mappers are generated here, and a
world into which all of these mappers are loaded serves it. -/

namespace JsonMapping

namespace Registry

variable {reg : Registry}

theorem registration?_eq_some {r : Registration} (h : r ∈ reg.registrations) :
    reg.registration? r.id = some r := by
  have hsome : (reg.registration? r.id).isSome := by
    unfold registration?
    rw [List.find?_isSome]
    exact ⟨r, h, by simp⟩
  obtain ⟨s, hs⟩ := Option.isSome_iff_exists.mp hsome
  have hid : s.id = r.id := by simpa using List.find?_some hs
  rw [hs, List.inj_on_of_nodup_map reg.distinct (List.mem_of_find?_eq_some hs) h hid]

theorem nodup_localDescriptors (reg : Registry) :
    (reg.localDescriptors.map (·.representer)).Nodup := by
  have hsub : (reg.registrations.filter (!·.external)).Sublist reg.registrations :=
    List.filter_sublist
  unfold localDescriptors
  rw [List.map_map]
  exact reg.distinct.sublist (hsub.map Registration.id)

theorem resolve?_of_mem_localDescriptors {d : Descriptor} (h : d ∈ reg.localDescriptors) :
    reg.resolve? d.representer = some d := by
  obtain ⟨r, hr, rfl⟩ := List.mem_map.mp h
  have := registration?_eq_some (List.mem_of_mem_filter hr)
  rw [resolve?, show r.descriptor.representer = r.id from rfl, this]
  rfl

/-- A descriptor is found under its own id. -/
theorem representer_of_resolve? {id : RepresenterId} {d : Descriptor}
    (h : reg.resolve? id = some d) : d.representer = id := by
  obtain ⟨r, hr, rfl⟩ := Option.map_eq_some_iff.mp h
  unfold registration? at hr
  have hid := List.find?_some hr
  exact of_decide_eq_true hid

end Registry

/-- Where members hand values on to members without variants only, no value comes back. -/
theorem acyclic_of_flat {g : GeneratorSettings} {members : List Descriptor}
    (h : ∀ d ∈ members, ∀ e, HandsOn g members d e → e.variants = []) (d : Descriptor) :
    ¬ Relation.TransGen (HandsOn g members) d d := by
  intro hd
  obtain ⟨c, -, hlast⟩ := Relation.TransGen.tail'_iff.mp hd
  obtain ⟨e, hfirst, hrest⟩ := Relation.TransGen.head'_iff.mp hd
  have hnil := h d hlast.1 e hfirst
  have hne : ∀ x y, HandsOn g members x y → x.variants ≠ [] := by
    rintro x y ⟨-, a, ha, -⟩ hx
    rw [hx] at ha
    cases ha
  rcases Relation.ReflTransGen.cases_head hrest with rfl | ⟨x, hx, -⟩
  · exact hne e e hfirst hnil
  · exact hne e x hx hnil

/-- The mappers of the registry can be loaded side by side, and their runs come to an end. -/
structure Registry.Runnable (reg : Registry) (g : GeneratorSettings) : Prop where
  distinct : (reg.localDescriptors.map fun d => g.mapperName d.representer).Nodup
  acyclic : ∀ d, ¬ Relation.TransGen (HandsOn g reg.localDescriptors) d d

namespace Graph

/-- The graph of all descriptors that are not external. -/
def ofRegistry (reg : Registry) (g : GeneratorSettings) (h : reg.Runnable g) : Graph where
  registry := reg
  settings := g
  members := reg.localDescriptors
  registered := fun _ => Registry.resolve?_of_mem_localDescriptors
  distinct := h.distinct
  acyclic := h.acyclic

variable {G : Graph}

/-- A registered member is what calls to its representer get to. -/
theorem find?_of_resolve? {r : RepresenterId} {e : Descriptor}
    (h : G.registry.resolve? r = some e) (he : e ∈ G.members) : G.find? r = some e := by
  rw [← Registry.representer_of_resolve? h]
  exact find?_representer he

end Graph

namespace World

theorem mappers_loadAll (w : World) (ms : List Mapper) :
    (w.loadAll ms).mappers =
      w.mappers.insertAll (ms.map fun m => (m.type.qualifiedName, m)) := by
  induction ms generalizing w with
  | nil => rfl
  | cons m rest ih => exact ih (w.load m)

/-- The mappers of a registry, all loaded, serve its graph. -/
theorem serves_ofRegistry {w : World} {reg : Registry} {g : GeneratorSettings} {ms : List Mapper}
    (hreg : reg.Runnable g) (hw : w.mappers = []) (hms : reg.deriveAll g = .ok ms) :
    (w.loadAll ms).Serves (Graph.ofRegistry reg g hreg) := by
  generalize hG : Graph.ofRegistry reg g hreg = G
  have hderive : ∀ d m, reg.derive g d = .ok m → m = G.mapper d ∧
      G.registry.derive G.settings d = .ok (G.mapper d) := by
    intro d m hm
    subst hG
    obtain ⟨rfl, -, -⟩ := Derive.derive_ok hm
    exact ⟨rfl, hm⟩
  have hmembers : reg.localDescriptors = G.members := hG ▸ rfl
  obtain ⟨hmap, hderived⟩ := eq_map_of_mapM_eq_ok hms hderive
  have hmappers : (w.loadAll ms).mappers = Entries.insertAll [] (G.members.map fun d =>
      (G.settings.mapperName d.representer, G.mapper d)) := by
    rw [mappers_loadAll, hw, hmap, hmembers, List.map_map]
    simp only [Function.comp_def, Graph.mapper_qualifiedName]
  have hkeys : Entries.keys (G.members.map fun d =>
      (G.settings.mapperName d.representer, G.mapper d)) =
        G.members.map fun d => G.settings.mapperName d.representer := by
    simp [Entries.keys, Function.comp_def]
  have hget := fun name => Entries.get?_insertAll (hkeys ▸ G.distinct) [] name
  rw [hmembers] at hderived
  refine ⟨?_, ?_⟩
  · intro d hd
    refine ⟨_, hderived d hd, ?_⟩
    rw [hmappers, hget, Graph.mapper_qualifiedName, Entries.get?_map G.distinct hd]
    rfl
  · intro d hd r hr hfind
    rw [hmappers, hget, Entries.get?_nil, Option.or_none, Entries.get?_eq_none_iff, hkeys]
    intro hmem
    obtain ⟨e, he, hname⟩ := List.mem_map.mp hmem
    exact Graph.mapperName_ne_of_find?_eq_none hfind he hname

end World

/-! ## Trees as a sample

One representer whose children are represented by itself. -/

namespace Sample

def nodeId : RepresenterId := ⟨typeNamed ⟨"NodeRepresenter", by decide⟩⟩

def node : Descriptor where
  representer := nodeId
  model := typeNamed ⟨"Node", by decide⟩

def text : JavaType := .mk [] [] ⟨"String", by decide⟩ []

def label : AttributeMapping where
  model := { name := ⟨"label", by decide⟩, type := some text }
  wire := { name := ⟨"label", by decide⟩, type := some text }
  embedded := false
  conversion := .plain none none

def children : AttributeMapping where
  model := { name := ⟨"children", by decide⟩, type := none }
  wire := { name := ⟨"childNodes", by decide⟩, type := none }
  embedded := true
  conversion := .collection nodeId node.model

def trees : Registry where
  registrations := [{ descriptor := node, external := false }]
  additions := [(nodeId, label), (nodeId, children)]

theorem trees_runnable : trees.Runnable {} where
  distinct := List.nodup_singleton _
  acyclic := by
    apply acyclic_of_flat
    intro d _ e h
    have he : e = node := List.mem_singleton.mp h.1
    rw [he]
    rfl

def treeGraph : Graph := .ofRegistry trees {} trees_runnable

def treeWorld : World := World.loadAll {} [treeGraph.mapper node]

theorem treeWorld_serves : treeWorld.Serves treeGraph :=
  World.serves_ofRegistry trees_runnable rfl rfl

theorem node_mem : node ∈ treeGraph.members := List.mem_singleton_self _

/-- A node with one child. -/
def tree : Value :=
  .model "com.Node" [("label", .string "root"), ("children", .list [
    .model "com.Node" [("label", .string "leaf"), ("children", .list [])]])]

/-- What the tree is written as. -/
def treeEntries : Entries Value :=
  [("label", .string "root"), ("_embedded", .map [("child_nodes", .list [
    .map [("label", .string "leaf"), ("_embedded", .map [("child_nodes", .list [])])]])])]

end Sample

end JsonMapping
