import JsonMapping.Proofs.RoundTrip.Values
import JsonMapping.Proofs.Run.Reading
import JsonMapping.Proofs.Run.Writing

/-! Round trips through the mappers of a world: what `toJson` writes, `fromJson` reads back. -/

namespace JsonMapping

variable {G : Graph} {w : World} {d e : Descriptor} {m : Mapper} {v : Value}

namespace Graph

theorem variants_nodup (hw : w.Serves G) (hd : d ∈ G.members) :
    (d.variants.map (·.id)).Nodup := by
  obtain ⟨m, hm, -⟩ := hw.loaded d hd
  cases hx : d.dispatch with
  | none => simp [variants_eq_nil hx]
  | some x =>
    rw [Descriptor.variants_eq hx]
    exact Derive.variants_nodup_of_derive_ok hm hx

/-- The mappers write and read as the descriptors do. -/
theorem toJson_fromJson (hw : w.Serves G) (hd : d ∈ G.members) (htidy : G.Tidy d)
    (hm : G.registry.derive G.settings d = .ok m) {c : RequestContext} {es : Entries Value}
    {u : Value} (hwrite : G.write w c d v = .ok es) (hread : G.read w d (.map es) = .ok u) :
    w.toJson m.type.qualifiedName v c = .ok (.map es) ∧
      w.fromJson m.type.qualifiedName (.map es) = .ok u := by
  obtain ⟨rfl, -, -⟩ := Derive.derive_ok hm
  have htoJson := Writing.toJson_eq hw hd htidy.writes v c
  have hfromJson := Reading.fromJson_eq hw hd htidy.reads (.map es)
  rw [hwrite] at htoJson
  rw [hread] at hfromJson
  exact ⟨htoJson, hfromJson⟩

end Graph

/-! ## Graphs without variants -/

/-- Where all descriptors are tidy members without variants, every value that fits one of them is
written, and what is written is read as a model of the same type that agrees on all mapped fields,
at any depth, whatever circles the references make. -/
theorem roundTrip_of_tidy (hw : w.Serves G)
    (hlocal : ∀ r e, G.registry.resolve? r = some e → e ∈ G.members)
    (htidy : ∀ e ∈ G.members, G.Tidy e ∧ e.dispatch = none)
    (hd : d ∈ G.members) (hm : G.registry.derive G.settings d = .ok m)
    (hv : G.Fits w d v) (c : RequestContext) :
    ∃ es u, w.toJson m.type.qualifiedName v c = .ok (.map es) ∧
      w.fromJson m.type.qualifiedName (.map es) = .ok u ∧ G.ComesBack w d v u := by
  have hclosed : G.Closed (· ∈ G.members) := by
    refine ⟨?_, ?_, ?_, ?_, ?_⟩
    · exact fun e he => he
    · exact fun e he => (htidy e he).1
    · intro e he x hx
      rw [(htidy e he).2] at hx
      cases hx
    · exact fun _ _ _ _ r _ e he => hlocal r e he
    · exact fun _ _ a _ e he => hlocal a.representer e he
  obtain ⟨es, u, hwrite, hread, hback⟩ := Graph.roundTrips_of_fits (c := c) hclosed
    (fun e he => Graph.variants_nodup hw he) hd hv
  obtain ⟨htoJson, hfromJson⟩ := Graph.toJson_fromJson hw hd (htidy d hd).1 hm hwrite hread
  exact ⟨es, u, htoJson, hfromJson, hback⟩

namespace Sample

theorem tidy_node : treeGraph.Tidy node where
  writes := rfl
  reads := rfl
  unlinked := rfl
  standard := rfl
  names := by decide
  keys := by decide
  embeddedKeys := by decide

theorem fits_node {text : String} {nodes : List Value}
    (h : ∀ v ∈ nodes, treeGraph.Fits treeWorld node v) :
    treeGraph.Fits treeWorld node
      (.model "com.Node" [("label", .string text), ("children", .list nodes)]) := by
  refine .model rfl ?_
  intro m hm
  have hm : m = label ∨ m = children := by
    have hattributes : treeGraph.attributes node = [label, children] := rfl
    simpa [hattributes] using hm
  rcases hm with rfl | rfl
  · exact (Graph.fieldFits_iff_of_plain rfl).mpr rfl
  · exact .collection rfl rfl h

theorem fits_tree : treeGraph.Fits treeWorld node tree := by
  apply fits_node
  intro v hv
  rw [List.mem_singleton.mp hv]
  exact fits_node fun _ h => nomatch h

theorem registered_trees {r : RepresenterId} {e : Descriptor}
    (h : treeGraph.registry.resolve? r = some e) : e ∈ treeGraph.members := by
  obtain ⟨s, hs, rfl⟩ := Option.map_eq_some_iff.mp h
  rw [List.mem_singleton.mp (List.mem_of_find?_eq_some hs)]
  exact node_mem

theorem roundTrip_tree :
    treeWorld.Serves treeGraph ∧ (∀ e ∈ treeGraph.members, treeGraph.Tidy e ∧ e.dispatch = none) ∧
      treeGraph.Fits treeWorld node tree ∧
      ∃ es u, treeWorld.toJson "gen.com.NodeMapper" tree {} = .ok (.map es) ∧
        treeWorld.fromJson "gen.com.NodeMapper" (.map es) = .ok u ∧
        treeGraph.ComesBack treeWorld node tree u := by
  have htidy : ∀ e ∈ treeGraph.members, treeGraph.Tidy e ∧ e.dispatch = none := by
    intro e he
    rw [List.mem_singleton.mp he]
    exact ⟨tidy_node, rfl⟩
  have hderive := treeWorld_serves.derive node_mem
  exact ⟨treeWorld_serves, htidy, fits_tree, roundTrip_of_tidy treeWorld_serves
    (fun _ _ => registered_trees) htidy node_mem hderive fits_tree {}⟩

end Sample

/-! ## Variants -/

namespace Graph

/-- All that the mapper of a descriptor may have to convert is tidy and stays in the graph. -/
structure Orderly (G : Graph) (d : Descriptor) : Prop where
  member : ∀ e, G.Reaches d e → e ∈ G.members
  tidy : ∀ e, G.Reaches d e → G.Tidy e
  separates : ∀ e, G.Reaches d e → ∀ x, e.dispatch = some x → G.Separates e x

theorem Orderly.closed (h : G.Orderly d) : G.Closed (G.Reaches d) where
  member := h.member
  tidy := h.tidy
  separates := h.separates
  nested := fun _ he _ hm _ hr _ he' => he.nested hm hr he'
  variants := fun _ he _ ha _ he' => he.variant ha he'

end Graph

/-- Where a descriptor has variants, every value of a variant's model whose fields fit both the base
and the variant is written, and what is written is read as a model of the variant that agrees on all
fields that the base maps, and on those that the variant alone maps. -/
theorem roundTrip_of_variant {a : Variant} {fields : Entries Value} (hw : w.Serves G)
    (hd : G.Orderly d) (hm : G.registry.derive G.settings d = .ok m) (ha : a ∈ d.variants)
    (he : G.registry.resolve? a.representer = some e) (hcast : Graph.Castable e.model)
    (hbase : G.Fills w d fields) (hvariant : G.Fills w e fields) (c : RequestContext) :
    ∃ es fields',
      w.toJson m.type.qualifiedName (.model e.model.qualifiedName fields) c = .ok (.map es) ∧
      w.fromJson m.type.qualifiedName (.map es) = .ok (.model e.model.qualifiedName fields') ∧
      (∀ m ∈ G.attributes d, G.FieldComesBack w m (.ofEntry fields m.model.name.text)
        (.ofEntry fields' m.model.name.text)) ∧
      (∀ m ∈ G.attributes e, m.model.name.text ∉ G.modelNames d →
        G.FieldComesBack w m (.ofEntry fields m.model.name.text)
          (.ofEntry fields' m.model.name.text)) ∧
      ∀ key, key ∉ G.modelNames d → key ∉ G.modelNames e →
        Entries.get? fields' key = (w.defaultFields e.model).get? key := by
  have hclosed := hd.closed
  have hids : ∀ e, G.Reaches d e → (e.variants.map (·.id)).Nodup := by
    intro e he
    exact Graph.variants_nodup hw (hd.member e he)
  obtain ⟨es, fields', hwrite, hread, hback⟩ := Graph.write_read_variant (c := c) hclosed .self ha
    (hids d .self) he hcast hbase hvariant fun e' u _ he' hu =>
      Graph.roundTrips_of_fits hclosed hids he' hu
  obtain ⟨htoJson, hfromJson⟩ :=
    Graph.toJson_fromJson hw (hd.member d .self) (hd.tidy d .self) hm hwrite hread
  exact ⟨es, fields', htoJson, hfromJson, hback⟩

/-! ## Shapes as a sample

Shapes with labels as their only variant, and points that they may refer to. -/

namespace Sample

def shapeId : RepresenterId := ⟨typeNamed ⟨"ShapeRepresenter", by decide⟩⟩

def labelId : RepresenterId := ⟨typeNamed ⟨"LabelRepresenter", by decide⟩⟩

def pointId : RepresenterId := ⟨typeNamed ⟨"PointRepresenter", by decide⟩⟩

def point : Descriptor where
  representer := pointId
  model := typeNamed ⟨"Point", by decide⟩

structure Shapes where
  labelModel : JavaType := typeNamed ⟨"Label", by decide⟩
  ofShape : List AttributeMapping := []
  ofLabel : List AttributeMapping := []
  nestedAttribute : Option String := none

namespace Shapes

variable (s : Shapes)

def shape : Descriptor where
  representer := shapeId
  model := typeNamed ⟨"Shape", by decide⟩
  dispatch := some {
    discriminator := "kind"
    nestedAttribute := s.nestedAttribute
    variants := [{ id := "label", representer := labelId }] }

def labelled : Descriptor where
  representer := labelId
  model := s.labelModel

def registry : Registry where
  registrations := [s.shape, s.labelled, point].map fun d => { descriptor := d, external := false }
  additions := s.ofShape.map (shapeId, ·) ++ s.ofLabel.map (labelId, ·)
  distinct := (by decide : [shapeId, labelId, pointId].Nodup)

theorem mapperName_shape :
    ({} : GeneratorSettings).mapperName shapeId = "gen.com.ShapeMapper" := by decide +kernel

theorem mapperName_label :
    ({} : GeneratorSettings).mapperName labelId = "gen.com.LabelMapper" := by decide +kernel

theorem mapperName_point :
    ({} : GeneratorSettings).mapperName pointId = "gen.com.PointMapper" := by decide +kernel

theorem registry_runnable : s.registry.Runnable {} where
  distinct := by
    change [({} : GeneratorSettings).mapperName shapeId,
      ({} : GeneratorSettings).mapperName labelId,
      ({} : GeneratorSettings).mapperName pointId].Nodup
    rw [mapperName_shape, mapperName_label, mapperName_point]
    decide
  acyclic := by
    apply acyclic_of_flat
    rintro d hd e ⟨hmem, a, ha, hname⟩
    have hd : d = s.shape ∨ d = s.labelled ∨ d = point := by
      simpa [Registry.localDescriptors, registry] using hd
    have hmem : e = s.shape ∨ e = s.labelled ∨ e = point := by
      simpa [Registry.localDescriptors, registry] using hmem
    rcases hd with rfl | rfl | rfl
    · rw [List.mem_singleton.mp ha] at hname
      rcases hmem with rfl | rfl | rfl
      · rw [show s.shape.representer = shapeId from rfl, mapperName_shape,
          mapperName_label] at hname
        simp at hname
      · rfl
      · rfl
    · cases ha
    · cases ha

def graph : Graph := .ofRegistry s.registry {} s.registry_runnable

def world : World :=
  World.loadAll {} [s.graph.mapper s.shape, s.graph.mapper s.labelled, s.graph.mapper point]

variable {s : Shapes}

theorem registered {r : RepresenterId} {e : Descriptor}
    (h : s.graph.registry.resolve? r = some e) : e = s.shape ∨ e = s.labelled ∨ e = point := by
  obtain ⟨x, hx, rfl⟩ := Option.map_eq_some_iff.mp h
  obtain ⟨e, he, rfl⟩ := List.mem_map.mp (List.mem_of_find?_eq_some hx)
  simpa using he

theorem reached {e : Descriptor} (h : s.graph.Reaches s.shape e) :
    e = s.shape ∨ e = s.labelled ∨ e = point := by
  cases h with
  | self => exact .inl rfl
  | nested _ _ _ he => exact registered he
  | variant _ _ he => exact registered he

theorem mem_graph {e : Descriptor} :
    e ∈ s.graph.members ↔ e = s.shape ∨ e = s.labelled ∨ e = point := by
  have hmembers : s.graph.members = [s.shape, s.labelled, point] := rfl
  simp [hmembers]

theorem eq_labelled {x : Dispatch} {a : Variant} {e : Descriptor}
    (hx : s.shape.dispatch = some x) (ha : a ∈ x.variants)
    (he : s.graph.registry.resolve? a.representer = some e) : e = s.labelled := by
  cases hx
  rw [List.mem_singleton.mp ha] at he
  exact (Option.some.inj he).symm

theorem orderly
    (hdistinct : ∀ e ∈ s.graph.members, (s.graph.modelNames e).Nodup ∧
      (s.graph.topKeys e).Nodup ∧ ((s.graph.embeddedAttributes e).map (·.wireKey)).Nodup)
    (hmerged : s.nestedAttribute = none →
      (s.graph.topKeys s.shape).Disjoint (s.graph.topKeys s.labelled) ∧
        "kind" ∉ s.graph.topKeys s.shape ∧ "kind" ∉ s.graph.topKeys s.labelled)
    (hnested : ∀ key, s.nestedAttribute = some key →
      "kind" ≠ key ∧ "kind" ∉ s.graph.topKeys s.shape ∧ key ∉ s.graph.topKeys s.shape) :
    s.graph.Orderly s.shape where
  member := by
    intro e he
    exact mem_graph.mpr (reached he)
  tidy := by
    intro e he
    have he := reached he
    obtain ⟨hnames, hkeys, hembedded⟩ := hdistinct e (mem_graph.mpr he)
    rcases he with rfl | rfl | rfl
    · exact ⟨rfl, rfl, rfl, rfl, hnames, hkeys, hembedded⟩
    · exact ⟨rfl, rfl, rfl, rfl, hnames, hkeys, hembedded⟩
    · exact ⟨rfl, rfl, rfl, rfl, hnames, hkeys, hembedded⟩
  separates := by
    intro e he x hx
    rcases reached he with rfl | rfl | rfl
    · have hvariant : ∀ a ∈ x.variants, ∀ e,
          s.graph.registry.resolve? a.representer = some e → e = s.labelled := by
        intro a ha e he
        exact eq_labelled hx ha he
      cases hx
      refine ⟨List.nodup_singleton _, ?_, ?_, hnested⟩
      · intro a ha e he
        rw [hvariant a ha e he]
        rfl
      · intro hnone a ha e he
        rw [hvariant a ha e he]
        exact hmerged hnone
    · cases hx
    · cases hx

theorem fills {d : Descriptor} {m : AttributeMapping} {fields : Entries Value}
    (hm : s.graph.attributes d = [m])
    (h : s.graph.FieldFits s.world m (.ofEntry fields m.model.name.text)) :
    s.graph.Fills s.world d fields := by
  intro m' hm'
  rw [hm, List.mem_singleton] at hm'
  rw [hm']
  exact h

end Shapes

/-! ### A variant beside its base -/

def color : AttributeMapping where
  model := { name := ⟨"color", by decide⟩, type := some text }
  wire := { name := ⟨"color", by decide⟩, type := some text }
  embedded := false
  conversion := .plain none none

def caption : AttributeMapping where
  model := { name := ⟨"caption", by decide⟩, type := some text }
  wire := { name := ⟨"title", by decide⟩, type := some text }
  embedded := true
  conversion := .plain none none

def captions : Shapes where
  ofShape := [color]
  ofLabel := [caption]

theorem captions_orderly : captions.graph.Orderly captions.shape := by
  refine Shapes.orderly (by decide) ?_ (fun _ h => nomatch h)
  intro _
  have hbase : captions.graph.topKeys captions.shape = ["color"] := by decide
  have hvariant : captions.graph.topKeys captions.labelled = ["_embedded"] := by decide
  rw [hbase, hvariant]
  simp

def captionFields : Entries Value := [("color", .string "red"), ("caption", .string "stop")]

theorem captions_fill : captions.graph.Fills captions.world captions.shape captionFields ∧
    captions.graph.Fills captions.world captions.labelled captionFields :=
  ⟨Shapes.fills rfl ((Graph.fieldFits_iff_of_plain rfl).mpr rfl),
    Shapes.fills rfl ((Graph.fieldFits_iff_of_plain rfl).mpr rfl)⟩

theorem captions_serves : captions.world.Serves captions.graph :=
  World.serves_ofRegistry captions.registry_runnable rfl rfl

theorem roundTrip_caption :
    captions.world.Serves captions.graph ∧ captions.graph.Orderly captions.shape ∧
      Graph.Castable captions.labelled.model ∧
      captions.graph.Fills captions.world captions.shape captionFields ∧
      captions.graph.Fills captions.world captions.labelled captionFields ∧
      ∃ es fields',
        captions.world.toJson "gen.com.ShapeMapper" (.model "com.Label" captionFields) {} =
          .ok (.map es) ∧
        captions.world.fromJson "gen.com.ShapeMapper" (.map es) =
          .ok (.model "com.Label" fields') := by
  have hcast : Graph.Castable captions.labelled.model := .inl (by decide)
  have hderive := captions_serves.derive (captions_orderly.member _ .self)
  obtain ⟨hbase, hvariant⟩ := captions_fill
  obtain ⟨es, fields', hwrite, hread, -⟩ := roundTrip_of_variant captions_serves captions_orderly
    hderive (List.mem_singleton_self _) rfl hcast hbase hvariant {}
  exact ⟨captions_serves, captions_orderly, hcast, hbase, hvariant, es, fields', hwrite, hread⟩

/-! ### Where a variant does not come back

A model with the name of the texts passes the test for the variant, but not the cast to it. And a
field that a variant takes over as it is comes back as what the base makes of it. -/

def texts : Shapes where
  labelModel := text

theorem texts_orderly : texts.graph.Orderly texts.shape := by
  refine Shapes.orderly (by decide) ?_ (fun _ h => nomatch h)
  intro _
  exact ⟨List.disjoint_nil_left _, List.not_mem_nil, List.not_mem_nil⟩

theorem texts_fill : texts.graph.Fills texts.world texts.shape [] ∧
    texts.graph.Fills texts.world texts.labelled [] := by
  refine ⟨?_, ?_⟩
  · intro m hm
    cases hm
  · intro m hm
    cases hm

theorem texts_serves : texts.world.Serves texts.graph :=
  World.serves_ofRegistry texts.registry_runnable rfl rfl

def origin (conversion : Conversion) : AttributeMapping where
  model := { name := ⟨"origin", by decide⟩, type := none }
  wire := { name := ⟨"origin", by decide⟩, type := none }
  embedded := false
  conversion := conversion

def origins : Shapes where
  ofShape := [origin (.single pointId)]
  ofLabel := [origin (.plain none none)]
  nestedAttribute := some "data"

theorem origins_orderly : origins.graph.Orderly origins.shape := by
  refine Shapes.orderly (by decide) (fun h => nomatch h) ?_
  intro key hkey
  cases hkey
  decide

theorem origins_serves : origins.world.Serves origins.graph :=
  World.serves_ofRegistry origins.registry_runnable rfl rfl

/-- A point with a field that no descriptor maps. -/
def originFields : Entries Value := [("origin", .model "com.Point" [("x", .string "left")])]

def originEntries : Entries Value :=
  [("origin", .map []), ("kind", .string "label"), ("data", .map originFields)]

theorem origins_fill : origins.graph.Fills origins.world origins.shape originFields ∧
    origins.graph.Fills origins.world origins.labelled originFields := by
  refine ⟨Shapes.fills rfl ?_, Shapes.fills rfl ((Graph.fieldFits_iff_of_plain rfl).mpr rfl)⟩
  refine .single rfl rfl (.model rfl ?_)
  intro m hm
  cases hm

theorem roundTrip_of_variant_exceptions :
    (texts.world.Serves texts.graph ∧ texts.graph.Orderly texts.shape ∧
      texts.graph.Fills texts.world texts.shape [] ∧
      texts.graph.Fills texts.world texts.labelled [] ∧
      texts.world.toJson "gen.com.ShapeMapper" (.model "String" []) {} =
        .error (.fault (.typeMismatch (.declared text) (.model "String")))) ∧
    (origins.world.Serves origins.graph ∧ origins.graph.Orderly origins.shape ∧
      Graph.Castable origins.labelled.model ∧
      origins.graph.Fills origins.world origins.shape originFields ∧
      origins.graph.Fills origins.world origins.labelled originFields ∧
      origins.world.toJson "gen.com.ShapeMapper" (.model "com.Label" originFields) {} =
        .ok (.map originEntries) ∧
      origins.world.fromJson "gen.com.ShapeMapper" (.map originEntries) =
        .ok (.model "com.Label" [("origin", .model "com.Point" [])]) ∧
      origin (.plain none none) ∈ origins.graph.attributes origins.labelled ∧
      ¬ origins.graph.FieldComesBack origins.world (origin (.plain none none))
        (.model "com.Point" [("x", .string "left")]) (.model "com.Point" [])) := by
  refine ⟨⟨texts_serves, texts_orderly, texts_fill.1, texts_fill.2, ?_⟩, origins_serves,
    origins_orderly, .inl (by decide), origins_fill.1, origins_fill.2, ?_, ?_,
    List.mem_singleton_self _, ?_⟩
  · have hmember := texts_orderly.member _ .self
    exact (Writing.toJson_eq texts_serves hmember rfl _ {}).trans rfl
  · have hmember := origins_orderly.member _ .self
    exact (Writing.toJson_eq origins_serves hmember rfl _ {}).trans rfl
  · have hmember := origins_orderly.member _ .self
    exact (Reading.fromJson_eq origins_serves hmember rfl _).trans rfl
  · intro h
    cases h with
    | single h _ _ => cases h

end Sample

end JsonMapping
