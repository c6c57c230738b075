import JsonMapping.Proofs.RoundTrip.Mappers

/-! The embedded fields of a base beside those of its variants. Without a container of their own,
the entries of a variant go into the container of the base, and an entry replaces one with its key
as a whole. So the embedded fields of the base are all there or all gone: they are there exactly if
nothing that the variants add is a container of embedded fields. -/

namespace JsonMapping

namespace Derive

variable {w : World} {call : Caller} {c : RequestContext} {v : Value}

/-! ## Fields that are filled in -/

section Fill

variable {a : PlannedAttribute} {as : List PlannedAttribute} {es es' : Entries Value}

theorem fill_cons_ok (h : fill w call c v (a :: as) es = .ok es') :
    ∃ u, a.wireValue w call c v = .ok u ∧
      fill w call c v as (es.insert a.wireKey u) = .ok es' := by
  unfold fill at h ⊢
  rw [List.foldlM_cons] at h
  obtain ⟨es₁, hfirst, hrest⟩ := bind_eq_ok.mp h
  obtain ⟨u, hu, hfirst⟩ := bind_eq_ok.mp hfirst
  cases hfirst
  exact ⟨u, hu, hrest⟩

theorem get?_fill_of_ne {key : String} (h : fill w call c v as es = .ok es')
    (hkey : ∀ b ∈ as, b.wireKey ≠ key) : es'.get? key = es.get? key := by
  induction as generalizing es with
  | nil =>
    cases h
    rfl
  | cons b rest ih =>
    obtain ⟨u, -, hrest⟩ := fill_cons_ok h
    rw [ih hrest fun b' hb' => hkey b' (List.mem_cons_of_mem _ hb'),
      Entries.get?_insert_of_ne (hkey b List.mem_cons_self)]

/-- A field that no other one replaces holds the value that was written for it. -/
theorem get?_fill (h : fill w call c v as es = .ok es') (ha : a ∈ as)
    (hkey : ∀ b ∈ as, b.wireKey = a.wireKey → b = a) :
    ∃ u, a.wireValue w call c v = .ok u ∧ es'.get? a.wireKey = some u := by
  induction as generalizing es with
  | nil => cases ha
  | cons b rest ih =>
    obtain ⟨u, hu, hrest⟩ := fill_cons_ok h
    by_cases hmem : a ∈ rest
    · exact ih hrest hmem fun b' hb' => hkey b' (List.mem_cons_of_mem _ hb')
    · -- the field is written now, and never again
      have hfirst : a = b := by simpa [hmem] using ha
      subst hfirst
      have hne : ∀ b' ∈ rest, b'.wireKey ≠ a.wireKey := by
        intro b' hb' he
        exact hmem (hkey b' (List.mem_cons_of_mem _ hb') he ▸ hb')
      refine ⟨u, hu, ?_⟩
      rw [get?_fill_of_ne hrest hne, Entries.get?_insert_self]

end Fill

/-- Among what is written before the variants, the embedded fields are in their container. -/
theorem exists_embedded_of_ownEntries {p : Plan} {a : PlannedAttribute} {es : Entries Value}
    (h : p.ownEntries w call c v = .ok es) (ha : a ∈ p.embeddedAttributes)
    (hkey : ∀ b ∈ p.embeddedAttributes, b.wireKey = a.wireKey → b = a) :
    ∃ (inner : Entries Value) (u : Value), es.get? embeddedKey = some (.map inner) ∧
      inner.get? a.wireKey = some u ∧
      a.wireValue w call c v = .ok u := by
  have hembedded : p.hasEmbedded = true := by
    obtain ⟨hmem, he⟩ := List.mem_filter.mp ha
    exact List.any_eq_true.mpr ⟨a, hmem, he⟩
  obtain ⟨_, -, h⟩ := bind_eq_ok.mp h
  obtain ⟨es₁, -, h⟩ := bind_eq_ok.mp h
  unfold Plan.fillEmbedded at h
  rw [if_pos hembedded] at h
  obtain ⟨inner, hinner, h⟩ := bind_eq_ok.mp h
  cases h
  obtain ⟨u, hu, hget⟩ := get?_fill hinner ha hkey
  exact ⟨inner, u, Entries.get?_insert_self _ _ _, hget, hu⟩

/-! ## What variants add -/

/-- What some variants add to the container of the base, in order: the discriminator and the fields
of each one that the value is an instance of. -/
def PlannedDispatch.additions (x : PlannedDispatch) (call : Caller) (c : RequestContext)
    (v : Value) : List PlannedVariant → Outcome (List (String × Value))
  | [] => .ok []
  | a :: rest =>
    if v.kind = .model a.model.qualifiedName then do
      let fields ← (← a.fields call c v).allEntries
      return (x.discriminator, .string a.id) :: fields ++ (← x.additions call c v rest)
    else x.additions call c v rest

theorem put_eq_of_merged {x : PlannedDispatch} (hx : x.nestedAttribute = none) (es : Entries Value)
    (a : PlannedVariant) :
    x.put call c v es a = if v.kind = .model a.model.qualifiedName then do
      let fields ← (← a.fields call c v).allEntries
      return es.insertAll ((x.discriminator, .string a.id) :: fields)
    else .ok es := by
  unfold PlannedDispatch.put
  rw [hx]
  rfl

/-- Without a container of their own, variants put what they add beside the fields of the base. -/
theorem foldlM_put_eq {x : PlannedDispatch} (hx : x.nestedAttribute = none)
    (as : List PlannedVariant) (es : Entries Value) :
    as.foldlM (x.put call c v) es = (x.additions call c v as).map es.insertAll := by
  induction as generalizing es with
  | nil => rfl
  | cons a rest ih =>
    rw [List.foldlM_cons, put_eq_of_merged hx, PlannedDispatch.additions]
    by_cases hkind : v.kind = .model a.model.qualifiedName
    · rw [if_pos hkind, if_pos hkind, bind_assoc, map_bind]
      refine bind_congr_ok ?_
      intro value _
      rw [bind_assoc, map_bind]
      refine lift_bind_congr ?_
      intro fields _
      rw [pure_eq_ok, ok_bind, ih]
      cases x.additions call c v rest with
      | error e => rfl
      | ok more => exact congrArg Except.ok (Entries.insertAll_append es _ more).symm
    · rw [if_neg hkind, if_neg hkind, ok_bind]
      exact ih es

theorem entries_of_merged {p : Plan} {x : PlannedDispatch} (hdispatch : p.dispatch = some x)
    (hx : x.nestedAttribute = none) {es : Entries Value} (h : p.entries w call c v = .ok es) :
    ∃ own added, p.ownEntries w call c v = .ok own ∧
      x.additions call c v x.variants = .ok added ∧ es = own.insertAll added := by
  obtain ⟨own, hown, h⟩ := bind_eq_ok.mp h
  unfold Plan.putVariants at h
  simp only [hdispatch, foldlM_put_eq hx] at h
  rw [map_eq_bind] at h
  obtain ⟨added, hadded, h⟩ := bind_eq_ok.mp h
  cases h
  exact ⟨own, added, hown, hadded, rfl⟩

/-! ## Reading back -/

/-- In a container, the reading method of the plan's mapper finds the field of the attribute, with
the value. -/
def Plan.FindsField (p : Plan) (a : PlannedAttribute) (es : Entries Value) (u : Value) : Prop :=
  ∀ (s : Scope) (f : Frame), f.vars .json = some (.map es) →
    ∃ g, Stmt.execAll s f (findEmbedded p) = .ok (.next g) ∧
      (Expr.hasKey (sourceOf a) a.wireKey).eval s g = .ok (.bool true) ∧
      (Expr.lookup (sourceOf a) a.wireKey).eval s g = .ok u

theorem findsField_of_embedded {p : Plan} {a : PlannedAttribute} {es inner : Entries Value}
    {u : Value} (ha : a ∈ p.embeddedAttributes) (hes : es.get? embeddedKey = some (.map inner))
    (hu : inner.get? a.wireKey = some u) : p.FindsField a es u := by
  intro s f hf
  obtain ⟨hmem, he⟩ := List.mem_filter.mp ha
  have hembedded : p.hasEmbedded = true := List.any_eq_true.mpr ⟨a, hmem, he⟩
  have hsource : sourceOf a = .embeddedMap := if_pos he
  have hvar : (f.set .embeddedMap (.map inner)).vars .embeddedMap = some (.map inner) := by simp
  have hmap : (f.set .embeddedMap (.map inner)).map .embeddedMap = .ok inner := Frame.map_eq hvar
  refine ⟨f.set .embeddedMap (.map inner), ?_, ?_, ?_⟩
  · unfold findEmbedded
    rw [if_pos hembedded, Stmt.execAll_singleton]
    simp [Stmt.exec, Expr.eval, Frame.map_eq hf, Value.entries, hes, Value.cast,
      ValueType.accepts, Value.kind]
  · simp [Expr.eval, hsource, hmap, hu]
  · simp [Expr.eval, hsource, hmap, Value.ofEntry, hu]

end Derive

open Derive

/-- A base whose variants have no container of their own writes its own entries and then puts what
the variants add, in order: an entry with a key that is there takes the place of the value. So each
embedded field is written where the reading method finds it, unless something that the variants add
has the key of the embedded fields. What they add under that key takes the place of the whole
container. -/
theorem embedded_beside_variants {reg : Registry} {g : GeneratorSettings} {d : Descriptor}
    {m : Mapper} {w : World} {x : Dispatch} {v out : Value} {c : RequestContext}
    (hm : reg.derive g d = .ok m) (hget : w.mappers.get? m.type.qualifiedName = some m)
    (hx : d.dispatch = some x) (hmerged : x.nestedAttribute = none)
    (hout : w.toJson m.type.qualifiedName v c = .ok out) :
    ∃ (es own : Entries Value) (added : List (String × Value)), out = .map es ∧
      (planned reg g d).ownEntries w (w.call (w.depthFor v)) c v = .ok own ∧
      (plannedDispatch reg g x).additions (w.call (w.depthFor v)) c v
        (plannedDispatch reg g x).variants = .ok added ∧
      es = own.insertAll added ∧
      (embeddedKey ∉ added.map Prod.fst →
        ∀ a ∈ reg.attributesOf d.representer, a.embedded = true →
          (∀ b ∈ reg.attributesOf d.representer, b.embedded = true →
            b.wireKey = a.wireKey → b = a) →
          ∃ (inner : Entries Value) (u : Value), es.get? embeddedKey = some (.map inner) ∧
            inner.get? a.wireKey = some u ∧
            (plannedAttribute g a).wireValue w (w.call (w.depthFor v)) c v = .ok u ∧
            (planned reg g d).FindsField (plannedAttribute g a) es u) ∧
      ∀ y, (Entries.ofList added).get? embeddedKey = some y → es.get? embeddedKey = some y := by
  obtain ⟨rfl, -, -⟩ := derive_ok hm
  obtain ⟨es, rfl, hes⟩ := Writing.exists_entries_of_toJson hget hout
  obtain ⟨own, added, hown, hadded, rfl⟩ := entries_of_merged
    (show (planned reg g d).dispatch = some (plannedDispatch reg g x) by simp [planned, hx])
    hmerged hes
  have hlast := Entries.get?_insertAll_eq_or own added embeddedKey
  refine ⟨_, own, added, rfl, hown, hadded, rfl, ?_, ?_⟩
  · intro hkey a ha he hunique
    -- nothing that is added has the key, so what is found there is the base's own container
    rw [Entries.get?_ofList_eq_none hkey, Option.none_or] at hlast
    have hmem : plannedAttribute g a ∈ (planned reg g d).embeddedAttributes :=
      List.mem_filter.mpr ⟨List.mem_map_of_mem ha, he⟩
    obtain ⟨inner, u, hcontainer, hu, hvalue⟩ := exists_embedded_of_ownEntries hown hmem (by
      intro b hb hbkey
      obtain ⟨hb, hbe⟩ := List.mem_filter.mp hb
      obtain ⟨b, hbmem, rfl⟩ := List.mem_map.mp hb
      rw [hunique b hbmem hbe hbkey])
    rw [← hlast] at hcontainer
    exact ⟨inner, u, hcontainer, hu, hvalue, findsField_of_embedded hmem hcontainer hu⟩
  · intro y hy
    rw [hlast, hy]
    rfl

namespace Sample

/-! ### Colors beside captions -/

/-- A shape with an embedded color, and a label whose caption is not embedded. -/
def plainCaptions : Shapes :=
  { captions with ofShape := [color.embed true], ofLabel := [caption.embed false] }

theorem plainCaptions_serves : plainCaptions.world.Serves plainCaptions.graph :=
  World.serves_ofRegistry plainCaptions.registry_runnable rfl rfl

/-- The dispatch of a shape to a label. -/
def labelDispatch : Dispatch where
  discriminator := "kind"
  nestedAttribute := none
  variants := [{ id := "label", representer := labelId }]

def stopSign : Value := .model "com.Label" captionFields

def plainCaptionEntries : Entries Value :=
  [("_embedded", .map [("color", .string "red")]), ("kind", .string "label"),
    ("title", .string "stop")]

theorem toJson_plainCaptions :
    plainCaptions.world.toJson (plainCaptions.graph.mapper plainCaptions.shape).type.qualifiedName
      stopSign {} = .ok (.map plainCaptionEntries) :=
  (Writing.toJson_eq plainCaptions_serves (Shapes.mem_graph.mpr (.inl rfl)) rfl _ {}).trans rfl

/-- A label adds its kind and its title to what is written for the shape. -/
theorem additions_plainCaptions :
    ((plannedDispatch plainCaptions.registry {} labelDispatch).additions
      (plainCaptions.world.call (plainCaptions.world.depthFor stopSign)) {} stopSign
      (plannedDispatch plainCaptions.registry {} labelDispatch).variants).map
        (fun added => added.map Prod.fst) = .ok ["kind", "title"] := by
  decide +kernel

/-- A caption that is not embedded leaves the color where it is found. -/
theorem embedded_beside_plainCaptions :
    plainCaptions.registry.derive {} plainCaptions.shape =
        .ok (plainCaptions.graph.mapper plainCaptions.shape) ∧
      plainCaptions.world.toJson
        (plainCaptions.graph.mapper plainCaptions.shape).type.qualifiedName stopSign {} =
          .ok (.map plainCaptionEntries) ∧
      (planned plainCaptions.registry {} plainCaptions.shape).FindsField
        (plannedAttribute {} (color.embed true)) plainCaptionEntries (.string "red") := by
  have hmember : plainCaptions.shape ∈ plainCaptions.graph.members :=
    Shapes.mem_graph.mpr (.inl rfl)
  have hderive : plainCaptions.registry.derive {} plainCaptions.shape =
      .ok (plainCaptions.graph.mapper plainCaptions.shape) := plainCaptions_serves.derive hmember
  have hget : plainCaptions.world.mappers.get?
      (plainCaptions.graph.mapper plainCaptions.shape).type.qualifiedName =
        some (plainCaptions.graph.mapper plainCaptions.shape) := by
    rw [Graph.mapper_qualifiedName]
    exact plainCaptions_serves.get? hmember
  have hdispatch : plainCaptions.shape.dispatch = some labelDispatch := rfl
  obtain ⟨es, own, added, hes, -, hadded, -, hkept, -⟩ :=
    embedded_beside_variants hderive hget hdispatch rfl toJson_plainCaptions
  have hkeys : added.map Prod.fst = ["kind", "title"] := by
    have h := additions_plainCaptions
    rw [hadded] at h
    exact Except.ok.inj h
  have hattributes : plainCaptions.registry.attributesOf plainCaptions.shape.representer =
      [color.embed true] := by decide +kernel
  rw [hattributes] at hkept
  obtain ⟨inner, u, hinner, hu, -, hfound⟩ := hkept (by rw [hkeys]; decide) _
    (List.mem_singleton_self _) rfl fun b hb _ _ => List.mem_singleton.mp hb
  obtain rfl : plainCaptionEntries = es := Value.map.inj hes
  obtain rfl : [("color", .string "red")] = inner := by
    simpa [plainCaptionEntries, Entries.get?, embeddedKey] using hinner
  obtain rfl : .string "red" = u := Option.some.inj hu
  exact ⟨hderive, toJson_plainCaptions, hfound⟩

/-! ### Colors replaced by captions -/

/-- A shape with an embedded color, and a label with an embedded caption. -/
def embeddedCaptions : Shapes := { captions with ofShape := [color.embed true] }

theorem embeddedCaptions_serves : embeddedCaptions.world.Serves embeddedCaptions.graph :=
  World.serves_ofRegistry embeddedCaptions.registry_runnable rfl rfl

/-- What is left of a red stop sign. -/
def embeddedCaptionEntries : Entries Value :=
  [("_embedded", .map [("title", .string "stop")]), ("kind", .string "label")]

theorem toJson_embeddedCaptions :
    embeddedCaptions.world.toJson
      (embeddedCaptions.graph.mapper embeddedCaptions.shape).type.qualifiedName stopSign {} =
        .ok (.map embeddedCaptionEntries) :=
  (Writing.toJson_eq embeddedCaptions_serves (Shapes.mem_graph.mpr (.inl rfl)) rfl _ {}).trans rfl

/-- The embedded fields of a variant take the place of those of the base, also where no two of
them have one key. -/
theorem embedded_replaced_by_captions :
    embeddedCaptions.registry.derive {} embeddedCaptions.shape =
        .ok (embeddedCaptions.graph.mapper embeddedCaptions.shape) ∧
      embeddedCaptions.shape.dispatch = some labelDispatch ∧
      labelDispatch.nestedAttribute = none ∧
      stopSign.kind = .model embeddedCaptions.labelled.model.qualifiedName ∧
      color.embed true ∈ embeddedCaptions.registry.attributesOf shapeId ∧
      (∀ b ∈ embeddedCaptions.registry.attributesOf shapeId ++
          embeddedCaptions.registry.attributesOf labelId,
        b.wireKey = color.wireKey → b = color.embed true) ∧
      embeddedCaptions.world.toJson
        (embeddedCaptions.graph.mapper embeddedCaptions.shape).type.qualifiedName stopSign {} =
          .ok (.map embeddedCaptionEntries) ∧
      embeddedCaptionEntries.get? embeddedKey = some (.map [("title", .string "stop")]) ∧
      Entries.get? ([("title", .string "stop")] : Entries Value) color.wireKey = none := by
  have hattributes : embeddedCaptions.registry.attributesOf shapeId ++
      embeddedCaptions.registry.attributesOf labelId = [color.embed true, caption] := by
    decide +kernel
  refine ⟨embeddedCaptions_serves.derive (Shapes.mem_graph.mpr (.inl rfl)), rfl, rfl, rfl, ?_, ?_,
    toJson_embeddedCaptions, rfl, rfl⟩
  · decide +kernel
  · rw [hattributes]
    decide +kernel

end Sample

end JsonMapping
