import JsonMapping.Proofs.Run.Depth
import JsonMapping.Proofs.Scope.Worlds

/-! Nulls in reading. Null passes every cast, so it may stand wherever a container or a model is
looked for. Reading tests for it at the start of every method and behind every variant, but not
where the container of the embedded fields is bound: there, and nowhere else, a null is used. -/

namespace JsonMapping

/-! ## Nulls under the key of the embedded fields -/

namespace Value

/-- The value is the other one, or it is somewhere in the maps and lists that this is made of. -/
inductive Within (v : Value) : Value → Prop
  | self : Within v v
  | entry {u : Value} {es : Entries Value} {key : String} :
    es.get? key = some u → Within v u → Within v (.map es)
  | item {u : Value} {items : List Value} : u ∈ items → Within v u → Within v (.list items)

/-- Somewhere in the value, null is given for the container of the embedded fields. -/
def EmbedsNull (j : Value) : Prop :=
  ∃ es : Entries Value, Within (.map es) j ∧ es.get? embeddedKey = some .null

variable {j u : Value} {holder : Var}

theorem not_embedsNull_null : ¬ EmbedsNull .null := by
  rintro ⟨es, h, -⟩
  cases h

theorem not_embedsNull_empty : ¬ EmbedsNull (.map []) := by
  rintro ⟨es, h, hnull⟩
  cases h with
  | self => cases hnull
  | entry hget => cases hget

theorem EmbedsNull.of_entry {es : Entries Value} {key : String} (hj : j.entries holder = .ok es)
    (hu : es.get? key = some u) (h : u.EmbedsNull) : j.EmbedsNull := by
  obtain ⟨inner, hwithin, hnull⟩ := h
  rw [eq_map_of_entries hj]
  exact ⟨inner, .entry hu hwithin, hnull⟩

theorem EmbedsNull.of_item {items : List Value} (hj : j.elements holder = .ok items)
    (hu : u ∈ items) (h : u.EmbedsNull) : j.EmbedsNull := by
  obtain ⟨inner, hwithin, hnull⟩ := h
  cases j <;> simp only [elements, reduceCtorEq] at hj
  cases hj
  exact ⟨inner, .item hu hwithin, hnull⟩

theorem EmbedsNull.of_ofEntry {es : Entries Value} {key : String} (hj : j.entries holder = .ok es)
    (h : (ofEntry es key).EmbedsNull) : j.EmbedsNull := by
  unfold ofEntry at h
  cases hget : es.get? key with
  | some u =>
    rw [hget] at h
    exact h.of_entry hj hget
  | none =>
    rw [hget] at h
    exact absurd h not_embedsNull_null

end Value

/-! ## Guarded runs -/

/-- A value is of the wrong kind; or, if there are nulls, one is used as the container of the
embedded fields. -/
def Halt.Guarded (nulls : Prop) : Halt → Prop
  | .fault (.typeMismatch _ _) => True
  | .fault (.nullDereference (.var .embeddedMap)) => nulls
  | _ => False

theorem Halt.Guarded.mono {nulls nulls' : Prop} (h : nulls → nulls') {halt : Halt}
    (hhalt : halt.Guarded nulls) : halt.Guarded nulls' := by
  unfold Guarded at *
  split <;> simp_all

/-- The run gives a result with the property, unless it stops so. -/
abbrev Guarded {α : Type} (nulls : Prop) (P : α → Prop) (x : Outcome α) : Prop :=
  Ends (Halt.Guarded nulls) P x

/-- The run on a value gives a result, unless it stops so and the value has the null for it. -/
abbrev GuardedOn {α : Type} (j : Value) (x : Outcome α) : Prop :=
  Guarded j.EmbedsNull (fun _ => True) x

theorem Guarded.mono {α : Type} {nulls nulls' : Prop} {P Q : α → Prop} {x : Outcome α}
    (h : Guarded nulls P x) (hnulls : nulls → nulls') (hP : ∀ a, P a → Q a) :
    Guarded nulls' Q x :=
  Ends.mono h (fun _ => Halt.Guarded.mono hnulls) hP

section Values

variable {nulls : Prop} {j : Value} {holder : Var}

theorem Value.guarded_cast (v : Value) (t : ValueType) :
    Guarded nulls (fun u => u = v) (liftM (v.cast t)) := by
  unfold Value.cast
  split
  · rfl
  · trivial

theorem Value.guarded_castTo (v : Value) (type : Option JavaType) :
    Guarded nulls (fun u => u = v) (liftM (v.castTo type)) := by
  cases type with
  | none => rfl
  | some t => exact v.guarded_cast _

theorem Value.guarded_entries (h : j.isNull = false) :
    Guarded nulls (fun _ => True) (liftM (j.entries holder)) := by
  cases j <;> trivial

theorem Value.guarded_elements (h : j.isNull = false) :
    Guarded nulls (fun _ => True) (liftM (j.elements holder)) := by
  cases j <;> trivial

/-- A list is read element by element, and null as an empty one. -/
theorem Value.guarded_items {read : Value → Outcome Value}
    (h : ∀ i : Value, i.height < j.height → GuardedOn i (read i)) :
    GuardedOn j (do
      if j.isNull then return .list []
      return .list (← (← j.elements .jsonArray).mapM read) : Outcome Value) := by
  cases hj : j.isNull with
  | true => trivial
  | false =>
    refine (Value.guarded_elements hj).bind fun items hitems _ => ?_
    have hitems := lift_eq_ok.mp hitems
    refine (Ends.mapM fun i hi => ?_).bind fun _ _ _ => trivial
    exact (h i (height_lt_of_elements hitems hi)).mono (.of_item hitems hi) fun _ => id

theorem Value.guarded_setAttribute {model : Value} (h : model.isNull = false) (field : Identifier)
    (v : Value) :
    Guarded nulls (fun u => u.isNull = false) (liftM (model.setAttribute field v)) := by
  cases model <;> trivial

end Values

/-! ## One step of reading -/

/-- There is a function for the type, and it never fails. -/
def World.Decodes (w : World) (t : JavaType) : Prop :=
  ∃ f : Value → Value, w.helper t = .ok fun v => .ok (f v)

/-- What a descriptor is read with never fails. -/
structure World.DecodesFor (w : World) (reg : Registry) (d : Descriptor) : Prop where
  custom : ∀ t ∈ d.customDeserializer, w.Decodes t
  attributes : ∀ m ∈ reg.attributesOf d.representer, ∀ s t, m.conversion = .plain s (some t) →
    w.Decodes t

theorem World.Decodes.guarded {w : World} {t : JavaType} (h : w.Decodes t) (nulls : Prop)
    (v : Value) :
    Guarded nulls (fun _ => True) (liftM (do (← w.helper t) v) : Outcome Value) := by
  obtain ⟨f, hf⟩ := h
  rw [hf]
  trivial

namespace Graph

/-- Whatever members refer to can be read by a member, and nothing that they decode with fails. -/
structure Readable (G : Graph) (w : World) : Prop where
  callee : ∀ d ∈ G.members, ∀ r ∈ G.references d, ∀ k : MethodKind, k.writes = false →
    ∃ e, G.callee k r = .ok e
  decodes : ∀ d ∈ G.members, w.DecodesFor G.registry d

variable {G : Graph} {w : World} {R : Reader} {d : Descriptor} {j u : Value}

theorem Readable.guarded_readOne (hG : G.Readable w) (hd : d ∈ G.members) {r : RepresenterId}
    (hr : r ∈ G.references d)
    (h : ∀ e, G.find? r = some e → GuardedOn u (R e u)) :
    GuardedOn u (G.readOne R r u) := by
  obtain ⟨e, he⟩ := hG.callee d hd r hr .fromJson rfl
  unfold readOne
  rw [he, lift_ok, ok_bind]
  exact h e (callee_ok he).1

theorem Readable.guarded_readAll (hG : G.Readable w) (hd : d ∈ G.members) {r : RepresenterId}
    (hr : r ∈ G.references d)
    (h : ∀ e ∈ G.members, ∀ i : Value, i.height < u.height → GuardedOn i (R e i)) :
    GuardedOn u (G.readAll R r u) := by
  obtain ⟨e, he⟩ := hG.callee d hd r hr .fromJsonCollection rfl
  have hmember := mem_of_find? (callee_ok he).1
  unfold readAll
  rw [he, lift_ok, ok_bind]
  exact Value.guarded_items fun i hi => h e hmember i hi

theorem Readable.guarded_readValue (hG : G.Readable w) (hd : d ∈ G.members)
    {m : AttributeMapping} (hm : m ∈ G.attributes d)
    (h : ∀ e ∈ G.members, ∀ i : Value, i.height ≤ u.height → GuardedOn i (R e i)) :
    GuardedOn u (G.readValue w R m u) := by
  unfold readValue
  cases hc : m.conversion with
  | plain serializer deserializer =>
    cases deserializer with
    | none => exact (u.guarded_castTo _).of_imp fun _ _ => trivial
    | some t =>
      unfold World.decode
      simp only [lift_bind]
      refine (u.guarded_castTo _).bind fun raw _ _ => ?_
      have := ((hG.decodes d hd).attributes m hm serializer t hc).guarded u.EmbedsNull raw
      rwa [lift_bind] at this
  | single r =>
    refine (u.guarded_cast _).bind ?_
    rintro _ - rfl
    exact hG.guarded_readOne hd (single_mem_references hm hc) fun e he =>
      h e (mem_of_find? he) _ (Nat.le_refl _)
  | collection r element =>
    refine (u.guarded_cast _).bind ?_
    rintro _ - rfl
    exact hG.guarded_readAll hd (collection_mem_references hm hc) fun e he i hi =>
      h e he i (Nat.le_of_lt hi)

theorem Readable.guarded_readVariant (hG : G.Readable w) (hd : d ∈ G.members) {x : Dispatch}
    (hx : d.dispatch = some x) (hj : j.isNull = false)
    (h : ∀ e ∈ G.members, ∀ i, G.weight e i < G.weight d j → GuardedOn i (R e i)) :
    GuardedOn j (G.readVariant R x j) := by
  refine (Value.guarded_entries hj).bind fun es hes _ => ?_
  have hes := lift_eq_ok.mp hes
  dsimp only
  split
  · rename_i a ha
    have ha : a ∈ d.variants := by
      rw [Descriptor.variants_eq hx]
      exact List.mem_of_find?_eq_some ha
    have hread := fun i => hG.guarded_readOne (u := i) (R := R) hd (variant_mem_references ha)
    unfold variantSource
    split
    · rename_i key _
      rw [hes, ok_bind]
      refine (Value.guarded_cast _ _).bind ?_
      rintro _ - rfl
      refine (hread _ fun e he => h e (mem_of_find? he) _ ?_).mono (.of_ofEntry hes) fun _ => id
      exact G.weight_lt_of_height_lt (Value.height_ofEntry_lt hes key) e d
    · exact hread j fun e he => h e (mem_of_find? he) j
        (G.weight_lt_of_handsOn (G.handsOn_of_find? ha he) j)
  · trivial

/-- What is bound as the container of the embedded fields is null only if null is given for it. -/
theorem guarded_embeddedIn (hj : j.isNull = false) :
    Guarded j.EmbedsNull (fun embedded =>
        (G.hasEmbedded d = true → embedded = .null → j.EmbedsNull) ∧
          (embedded.EmbedsNull → j.EmbedsNull))
      (liftM (G.embeddedIn d j)) := by
  unfold embeddedIn
  split
  · rw [lift_bind]
    refine (Value.guarded_entries hj).bind fun es hes _ => ?_
    have hes := lift_eq_ok.mp hes
    split
    · rename_i found hfound
      refine (found.guarded_cast _).of_imp ?_
      rintro _ rfl
      refine ⟨?_, .of_entry hes hfound⟩
      rintro - rfl
      exact ⟨es, Value.eq_map_of_entries hes ▸ .self, hfound⟩
    · exact ⟨nofun, fun h => absurd h Value.not_embedsNull_empty⟩
  · rename_i hnone
    exact ⟨fun h => absurd h hnone, fun h => absurd h Value.not_embedsNull_null⟩

theorem guarded_fieldsFor {embedded : Value} {m : AttributeMapping} (hj : j.isNull = false)
    (h : m.embedded = true → embedded = .null → j.EmbedsNull) :
    GuardedOn j (liftM (fieldsFor j embedded m)) := by
  unfold fieldsFor
  split
  · rename_i hm
    cases embedded with
    | null => exact h hm rfl
    | _ => trivial
  · exact Value.guarded_entries hj

theorem Readable.guarded_readAttributes (hG : G.Readable w) (hd : d ∈ G.members)
    (hj : j.isNull = false) {model : Value} (hmodel : model.isNull = false)
    (h : ∀ e ∈ G.members, ∀ i : Value, i.height < j.height → GuardedOn i (R e i)) :
    Guarded j.EmbedsNull (fun v => v.isNull = false) (G.readAttributes w R d j model) := by
  refine (guarded_embeddedIn hj).bind ?_
  rintro embedded hembedded ⟨hnull, hinside⟩
  have hheight := height_embeddedIn_le (lift_eq_ok.mp hembedded)
  -- setting an attribute keeps the model from being null
  refine .foldlM hmodel fun model m hm hmodel => ?_
  have hfields : m.embedded = true → embedded = .null → j.EmbedsNull := fun he =>
    hnull (List.any_eq_true.mpr ⟨m, hm, he⟩)
  refine (guarded_fieldsFor hj hfields).bind fun es hes _ => ?_
  have hes := lift_eq_ok.mp hes
  split
  · rename_i raw hraw
    have hlt := height_lt_of_fieldsFor hheight hes hraw
    have hread := hG.guarded_readValue (u := raw) (R := R) hd hm fun e he i hi =>
      h e he i (by omega)
    refine (hread.mono ?_ fun _ => id).bind fun v _ _ => Value.guarded_setAttribute hmodel _ v
    intro hembeds
    unfold fieldsFor at hes
    split at hes
    · exact hinside (hembeds.of_entry hes hraw)
    · exact hembeds.of_entry hes hraw
  · exact hmodel

/-- One step of reading uses no null, unless one is given for the container of embedded fields. -/
theorem Readable.guarded_readWith (hG : G.Readable w) (hd : d ∈ G.members)
    (h : ∀ e ∈ G.members, ∀ i, G.weight e i < G.weight d j → GuardedOn i (R e i)) :
    GuardedOn j (G.readWith w R d j) := by
  unfold readWith
  cases hj : j.isNull with
  | true => trivial
  | false =>
    cases hcustom : d.customDeserializer with
    | some t =>
      have := ((hG.decodes d hd).custom t hcustom).guarded j.EmbedsNull j
      rwa [lift_bind] at this
    | none =>
      have hmake : GuardedOn j (G.makeModel w R d j) := by
        unfold makeModel
        split
        · rename_i x hx
          exact hG.guarded_readVariant hd hx hj h
        · trivial
      refine hmake.bind fun model _ _ => ?_
      cases hmodel : model.isNull with
      | true => trivial
      | false =>
        exact (hG.guarded_readAttributes hd hj hmodel fun e he i hi =>
          h e he i (G.weight_lt_of_height_lt hi e d)).of_imp fun _ _ => trivial

/-- Nor does any reading, which is one step after the other. -/
theorem Readable.guarded_read (hG : G.Readable w) (hd : d ∈ G.members) (j : Value) :
    GuardedOn j (G.read w d j) := by
  -- not on the height of the value: a variant may be read from the value itself
  induction hweight : G.weight d j using Nat.strong_induction_on generalizing d j with
  | _ weight ih =>
    rw [read_eq]
    exact hG.guarded_readWith hd fun e he i hi => ih _ (hweight ▸ hi) he i rfl

/-- So every answer in reading is guarded, that for a list, too. -/
theorem Readable.guarded_answer (hG : G.Readable w) (hd : d ∈ G.members) (c : RequestContext)
    {k : MethodKind} (hk : k.writes = false) (j : Value) :
    GuardedOn j (G.answer w c d j k) := by
  cases k with
  | toJson | toJsonCollection => cases hk
  | fromJson => exact hG.guarded_read hd j
  | fromJsonCollection => exact Value.guarded_items fun i _ => hG.guarded_read hd i

end Graph

/-! ## Worlds where all mappers are loaded -/

section Loaded

open Derive

variable {reg : Registry} {g : GeneratorSettings} {ms : List Mapper} {w : World}

theorem World.decodes_loadAll {t : JavaType} (h : w.Decodes t) : (w.loadAll ms).Decodes t := by
  unfold World.Decodes
  rwa [helper_loadAll]

/-- Every reference leads to a mapper that is loaded, if perhaps to that of a namesake. -/
theorem Graph.readable_ofWorld (hlocal : reg.IsLocal) (hms : reg.deriveAll g = .ok ms)
    (hw : w.mappers = []) (hskip : ∀ d ∈ reg.localDescriptors, d.skipDeserialize = false)
    (hdecodes : ∀ d ∈ reg.localDescriptors, w.DecodesFor reg d)
    (hacyclic : ∀ m, ¬ Relation.TransGen ((w.loadAll ms).Dispatches reg g) m m) :
    (Graph.ofWorld reg g (w.loadAll ms) hacyclic).Readable (w.loadAll ms) := by
  have hmember : ∀ d ∈ reg.loadedDescriptors g (w.loadAll ms), d ∈ reg.localDescriptors :=
    fun d hd => (Registry.mem_loadedDescriptors.mp hd).1
  refine ⟨?_, ?_⟩
  · intro d hd r hr k hk
    obtain ⟨-, hlocals⟩ := deriveAll_ok hms
    obtain ⟨⟨e, he⟩, -⟩ := (hlocals d (hmember d hd)).2 r hr
    have hcallee := toMapper_mem hms (hlocal.mem_of_resolve? he)
    obtain ⟨m, -, hget⟩ := w.exists_get?_loadAll hcallee
    have hname : (planned reg g e).toMapper.type.qualifiedName = g.mapperName r := by
      rw [← Registry.representer_of_resolve? he]
      rfl
    rw [hname] at hget
    obtain ⟨e', he', -, hname'⟩ :=
      (World.holdsOnly_loadAll hw ms).exists_member hms hget
    unfold Graph.callee
    cases hfind : (Graph.ofWorld reg g (w.loadAll ms) hacyclic).find? r with
    | none => exact absurd hname'.symm (Graph.mapperName_ne_of_find?_eq_none hfind he')
    | some f =>
      have hskips : f.skips k = false :=
        (skips_congr (k := .fromJson) hk).trans (hskip f (hmember f (Graph.mem_of_find? hfind)))
      exact ⟨f, by simp [hskips]⟩
  · intro d hd
    obtain ⟨hcustom, hattributes⟩ := hdecodes d (hmember d hd)
    exact ⟨fun t ht => World.decodes_loadAll (hcustom t ht), fun m hm s t hc =>
      World.decodes_loadAll (hattributes m hm s t hc)⟩

/-- Reading gives a value or finds one of the wrong kind, whatever it is given and wherever nulls
are in it, if nothing that it decodes with fails. One null is used all the same: the one that is
given for the container of the embedded fields. -/
theorem nulls_used_in_reading (hlocal : reg.IsLocal) (hms : reg.deriveAll g = .ok ms)
    (hw : w.mappers = []) (hskip : ∀ d ∈ reg.localDescriptors, d.skipDeserialize = false)
    (hdecodes : ∀ d ∈ reg.localDescriptors, w.DecodesFor reg d)
    (hacyclic : ∀ m, ¬ Relation.TransGen ((w.loadAll ms).Dispatches reg g) m m) :
    ∀ m ∈ ms, ∀ j : Value,
      GuardedOn j ((w.loadAll ms).fromJson m.type.qualifiedName j) ∧
      GuardedOn j ((w.loadAll ms).fromJsonList m.type.qualifiedName j) := by
  intro m hm j
  have hholds := World.holdsOnly_loadAll hw ms
  have hserves := hholds.serves hms hacyclic
  have hreadable := Graph.readable_ofWorld hlocal hms hw hskip hdecodes hacyclic
  obtain ⟨m', -, hget⟩ := w.exists_get?_loadAll hm
  obtain ⟨d, hd, -, hname⟩ := hholds.exists_member hms hget
  have hnotSkipped := hskip d (Registry.mem_loadedDescriptors.mp hd).1
  have hrun : ∀ k : MethodKind, k.writes = false →
      GuardedOn j ((w.loadAll ms).run m.type.qualifiedName k j (k.given {})) := by
    intro k hk
    have hskips : d.skips k = false := (skips_congr (k := .fromJson) hk).trans hnotSkipped
    have heq := hserves.runWithin_eq hd k j {} (World.depthBound_le_depthFor _ j)
    rw [World.run, hname]
    refine heq ▸ ?_
    rw [hskips]
    exact hreadable.guarded_answer hd {} hk j
  exact ⟨hrun .fromJson rfl, hrun .fromJsonCollection rfl⟩

end Loaded

namespace Sample

theorem codecWorld_decodesFor : ∀ d ∈ mottos.localDescriptors,
    (codecWorld .ok).DecodesFor mottos d := by
  have hdecodes : (codecWorld .ok).Decodes codec := by
    refine ⟨id, ?_⟩
    simp only [World.helper, get?_helpers_codecWorld]
    rfl
  intro d hd
  have hd : d = team := by simpa [mottos, Registry.localDescriptors] using hd
  subst hd
  refine ⟨fun t ht => ?_, fun m hm s t hc => ?_⟩
  · cases ht
  · have hm : m = motto := by
      simpa [mottos, Registry.attributesOf] using hm
    subst hm
    cases hc
    exact hdecodes

theorem nulls_used_in_reading_mottos :
    mottos.IsLocal ∧ mottos.deriveAll {} = .ok (mappersOf mottos) ∧
      (∀ d ∈ mottos.localDescriptors, d.skipDeserialize = false) ∧
      (∀ d ∈ mottos.localDescriptors, (codecWorld .ok).DecodesFor mottos d) ∧
      (∀ m, ¬ Relation.TransGen
        (((codecWorld .ok).loadAll (mappersOf mottos)).Dispatches mottos {}) m m) ∧
      ∀ j : Value, ¬ j.EmbedsNull → Guarded False (fun _ => True)
        (((codecWorld .ok).loadAll (mappersOf mottos)).fromJson "gen.com.TeamMapper" j) := by
  have hlocal : mottos.IsLocal := by decide
  have hms : mottos.deriveAll {} = .ok (mappersOf mottos) := rfl
  have hskip : ∀ d ∈ mottos.localDescriptors, d.skipDeserialize = false := by decide
  have hholds := World.holdsOnly_loadAll (w := codecWorld .ok) rfl (mappersOf mottos)
  have hacyclic := hholds.acyclic hms (acyclic_of_flat fun d hd e h => by
    obtain rfl : d = team := by simpa [mottos, Registry.localDescriptors] using hd
    obtain ⟨-, a, ha, -⟩ := h
    cases ha)
  refine ⟨hlocal, hms, hskip, codecWorld_decodesFor, hacyclic, ?_⟩
  intro j hj
  have hteam : (Derive.planned mottos {} team).toMapper ∈ mappersOf mottos :=
    List.mem_singleton_self _
  exact (nulls_used_in_reading hlocal hms rfl hskip codecWorld_decodesFor hacyclic _ hteam j).1.mono
    hj fun _ => id

/-- The null that is used: a node whose children are embedded, with null for their container. -/
theorem null_used_as_embedded :
    trees.IsLocal ∧ trees.Runnable {} ∧ trees.deriveAll {} = .ok [treeGraph.mapper node] ∧
      (∀ d ∈ trees.localDescriptors, d.skipDeserialize = false ∧ d.customDeserializer = none) ∧
      (∀ m ∈ trees.attributesOf nodeId, ∀ s t, m.conversion ≠ .plain s (some t)) ∧
      treeWorld.fromJson "gen.com.NodeMapper" (.map [("_embedded", .null)]) =
        .error (.fault (.nullDereference (.var .embeddedMap))) := by
  refine ⟨by decide, trees_runnable, rfl, by decide, ?_, ?_⟩
  · intro m hm s t hc
    have hm : m = label ∨ m = children := by
      simpa [trees, Registry.attributesOf] using hm
    rcases hm with rfl | rfl <;> cases hc
  · exact (Reading.fromJson_eq treeWorld_serves node_mem rfl _).trans rfl

end Sample

end JsonMapping
