import JsonMapping.Proofs.RoundTrip.Fields

/-! Round trips of values. A value that fits a descriptor is written and read back by what its
fields allow: a model of the descriptor itself from its own container, one of a variant from the
container that the base and the variant share or that the variant has in it. -/

namespace JsonMapping

namespace Graph

variable {G : Graph} {w : World} {c : RequestContext} {d e : Descriptor} {S : Descriptor → Prop}
variable {fields es : Entries Value}

/-! ## A descriptor without variants -/

theorem variants_eq_nil (h : d.dispatch = none) : d.variants = [] := by
  simp [Descriptor.variants, h]

/-- What the fields of a model come back as, in a new instance of a model. -/
theorem Carries.read (hS : G.Closed S) (hd : S d) (hflat : d.dispatch = none)
    (h : G.Carries w d fields es) :
    ∃ fields', G.read w d (.map es) = .ok (.model d.model.qualifiedName fields') ∧
      (∀ m ∈ G.attributes d, G.FieldComesBack w m (.ofEntry fields m.model.name.text)
        (.ofEntry fields' m.model.name.text)) ∧
      ∀ key ∉ G.modelNames d,
        Entries.get? fields' key = (w.defaultFields d.model).get? key := by
  obtain ⟨fields', hset, hback, hothers⟩ :=
    h.readAttributes (hS.tidy d hd) d.model.qualifiedName (w.defaultFields d.model)
  refine ⟨fields', ?_, hback, hothers⟩
  rw [read_eq]
  unfold readWith makeModel
  rw [(hS.tidy d hd).standard, hflat]
  exact hset

theorem write_own (hS : G.Closed S) (hd : S d) (hflat : d.dispatch = none) {type : String}
    (hfill : G.Fills w d fields)
    (ih : ∀ e u, u.height < (Value.model type fields).height → S e → G.Fits w e u →
      G.RoundTrips w c e u) :
    ∃ es, G.write w c d (.model type fields) = .ok es ∧ G.Carries w d fields es ∧
      es.keys.Nodup ∧ ∀ key ∉ G.topKeys d, es.get? key = none := by
  obtain ⟨es, hwrite, hrest⟩ := writeWith_own hS hd hfill ih
  refine ⟨es, ?_, hrest⟩
  rw [write_eq, hwrite]
  simp [putVariants, hflat]

/-! ## A variant -/

/-- Variants of other models add nothing. -/
theorem foldlM_putVariant_of_ne {W : Writer} {x : Dispatch} {v : Value} {as : List Variant}
    (h : ∀ a ∈ as, v.kind ≠ .model (G.registry.modelOf a.representer).qualifiedName) :
    as.foldlM (G.putVariant W x v) es = .ok es := by
  induction as with
  | nil => rfl
  | cons a rest ih =>
    have hskip : G.putVariant W x v es a = .ok es := if_neg (h a (by simp))
    rw [List.foldlM_cons, hskip]
    exact ih fun b hb => h b (by simp [hb])

/-- Of variants with distinct models, the one of the value's model alone adds to the container. -/
theorem foldlM_putVariant_eq {W : Writer} {x : Dispatch} {v : Value} {a : Variant}
    {as : List Variant}
    (hmodels : (as.map fun a => (G.registry.modelOf a.representer).qualifiedName).Nodup)
    (ha : a ∈ as) (hv : v.kind = .model (G.registry.modelOf a.representer).qualifiedName) :
    as.foldlM (G.putVariant W x v) es = G.putVariant W x v es a := by
  induction as with
  | nil => cases ha
  | cons b rest ih =>
    rw [List.map_cons, List.nodup_cons] at hmodels
    rw [List.foldlM_cons]
    rcases List.mem_cons.mp ha with rfl | hr
    · have hrest : ∀ b ∈ rest,
          v.kind ≠ .model (G.registry.modelOf b.representer).qualifiedName := by
        intro b hb he
        rw [hv] at he
        exact hmodels.1 (ValueKind.model.inj he ▸ List.mem_map_of_mem hb)
      cases hput : G.putVariant W x v es a with
      | error err => rfl
      | ok es' => exact foldlM_putVariant_of_ne hrest
    · have hskip : G.putVariant W x v es b = .ok es := by
        refine if_neg fun he => hmodels.1 ?_
        rw [hv] at he
        rw [← ValueKind.model.inj he]
        exact List.mem_map_of_mem hr
      rw [hskip]
      exact ih hmodels.2 hr

/-- The discriminator leads back to the variant that wrote it. -/
theorem find?_variant {as : List Variant} (hids : (as.map (·.id)).Nodup) {a : Variant}
    (ha : a ∈ as) :
    (as.find? fun b => (Value.string a.id).string? = some b.id) = some a := by
  have hsome : (as.find? fun b => (Value.string a.id).string? = some b.id).isSome := by
    rw [List.find?_isSome]
    exact ⟨a, ha, by simp [Value.string?]⟩
  obtain ⟨b, hb⟩ := Option.isSome_iff_exists.mp hsome
  have hid : a.id = b.id := by simpa [Value.string?] using List.find?_some hb
  rw [hb, List.inj_on_of_nodup_map hids (List.mem_of_find?_eq_some hb) ha hid.symm]

theorem cast_of_castable {t : JavaType} (h : Castable t) (fields : Entries Value) :
    Value.cast (.model t.qualifiedName fields) (.declared t) =
      .ok (.model t.qualifiedName fields) := by
  have haccepts : t.accepts (.model t.qualifiedName fields) = true := by
    unfold JavaType.accepts
    rcases h with h | h
    · rw [h]
      exact decide_eq_true rfl
    · rw [h]
  simp [Value.cast, ValueType.accepts, haccepts]

/-- After the variant is written, the container still carries the fields of the base, names the
variant, and has a part that carries the fields of the variant. -/
theorem putVariant_carries {x : Dispatch} {a : Variant} {type : String} {inner : Entries Value}
    (hx : G.Separates d x) (ha : a ∈ x.variants) (he : G.registry.resolve? a.representer = some e)
    (hkind : type = (G.registry.modelOf a.representer).qualifiedName)
    (hfields : G.variantFields (G.write w c) (.model type fields) a = .ok inner)
    (hbase : G.Carries w d fields es) (hbaseKeys : ∀ key ∉ G.topKeys d, es.get? key = none)
    (hinner : G.Carries w e fields inner) (hinnerNodup : inner.keys.Nodup)
    (hinnerKeys : ∀ key ∉ G.topKeys e, inner.get? key = none) :
    ∃ es', G.putVariant (G.write w c) x (.model type fields) es a = .ok es' ∧
      G.Carries w d fields es' ∧ es'.get? x.discriminator = some (.string a.id) ∧
      ∃ part, variantSource x (.map es') = .ok (.map part) ∧ G.Carries w e fields part := by
  have hput : ∀ r : Entries Value → Outcome (Entries Value),
      (do r (← G.variantFields (G.write w c) (.model type fields) a)) = r inner := by
    intro r
    rw [hfields, ok_bind]
  unfold putVariant variantSource
  rw [if_pos (by rw [← hkind]; rfl)]
  dsimp only
  rw [hput]
  cases hnested : x.nestedAttribute with
  | none =>
    obtain ⟨hdisjoint, hdfree, hefree⟩ := hx.merged hnested a ha e he
    have hget := Entries.get?_insertAll hinnerNodup (es.insert x.discriminator (.string a.id))
    refine ⟨_, rfl, hbase.of_get?_eq ?_, ?_, _, rfl, hinner.of_get?_eq ?_⟩
    · intro key hkey
      have hne : x.discriminator ≠ key := fun h => hdfree (h ▸ hkey)
      rw [hget, hinnerKeys key fun h => hdisjoint hkey h, Option.none_or,
        Entries.get?_insert_of_ne hne]
    · rw [hget, hinnerKeys _ hefree, Option.none_or, Entries.get?_insert_self]
    · intro key hkey
      have hne : x.discriminator ≠ key := fun h => hefree (h ▸ hkey)
      rw [hget, Entries.get?_insert_of_ne hne, hbaseKeys key fun h => hdisjoint h hkey,
        Option.or_none]
  | some key =>
    obtain ⟨hne, hdfree, hkeyFree⟩ := hx.nested key hnested
    refine ⟨_, rfl, hbase.of_get?_eq ?_, ?_, inner, ?_, hinner⟩
    · intro k hk
      have hkeyNe : key ≠ k := fun h => hkeyFree (h ▸ hk)
      have hdNe : x.discriminator ≠ k := fun h => hdfree (h ▸ hk)
      rw [Entries.get?_insert_of_ne hkeyNe, Entries.get?_insert_of_ne hdNe]
    · rw [Entries.get?_insert_of_ne hne.symm, Entries.get?_insert_self]
    · simp [Value.entries, Value.ofEntry, Entries.get?_insert_self, Value.cast,
        ValueType.accepts, Value.kind]

/-! ## All values -/

theorem roundTrips_model (hS : G.Closed S) (hd : S d) (hflat : d.dispatch = none)
    (hfill : G.Fills w d fields)
    (ih : ∀ e u, u.height < (Value.model d.model.qualifiedName fields).height → S e →
      G.Fits w e u → G.RoundTrips w c e u) :
    G.RoundTrips w c d (.model d.model.qualifiedName fields) := by
  obtain ⟨es, hwrite, hcarries, -, -⟩ := write_own hS hd hflat hfill ih
  obtain ⟨fields', hread, hback, hothers⟩ := hcarries.read hS hd hflat
  exact ⟨es, _, hwrite, hread, .model hflat hback hothers⟩

/-- A model of a variant: the base and the variant both bring back what they map. -/
theorem write_read_variant (hS : G.Closed S) (hd : S d) {a : Variant} (ha : a ∈ d.variants)
    (hids : (d.variants.map (·.id)).Nodup) (he : G.registry.resolve? a.representer = some e)
    (hcast : Castable e.model) (hbase : G.Fills w d fields)
    (hvariant : G.Fills w e fields)
    (ih : ∀ e' u, u.height < (Value.model e.model.qualifiedName fields).height → S e' →
      G.Fits w e' u → G.RoundTrips w c e' u) :
    ∃ es fields', G.write w c d (.model e.model.qualifiedName fields) = .ok es ∧
      G.read w d (.map es) = .ok (.model e.model.qualifiedName fields') ∧
      (∀ m ∈ G.attributes d, G.FieldComesBack w m (.ofEntry fields m.model.name.text)
        (.ofEntry fields' m.model.name.text)) ∧
      (∀ m ∈ G.attributes e, m.model.name.text ∉ G.modelNames d →
        G.FieldComesBack w m (.ofEntry fields m.model.name.text)
          (.ofEntry fields' m.model.name.text)) ∧
      ∀ key, key ∉ G.modelNames d → key ∉ G.modelNames e →
        Entries.get? fields' key = (w.defaultFields e.model).get? key := by
  obtain ⟨x, hx⟩ : ∃ x, d.dispatch = some x := by
    cases hx : d.dispatch with
    | none =>
      rw [variants_eq_nil hx] at ha
      cases ha
    | some x => exact ⟨x, rfl⟩
  rw [Descriptor.variants_eq hx] at ha hids
  have hSe := hS.variants d hd a (by rwa [Descriptor.variants_eq hx]) e he
  have hsep := hS.separates d hd x hx
  have hflat := hsep.flat a ha e he
  have hmodel := Registry.modelOf_eq he
  -- what the base and the variant write
  obtain ⟨es, hes, hbaseCarries, -, hbaseKeys⟩ := writeWith_own hS hd hbase ih
  obtain ⟨inner, hinner, hcarries, hnodup, hkeys⟩ := write_own hS hSe hflat hvariant ih
  have hfields : G.variantFields (G.write w c) (.model e.model.qualifiedName fields) a =
      .ok inner := by
    rw [variantFields, hmodel, cast_of_castable hcast, lift_ok, ok_bind, writeOne,
      hS.callee he hSe, lift_ok, ok_bind, hinner]
  obtain ⟨es', hput, hbaseCarries, hdiscriminator, part, hpart, hcarries⟩ :=
    putVariant_carries hsep ha he (by rw [hmodel]) hfields hbaseCarries hbaseKeys hcarries hnodup
      hkeys
  -- what the variant and then the base read
  obtain ⟨fields₁, hread, hback, hothers⟩ := hcarries.read hS hSe hflat
  obtain ⟨fields₂, hset, hbaseBack, hbaseOthers⟩ :=
    hbaseCarries.readAttributes (hS.tidy d hd) e.model.qualifiedName fields₁
  refine ⟨es', fields₂, ?_, ?_, hbaseBack, ?_, ?_⟩
  · rw [write_eq, hes]
    unfold putVariants
    rw [hx]
    dsimp only
    rw [foldlM_putVariant_eq hsep.models ha (by rw [hmodel]; rfl), hput]
  · have hmade : G.readVariant (G.read w) x (.map es') =
        .ok (.model e.model.qualifiedName fields₁) := by
      unfold readVariant
      simp only [Value.entries, lift_ok, ok_bind, Value.ofEntry, hdiscriminator,
        Option.getD_some, find?_variant hids ha, hpart, readOne, hS.callee he hSe, hread]
    rw [read_eq]
    unfold readWith makeModel
    rw [(hS.tidy d hd).standard, hx]
    dsimp only
    rw [hmade]
    exact hset
  · intro m hm hm'
    have hsame := hbaseOthers _ hm'
    rw [show Value.ofEntry fields₂ m.model.name.text = Value.ofEntry fields₁ m.model.name.text by
      simp only [Value.ofEntry, hsame]]
    exact hback m hm
  · intro key hd he
    rw [hbaseOthers key hd, hothers key he]

/-- Values that fit make their round trips. -/
theorem roundTrips_of_fits (hS : G.Closed S)
    (hids : ∀ d, S d → (d.variants.map (·.id)).Nodup) {v : Value} (hd : S d)
    (hv : G.Fits w d v) : G.RoundTrips w c d v := by
  induction hn : v.height using Nat.strong_induction_on generalizing d v with
  | _ n ih =>
    subst hn
    have ih : ∀ e u, u.height < v.height → S e → G.Fits w e u → G.RoundTrips w c e u := by
      intro e u hlt he hu
      exact ih u.height hlt he hu rfl
    cases hv with
    | model hflat hfill => exact roundTrips_model hS hd hflat hfill ih
    | variant ha he hcast hbase hvariant =>
      obtain ⟨es, fields', hwrite, hread, hback⟩ :=
        write_read_variant hS hd ha (hids d hd) he hcast hbase hvariant ih
      exact ⟨es, _, hwrite, hread, .variant ha he hback.1 hback.2.1 hback.2.2⟩

end Graph

end JsonMapping
