import JsonMapping.Proofs.RoundTrip.Fit

/-! Round trips of fields. Writing leaves a container that bears every mapped field of the model in
a form that reads back, and reading only depends on what is under the keys of the descriptor. The
two halves meet at `Carries`, which other keys do not disturb. -/

namespace JsonMapping

namespace Graph

/-- What is read back from a value's container comes back as the value. -/
def RoundTrips (G : Graph) (w : World) (c : RequestContext) (d : Descriptor) (v : Value) : Prop :=
  ∃ es u, G.write w c d v = .ok es ∧ G.read w d (.map es) = .ok u ∧ G.ComesBack w d v u

/-- The wire value `y` of an attribute is read back as what its value `x` comes back as. -/
def Carried (G : Graph) (w : World) (m : AttributeMapping) (x y : Value) : Prop :=
  ∃ x', G.readValue w (G.read w) m y = .ok x' ∧ G.FieldComesBack w m x x'

/-- The entries hold wire values for some attributes of a model with the given fields. -/
def Bears (G : Graph) (w : World) (ms : List AttributeMapping) (fields es : Entries Value) : Prop :=
  ∀ m ∈ ms, ∃ y, es.get? m.wireKey = some y ∧
    G.Carried w m (.ofEntry fields m.model.name.text) y

/-- The entries hold all that a descriptor reads. -/
structure Carries (G : Graph) (w : World) (d : Descriptor) (fields es : Entries Value) : Prop where
  plain : G.Bears w (G.plainAttributes d) fields es
  embedded : G.hasEmbedded d → ∃ inner, es.get? embeddedKey = some (.map inner) ∧
    G.Bears w (G.embeddedAttributes d) fields inner

variable {G : Graph} {w : World} {c : RequestContext} {d : Descriptor} {S : Descriptor → Prop}
variable {fields es : Entries Value}

/-- Other keys make no difference. -/
theorem Carries.of_get?_eq {es' : Entries Value} (h : G.Carries w d fields es)
    (heq : ∀ key ∈ G.topKeys d, es'.get? key = es.get? key) : G.Carries w d fields es' := by
  refine ⟨?_, ?_⟩
  · intro m hm
    rw [heq m.wireKey (List.mem_append_left _ (List.mem_map_of_mem hm))]
    exact h.plain m hm
  · intro he
    rw [heq embeddedKey (List.mem_append_right _ (by simp [he]))]
    exact h.embedded he

/-! ## One field -/

theorem Closed.callee (hS : G.Closed S) {r : RepresenterId} {e : Descriptor}
    (he : G.registry.resolve? r = some e) (h : S e) (kind : MethodKind) :
    G.callee kind r = .ok e := by
  have hskips : e.skips kind = false := by
    cases kind <;> simp [Descriptor.skips, (hS.tidy e h).writes, (hS.tidy e h).reads]
  simp only [Graph.callee, find?_of_resolve? he (hS.member e h), hskips, Bool.false_eq_true,
    if_false]

/-- The elements of a list make their round trips one by one. -/
theorem roundTrips_all {e : Descriptor} {xs : List Value}
    (h : ∀ x ∈ xs, G.RoundTrips w c e x) :
    ∃ ys zs, (xs.mapM fun x => return .map (← G.write w c e x) : Outcome (List Value)) = .ok ys ∧
      ys.mapM (G.read w e) = .ok zs ∧ G.AllComeBack w e xs zs := by
  induction xs with
  | nil => exact ⟨[], [], rfl, rfl, .nil⟩
  | cons x rest ih =>
    obtain ⟨es, u, hwrite, hread, hback⟩ := h x (by simp)
    obtain ⟨ys, zs, hys, hzs, hrest⟩ := ih fun x' hx => h x' (by simp [hx])
    refine ⟨.map es :: ys, u :: zs, ?_, ?_, .cons hback hrest⟩
    · rw [List.mapM_cons, hwrite, hys]
      rfl
    · rw [List.mapM_cons, hread, hzs]
      rfl

/-- A field that fits is written as a value that is read back. -/
theorem writeValue_carried (hS : G.Closed S) (hd : S d) {m : AttributeMapping}
    (hm : m ∈ G.attributes d) {v x : Value} (hx : v.attribute m.model.name = .ok x)
    (hfits : G.FieldFits w m x)
    (ih : ∀ e u, u.height < v.height → S e → G.Fits w e u → G.RoundTrips w c e u) :
    ∃ y, G.writeValue w (G.write w c) v m = .ok y ∧ G.Carried w m x y := by
  have hlt := Value.height_lt_of_attribute hx
  unfold writeValue Carried readValue
  rw [hx, lift_ok, ok_bind]
  cases hfits with
  | plain hconv hencode hdecode =>
    rw [hconv]
    exact ⟨_, lift_eq_ok.mpr hencode, x, lift_eq_ok.mpr hdecode, .plain hconv⟩
  | @single _ r e _ hconv he hfit =>
    have hSe := hS.nested d hd m hm r (by simp [AttributeMapping.nested?, hconv]) e he
    obtain ⟨es, u, hwrite, hread, hback⟩ := ih e x hlt hSe hfit
    rw [hconv]
    refine ⟨.map es, ?_, u, ?_, .single hconv he hback⟩
    · simp only [writeOne, hS.callee he hSe, lift_ok, ok_bind, hwrite, pure_eq_ok]
    · simp only [readOne, Value.cast, ValueType.accepts, Value.kind, hS.callee he hSe, hread,
        decide_true, Bool.or_true, if_true, lift_ok, ok_bind]
  | @collection _ r element e xs hconv he hfit =>
    have hSe := hS.nested d hd m hm r (by simp [AttributeMapping.nested?, hconv]) e he
    obtain ⟨ys, zs, hwrite, hread, hback⟩ := roundTrips_all (c := c) fun x' hx' =>
      ih e x' ((Value.height_lt_of_mem_list hx').trans hlt) hSe (hfit x' hx')
    rw [hconv]
    refine ⟨.list ys, ?_, .list zs, ?_, .collection hconv he hback⟩
    · simp only [writeAll, hS.callee he hSe, Value.elements, lift_ok, ok_bind]
      rw [hwrite]
      rfl
    · simp only [readAll, Value.cast, ValueType.accepts, Value.kind, Value.isNull, Value.elements,
        hS.callee he hSe, hread, decide_true, Bool.or_true, if_true, if_false,
        Bool.false_eq_true, lift_ok, ok_bind, pure_eq_ok]

/-! ## A container -/

/-- The fields of a model that fits are put under their keys, and no other key is touched. -/
theorem putValues_bears {v : Value} {ms : List AttributeMapping} (es : Entries Value)
    (hkeys : (ms.map (·.wireKey)).Nodup) (hes : es.keys.Nodup)
    (hwrite : ∀ m ∈ ms, ∃ y, G.writeValue w (G.write w c) v m = .ok y ∧
      G.Carried w m (.ofEntry fields m.model.name.text) y) :
    ∃ es', G.putValues w (G.write w c) v ms es = .ok es' ∧ G.Bears w ms fields es' ∧
      es'.keys.Nodup ∧ ∀ key ∉ ms.map (·.wireKey), es'.get? key = es.get? key := by
  induction ms generalizing es with
  | nil => exact ⟨es, rfl, by simp [Bears], hes, fun _ _ => rfl⟩
  | cons m rest ih =>
    rw [List.map_cons, List.nodup_cons] at hkeys
    obtain ⟨y, hy, hcarried⟩ := hwrite m (by simp)
    obtain ⟨es', hput, hbears, hnodup, hothers⟩ := ih (es.insert m.wireKey y) hkeys.2
      (Entries.nodup_keys_insert hes m.wireKey y) fun m' hm => hwrite m' (by simp [hm])
    refine ⟨es', ?_, ?_, hnodup, ?_⟩
    · unfold putValues at hput ⊢
      rw [List.foldlM_cons, hy]
      exact hput
    · intro m' hm'
      rcases List.mem_cons.mp hm' with rfl | hr
      · exact ⟨y, by rw [hothers _ hkeys.1, Entries.get?_insert_self], hcarried⟩
      · exact hbears m' hr
    · intro key hkey
      simp only [List.map_cons, List.mem_cons, not_or] at hkey
      rw [hothers key hkey.2, Entries.get?_insert_of_ne (Ne.symm hkey.1)]

theorem plain_or_embedded {m : AttributeMapping} (hm : m ∈ G.attributes d) :
    (m.embedded = false ∧ m ∈ G.plainAttributes d) ∨
      (m.embedded = true ∧ m ∈ G.embeddedAttributes d ∧ G.hasEmbedded d) := by
  cases he : m.embedded with
  | false => exact .inl ⟨rfl, List.mem_filter.mpr ⟨hm, by simp [he]⟩⟩
  | true =>
    exact .inr ⟨rfl, List.mem_filter.mpr ⟨hm, he⟩, List.any_eq_true.mpr ⟨m, hm, he⟩⟩

/-- The attributes are set one after the other, each from what the container bears for it. -/
theorem foldlM_readInto {ms : List AttributeMapping} {j embedded : Value} {type : String}
    (start : Entries Value) (hnames : (ms.map fun m => m.model.name.text).Nodup)
    (hms : ∀ m ∈ ms, ∃ es, fieldsFor j embedded m = .ok es ∧ ∃ y, es.get? m.wireKey = some y ∧
      G.Carried w m (.ofEntry fields m.model.name.text) y) :
    ∃ fields', ms.foldlM (G.readInto w (G.read w) j embedded) (.model type start) =
        .ok (.model type fields') ∧
      (∀ m ∈ ms, G.FieldComesBack w m (.ofEntry fields m.model.name.text)
        (.ofEntry fields' m.model.name.text)) ∧
      ∀ key ∉ ms.map fun m => m.model.name.text,
        Entries.get? fields' key = Entries.get? start key := by
  induction ms generalizing start with
  | nil => exact ⟨start, rfl, by simp, fun _ _ => rfl⟩
  | cons m rest ih =>
    rw [List.map_cons, List.nodup_cons] at hnames
    obtain ⟨es, hes, y, hy, x', hread, hback⟩ := hms m (by simp)
    obtain ⟨fields', hfold, hrest, hothers⟩ :=
      ih (Entries.insert start m.model.name.text x') hnames.2
        fun m' hm => hms m' (by simp [hm])
    refine ⟨fields', ?_, ?_, ?_⟩
    · have hinto : G.readInto w (G.read w) j embedded (.model type start) m =
          .ok (.model type (Entries.insert start m.model.name.text x')) := by
        simp only [readInto, hes, hy, hread, Value.setAttribute, lift_ok, ok_bind]
      rw [List.foldlM_cons, hinto]
      exact hfold
    · intro m' hm'
      rcases List.mem_cons.mp hm' with rfl | hr
      · have hget := hothers _ hnames.1
        rw [Entries.get?_insert_self] at hget
        rw [show Value.ofEntry fields' m'.model.name.text = x' by simp [Value.ofEntry, hget]]
        exact hback
      · exact hrest m' hr
    · intro key hkey
      simp only [List.map_cons, List.mem_cons, not_or] at hkey
      rw [hothers key hkey.2, Entries.get?_insert_of_ne (Ne.symm hkey.1)]

/-- A container that carries the fields is read back, whatever else is in it. -/
theorem Carries.readAttributes (hd : G.Tidy d) (h : G.Carries w d fields es) (type : String)
    (start : Entries Value) :
    ∃ fields', G.readAttributes w (G.read w) d (.map es) (.model type start) =
        .ok (.model type fields') ∧
      (∀ m ∈ G.attributes d, G.FieldComesBack w m (.ofEntry fields m.model.name.text)
        (.ofEntry fields' m.model.name.text)) ∧
      ∀ key ∉ G.modelNames d, Entries.get? fields' key = Entries.get? start key := by
  obtain ⟨embedded, hembedded, hfields⟩ : ∃ embedded, G.embeddedIn d (.map es) = .ok embedded ∧
      ∀ m ∈ G.attributes d, ∃ es', fieldsFor (.map es) embedded m = .ok es' ∧
        ∃ y, es'.get? m.wireKey = some y ∧
          G.Carried w m (.ofEntry fields m.model.name.text) y := by
    unfold embeddedIn
    cases hhas : G.hasEmbedded d with
    | false =>
      refine ⟨.null, rfl, ?_⟩
      intro m hm
      rcases plain_or_embedded hm with ⟨he, hplain⟩ | ⟨-, -, htrue⟩
      · exact ⟨es, by simp [fieldsFor, he, Value.entries], h.plain m hplain⟩
      · rw [hhas] at htrue
        cases htrue
    | true =>
      obtain ⟨inner, hget, hinner⟩ := h.embedded hhas
      refine ⟨.map inner, ?_, ?_⟩
      · simp [Value.entries, hget, Value.cast, ValueType.accepts, Value.kind]
      · intro m hm
        rcases plain_or_embedded hm with ⟨he, hplain⟩ | ⟨he, hmem, -⟩
        · exact ⟨es, by simp [fieldsFor, he, Value.entries], h.plain m hplain⟩
        · exact ⟨inner, by simp [fieldsFor, he, Value.entries], hinner m hmem⟩
  unfold Graph.readAttributes
  rw [hembedded, lift_ok, ok_bind]
  exact foldlM_readInto start hd.names hfields

/-- The fields that a descriptor itself maps are written first, and with them nothing else. -/
theorem writeWith_own (hS : G.Closed S) (hd : S d) {type : String}
    (hfill : G.Fills w d fields)
    (ih : ∀ e u, u.height < (Value.model type fields).height → S e → G.Fits w e u →
      G.RoundTrips w c e u) :
    ∃ es, G.writeWith w (G.write w c) c d (.model type fields) =
        G.putVariants (G.write w c) d (.model type fields) es ∧
      G.Carries w d fields es ∧ es.keys.Nodup ∧ ∀ key ∉ G.topKeys d, es.get? key = none := by
  have htidy := hS.tidy d hd
  have hlinks : G.linksOf w c d (.model type fields) = .ok [] := by
    simp [linksOf, htidy.unlinked]
  have hwrite : ∀ m ∈ G.attributes d, ∃ y,
      G.writeValue w (G.write w c) (.model type fields) m = .ok y ∧
        G.Carried w m (.ofEntry fields m.model.name.text) y := by
    intro m hm
    exact writeValue_carried hS hd hm rfl (hfill m hm) ih
  have hkeys := List.nodup_append.mp htidy.keys
  obtain ⟨es, hput, hbears, hnodup, hothers⟩ := putValues_bears [] hkeys.1 (by simp [Entries.keys])
    fun m hm => hwrite m (List.mem_of_mem_filter hm)
  unfold writeWith putEmbedded
  rw [hlinks, lift_ok, ok_bind, hput, ok_bind]
  cases hhas : G.hasEmbedded d with
  | false =>
    refine ⟨es, rfl, ⟨hbears, ?_⟩, hnodup, ?_⟩
    · intro he
      rw [hhas] at he
      cases he
    · intro key hkey
      simp only [topKeys, hhas, List.mem_append, not_or] at hkey
      exact hothers key hkey.1
  | true =>
    obtain ⟨inner, hinner, hembedded, -, -⟩ := putValues_bears [] htidy.embeddedKeys
      (by simp [Entries.keys]) fun m hm => hwrite m (List.mem_of_mem_filter hm)
    have hfree : ∀ m ∈ G.plainAttributes d, embeddedKey ≠ m.wireKey := by
      intro m hm he
      exact hkeys.2.2 m.wireKey (List.mem_map_of_mem hm) embeddedKey (by simp [hhas]) he.symm
    refine ⟨es.insert embeddedKey (.map inner), ?_, ⟨?_, ?_⟩, ?_, ?_⟩
    · rw [if_pos rfl, hinner]
      rfl
    · intro m hm
      rw [Entries.get?_insert_of_ne (hfree m hm)]
      exact hbears m hm
    · intro _
      exact ⟨inner, Entries.get?_insert_self _ _ _, hembedded⟩
    · exact Entries.nodup_keys_insert hnodup _ _
    · intro key hkey
      simp only [topKeys, hhas, if_true, List.mem_append, List.mem_singleton, not_or] at hkey
      rw [Entries.get?_insert_of_ne (Ne.symm hkey.2)]
      exact hothers key hkey.1

end Graph

end JsonMapping
