import JsonMapping.Descriptor.Document
import JsonMapping.Java.Library
import JsonMapping.Proofs.Entries
import JsonMapping.Proofs.Graph.Loading
import JsonMapping.Proofs.Json.Records
import JsonMapping.Proofs.Json.Text

/-! Documents of descriptors, read again. A document names types, and those of a set that was read
are canonical. That is all that it takes to be read back, so the main statement `ofText_toText` is
an equivalence, and every set that was read from any text passes. -/

namespace JsonMapping

open Json (Form Within)
open Record (Finds Only)

/-! ## Fields that may be left out -/

namespace Json

theorem get?_optionalField (key : String) (value : Option JavaType) (name : String) :
    Entries.get? (optionalField key value) name =
      if key = name then value.map fun t => .string t.text else none := by
  cases value <;> simp [optionalField, Entries.get?]

theorem keys_optionalField (key : String) (value : Option JavaType) :
    ((optionalField key value).map Prod.fst).Sublist [key] := by
  cases value <;> simp [optionalField]

theorem within_optionalField {depth : Nat} {key : String} {value : Option JavaType} :
    ∀ field ∈ optionalField key value, Within depth field.2 := by
  cases value with
  | none => simp [optionalField]
  | some t =>
    intro field hfield
    rw [List.mem_singleton.mp hfield]
    exact .string

end Json

theorem Record.Finds.optionalType {fields : List (String × Json)} {name : String}
    {type : Option JavaType} (hkeys : (fields.map Prod.fst).Nodup)
    (hget : Entries.get? fields name = type.map fun t => .string t.text)
    (h : ∀ t ∈ type, t.Canonical) : Finds (.optional name Shape.javaType) fields type :=
  .optional hkeys hget fun t ht => ⟨Shape.javaType_form (h t ht), by simp [Json.form]⟩

/-! ## Attributes -/

namespace Attribute

/-- The types that the document names. -/
def types (a : Attribute) : List JavaType := a.type.toList

theorem ofForm_toJson {a : Attribute} (h : ∀ t ∈ a.types, t.Canonical) (surplus : Surplus) :
    ofForm surplus a.toJson.form = .ok a := by
  have hkeys : ((("name", Json.string a.name.text) ::
      Json.optionalField "type" a.type).map Prod.fst).Nodup :=
    List.Nodup.sublist ((Json.keys_optionalField "type" a.type).cons_cons "name") (by decide)
  refine Finds.ofForm (((Finds.required hkeys rfl ?_).map _).seq (.optionalType hkeys ?_ ?_)) _ _
  · exact Shape.identifier_form a.name
  · simp [Entries.get?, Json.get?_optionalField]
  · simpa [types] using h

theorem only_ofForm (surplus : Surplus) :
    Shape.Only (fun a => ∀ t ∈ a.types, t.Canonical) (ofForm surplus) := by
  have hname : Only (fun _ => True) (.required "name" Shape.identifier) := fun _ _ _ _ => trivial
  have htype : Only _ (.optional "type" Shape.javaType) := .optional Shape.only_javaType
  refine Only.ofForm (.seq (hname.map ?_) htype) _ _
  intro name _ type htype
  simpa [types] using htype

@[simp] theorem within_toJson {depth : Nat} (a : Attribute) : Within (depth + 1) a.toJson :=
  .object (List.forall_mem_cons.mpr ⟨.string, Json.within_optionalField⟩)

end Attribute

/-! ## Attribute mappings -/

namespace Conversion

/-- The types that the document names. -/
def types : Conversion → List JavaType
  | .plain serializer deserializer => serializer.toList ++ deserializer.toList
  | .single r => [r.type]
  | .collection r element => [r.type, element]

end Conversion

namespace AttributeMapping

/-- The types that the document names. -/
def types (m : AttributeMapping) : List JavaType :=
  m.model.types ++ m.wire.types ++ m.conversion.types

theorem forall_types {m : AttributeMapping} {P : JavaType → Prop} :
    (∀ t ∈ m.types, P t) ↔
      (∀ t ∈ m.model.types, P t) ∧ (∀ t ∈ m.wire.types, P t) ∧ ∀ t ∈ m.conversion.types, P t := by
  simp only [types, List.forall_mem_append, and_assoc]

/-- The fields of the document. -/
def fields (m : AttributeMapping) : List (String × Json) :=
  [("kind", .string m.kind), ("model_attribute", m.model.toJson),
    ("wire_attribute", m.wire.toJson), ("embedded", .bool m.embedded)] ++
    conversionFields m.conversion

theorem nodup_keys (m : AttributeMapping) : (m.fields.map Prod.fst).Nodup := by
  obtain ⟨model, wire, embedded, conversion⟩ := m
  cases conversion with
  | plain serializer deserializer =>
    have hkeys := (Json.keys_optionalField "serializer" serializer).append
      (Json.keys_optionalField "deserializer" deserializer)
    rw [← List.map_append] at hkeys
    exact List.Nodup.sublist (List.Sublist.append
      (.refl ["kind", "model_attribute", "wire_attribute", "embedded"]) hkeys) (by decide)
  | single r => simp [fields, conversionFields]
  | collection r element => simp [fields, conversionFields]

theorem finds_withConversion {m : AttributeMapping} {record : Record Conversion}
    (h : ∀ t ∈ m.types, t.Canonical) (hconversion : Finds record m.fields m.conversion) :
    Finds (withConversion record) m.fields m := by
  obtain ⟨hmodel, hwire, -⟩ := forall_types.mp h
  have hkeys := m.nodup_keys
  refine (((Finds.required hkeys rfl ?_).map _).seq (.required hkeys rfl ?_)).seq
    (.withDefault hkeys rfl (Shape.bool_form _)) |>.seq hconversion
  · exact Attribute.ofForm_toJson hmodel _
  · exact Attribute.ofForm_toJson hwire _

/-- The kind of a mapping leads to a record that reads the mapping. -/
theorem exists_kindOf {m : AttributeMapping} (h : ∀ t ∈ m.types, t.Canonical) :
    ∃ label record, kindOf (Json.string m.kind).form = .ok (label, record) ∧
      Finds record m.fields m := by
  have hkeys := m.nodup_keys
  obtain ⟨-, -, htypes⟩ := forall_types.mp h
  obtain ⟨model, wire, embedded, conversion⟩ := m
  cases conversion with
  | plain serializer deserializer =>
    refine ⟨_, _, rfl, finds_withConversion h ?_⟩
    simp only [Conversion.types, List.forall_mem_append, Option.mem_toList] at htypes
    refine ((Finds.optionalType hkeys ?_ htypes.1).map _).seq (.optionalType hkeys ?_ htypes.2)
    · simp [fields, conversionFields, Entries.get?, Entries.get?_append, Json.get?_optionalField]
    · simp [fields, conversionFields, Entries.get?, Entries.get?_append, Json.get?_optionalField]
  | single r =>
    refine ⟨_, _, rfl, finds_withConversion h ?_⟩
    have hr := htypes _ (List.mem_singleton_self _)
    exact (Finds.required hkeys rfl (Shape.representerId_form hr)).map _
  | collection r element =>
    refine ⟨_, _, rfl, finds_withConversion h ?_⟩
    simp only [Conversion.types, List.forall_mem_cons] at htypes
    exact ((Finds.required hkeys rfl (Shape.representerId_form htypes.1)).map _).seq
      (.required hkeys rfl (Shape.javaType_form htypes.2.1))

theorem ofForm_toJson {m : AttributeMapping} (h : ∀ t ∈ m.types, t.Canonical) :
    ofForm m.toJson.form = .ok m := by
  obtain ⟨label, record, hkind, hrecord⟩ := exists_kindOf h
  have hown : Finds (.required "kind" kindOf) m.fields (label, record) :=
    .required m.nodup_keys rfl hkind
  change (Record.required "kind" kindOf).ofOwnFields (Json.fieldForms m.fields) true >>= _ = _
  rw [hown.ofOwnFields]
  exact hrecord.ofFields

theorem only_withConversion {record : Record Conversion}
    (h : Only (fun c => ∀ t ∈ c.types, t.Canonical) record) :
    Only (fun m => ∀ t ∈ m.types, t.Canonical) (withConversion record) := by
  have hattribute : ∀ name, Only _ (.required name (Attribute.ofForm .refusedLate)) :=
    fun _ => .required (Attribute.only_ofForm .refusedLate)
  have hembedded : Only (fun _ => True) (.withDefault "embedded" Shape.bool false) :=
    fun _ _ _ _ => trivial
  refine .seq (.seq (.seq ((hattribute "model_attribute").map ?_) (hattribute "wire_attribute"))
    hembedded) h
  intro model hmodel wire hwire embedded _ conversion hconversion
  exact forall_types.mpr ⟨hmodel, hwire, hconversion⟩

theorem only_kinds : ∀ kind ∈ kinds, Only (fun m => ∀ t ∈ m.types, t.Canonical) kind.2.2 := by
  have htype : ∀ name, Only _ (.optional name Shape.javaType) :=
    fun _ => .optional Shape.only_javaType
  have hnested : Only _ (.required "nested_representer" Shape.representerId) :=
    .required Shape.only_representerId
  have helement : Only _ (.required "nested_model_type" Shape.javaType) :=
    .required Shape.only_javaType
  simp only [kinds, List.forall_mem_cons]
  refine ⟨?property, ?single, ?collection, fun _ h => by cases h⟩
  case property =>
    refine only_withConversion (.seq ((htype "serializer").map ?_) (htype "deserializer"))
    intro serializer hserializer deserializer hdeserializer
    simpa [Conversion.types] using fun t ht => ht.elim (hserializer t) (hdeserializer t)
  case single =>
    refine only_withConversion (hnested.map ?_)
    intro r hr
    simpa [Conversion.types] using hr
  case collection =>
    refine only_withConversion (.seq (hnested.map ?_) helement)
    intro r hr element helement
    simpa [Conversion.types] using ⟨hr, helement⟩

theorem only_of_kindOf {f : Form} {label : String} {record : Record AttributeMapping}
    (h : kindOf f = .ok (label, record)) : Only (fun m => ∀ t ∈ m.types, t.Canonical) record := by
  unfold kindOf at h
  split at h
  · rename_i name
    split at h
    · rename_i found hfound
      cases h
      obtain ⟨before, after, heq, -⟩ := List.lookup_eq_some_iff.mp hfound
      have hmem : (name, label, record) ∈ kinds := by simp [heq]
      exact only_kinds _ hmem
    · cases h
  · exact absurd h Shape.not_mismatch

theorem only_ofForm : Shape.Only (fun m => ∀ t ∈ m.types, t.Canonical) ofForm := by
  have hkind : Only (fun found : String × Record AttributeMapping =>
      Only (fun m => ∀ t ∈ m.types, t.Canonical) found.2) (.required "kind" kindOf) :=
    .required fun f found h => only_of_kindOf h
  intro f m hread
  unfold ofForm at hread
  split at hread
  · obtain ⟨found, hfound, hread⟩ := bind_eq_ok.mp hread
    exact (hkind.ofOwnFields hfound).ofFields hread
  · cases hread
  · cases hread
  · obtain ⟨⟨label, record⟩, hfound, hread⟩ := bind_eq_ok.mp hread
    dsimp only at hread
    split at hread
    · exact (only_of_kindOf hfound).ofItems hread
    · cases hread
  · exact absurd hread Shape.not_mismatch

theorem within_toJson (m : AttributeMapping) : Within 2 m.toJson := by
  refine .object (List.forall_mem_append.mpr ⟨by simp, ?_⟩)
  cases m.conversion with
  | plain serializer deserializer =>
    exact List.forall_mem_append.mpr ⟨Json.within_optionalField, Json.within_optionalField⟩
  | single r => simp [conversionFields]
  | collection r element => simp [conversionFields]

end AttributeMapping

/-! ## Descriptors -/

namespace Variant

theorem ofForm_toJson {v : Variant} (h : v.representer.type.Canonical) (surplus : Surplus) :
    ofForm surplus v.toJson.form = .ok v := by
  have hkeys : ([("id", Json.string v.id), ("representer", .string v.representer.type.text)].map
    Prod.fst).Nodup := by simp
  exact (((Finds.required hkeys rfl (Shape.text_form _)).map _).seq
    (.required hkeys rfl (Shape.representerId_form h))).ofForm _ _

theorem only_ofForm (surplus : Surplus) :
    Shape.Only (fun v => v.representer.type.Canonical) (ofForm surplus) := by
  have hid : Only (fun _ => True) (.required "id" Shape.text) := fun _ _ _ _ => trivial
  have hrepresenter : Only _ (.required "representer" Shape.representerId) :=
    .required Shape.only_representerId
  exact Only.ofForm (.seq (hid.map (g := Variant.mk) fun _ _ _ h => h) hrepresenter) _ _

theorem within_toJson (v : Variant) : Within 1 v.toJson := by simp [toJson]

end Variant

namespace Dispatch

/-- The types that the document names. -/
def types (d : Dispatch) : List JavaType := d.variants.map fun v => v.representer.type

/-- The fields of the document. -/
def fields (d : Dispatch) : List (String × Json) :=
  [("discriminator", .string d.discriminator)] ++
    (match d.nestedAttribute with
      | some key => [("nested_attribute", .string key)]
      | none => []) ++
    [("variants", .array (d.variants.map Variant.toJson))]

theorem ofForm_toJson {d : Dispatch} (h : ∀ t ∈ d.types, t.Canonical) (surplus : Surplus) :
    ofForm surplus d.toJson.form = .ok d := by
  have hkeys : (d.fields.map Prod.fst).Nodup := by
    cases hnested : d.nestedAttribute <;> simp [fields, hnested]
  have hnested : Entries.get? d.fields "nested_attribute" = d.nestedAttribute.map .string := by
    cases hnested : d.nestedAttribute <;> simp [fields, hnested, Entries.get?]
  have hvariants : Entries.get? d.fields "variants" =
      some (.array (d.variants.map Variant.toJson)) := by
    cases hnested : d.nestedAttribute <;> simp [fields, hnested, Entries.get?]
  have hlist := Shape.list_form fun v (hv : v ∈ d.variants) =>
    Variant.ofForm_toJson (h _ (List.mem_map_of_mem hv)) surplus
  have hread : Finds (record surplus) d.fields d :=
    (((Finds.required hkeys rfl (Shape.text_form _)).map _).seq (.optional hkeys hnested
      fun key _ => ⟨Shape.text_form key, by simp [Json.form]⟩)).seq
      (.required hkeys hvariants hlist)
  exact hread.ofForm _ _

theorem only_ofForm (surplus : Surplus) :
    Shape.Only (fun d => ∀ t ∈ d.types, t.Canonical) (ofForm surplus) := by
  have hdiscriminator : Only (fun _ => True) (.required "discriminator" Shape.text) :=
    fun _ _ _ _ => trivial
  have hnested : Only (fun _ => True) (.optional "nested_attribute" Shape.text) :=
    fun _ _ _ _ => trivial
  have hvariants : Only _ (.required "variants" (Shape.list (Variant.ofForm surplus))) :=
    .required (Variant.only_ofForm surplus).list
  refine Only.ofForm (.seq (.seq (hdiscriminator.map ?_) hnested) hvariants) _ _
  intro discriminator _ nested _ variants hvariants
  simpa [types] using hvariants

theorem within_toJson (d : Dispatch) : Within 3 d.toJson := by
  have hvariants : ∀ v ∈ d.variants, Within 1 v.toJson := fun v _ => v.within_toJson
  cases hnested : d.nestedAttribute <;> simpa [toJson, hnested] using hvariants

end Dispatch

namespace Descriptor

/-- The types that the document names. -/
def types (d : Descriptor) : List JavaType :=
  d.representer.type :: d.model :: d.linksProvider.toList ++ d.customDeserializer.toList ++
    d.dispatch.toList.flatMap Dispatch.types

theorem forall_types {d : Descriptor} {P : JavaType → Prop} :
    (∀ t ∈ d.types, P t) ↔ P d.representer.type ∧ P d.model ∧ (∀ t ∈ d.linksProvider, P t) ∧
      (∀ t ∈ d.customDeserializer, P t) ∧ ∀ x ∈ d.dispatch, ∀ t ∈ x.types, P t := by
  simp only [types, List.cons_append, List.forall_mem_cons, List.forall_mem_append,
    List.forall_mem_flatMap, Option.mem_toList, and_assoc]
  rfl

/-- The keys that some descriptor may have, in the order of the fields. -/
def keys : List String :=
  ["representer", "model"] ++ ["links_provider"] ++ ["skip_serialize", "skip_deserialize"] ++
    ["custom_deserializer"] ++ ["subclass_dispatch"]

theorem keys_toFields (d : Descriptor) : (d.toFields.map Prod.fst).Sublist keys := by
  simp only [toFields, List.map_append]
  refine ((((List.Sublist.refl _).append (Json.keys_optionalField _ _)).append
    (.refl _)).append (Json.keys_optionalField _ _)).append ?_
  cases d.dispatch <;> simp

/-- A descriptor is read back from an object that has other fields behind its own. -/
theorem finds_record {d : Descriptor} (h : ∀ t ∈ d.types, t.Canonical) (surplus : Surplus)
    {more : List (String × Json)} (hmore : (keys ++ more.map Prod.fst).Nodup) :
    Finds (record surplus) (d.toFields ++ more) d := by
  have hkeys : ((d.toFields ++ more).map Prod.fst).Nodup := by
    rw [List.map_append]
    exact hmore.sublist (d.keys_toFields.append (.refl _))
  have hget : ∀ name ∈ keys,
      Entries.get? (d.toFields ++ more) name = Entries.get? d.toFields name := by
    intro name hname
    have hnot : name ∉ more.map Prod.fst := List.disjoint_of_nodup_append hmore hname
    rw [Entries.get?_append, (Entries.get?_eq_none_iff more name).mpr hnot, Option.or_none]
  have hlinks : Entries.get? (d.toFields ++ more) "links_provider" =
      d.linksProvider.map fun t => .string t.text := by
    rw [hget _ (by decide)]
    cases hsome : d.dispatch <;>
      simp [toFields, hsome, Entries.get?, Entries.get?_append, Json.get?_optionalField]
  have hwrite : Entries.get? (d.toFields ++ more) "skip_serialize" =
      some (.bool d.skipSerialize) := by
    rw [hget _ (by decide)]
    simp [toFields, Entries.get?, Entries.get?_append, Json.get?_optionalField]
  have hread : Entries.get? (d.toFields ++ more) "skip_deserialize" =
      some (.bool d.skipDeserialize) := by
    rw [hget _ (by decide)]
    simp [toFields, Entries.get?, Entries.get?_append, Json.get?_optionalField]
  have hcustom : Entries.get? (d.toFields ++ more) "custom_deserializer" =
      d.customDeserializer.map fun t => .string t.text := by
    rw [hget _ (by decide)]
    cases hsome : d.dispatch <;>
      simp [toFields, hsome, Entries.get?, Entries.get?_append, Json.get?_optionalField]
  have hdispatch : Entries.get? (d.toFields ++ more) "subclass_dispatch" =
      d.dispatch.map Dispatch.toJson := by
    rw [hget _ (by decide)]
    cases hsome : d.dispatch <;>
      simp [toFields, hsome, Entries.get?, Entries.get?_append, Json.get?_optionalField]
  obtain ⟨hrepresenter, hmodel, hprovider, hdeserializer, hvariants⟩ := forall_types.mp h
  refine (((((((Finds.required hkeys rfl (Shape.representerId_form hrepresenter)).map _).seq
    (.required hkeys rfl (Shape.javaType_form hmodel))).seq
    (.optionalType hkeys hlinks hprovider)).seq
    (.withDefault hkeys hwrite (Shape.bool_form _))).seq
    (.withDefault hkeys hread (Shape.bool_form _))).seq
    (.optionalType hkeys hcustom hdeserializer)).seq
    (.optional hkeys hdispatch ?_)
  intro dispatch hsome
  exact ⟨Dispatch.ofForm_toJson (hvariants dispatch hsome) surplus,
    by simp [Dispatch.toJson, Json.form]⟩

theorem only_record (surplus : Surplus) :
    Only (fun d => ∀ t ∈ d.types, t.Canonical) (record surplus) := by
  have hrepresenter : Only _ (.required "representer" Shape.representerId) :=
    .required Shape.only_representerId
  have hmodel : Only _ (.required "model" Shape.javaType) := .required Shape.only_javaType
  have htype : ∀ name, Only _ (.optional name Shape.javaType) :=
    fun _ => .optional Shape.only_javaType
  have hflag : ∀ name, Only (fun _ => True) (.withDefault name Shape.bool false) :=
    fun _ _ _ _ _ => trivial
  have hdispatch : Only _ (.optional "subclass_dispatch" (Dispatch.ofForm surplus)) :=
    .optional (Dispatch.only_ofForm surplus)
  refine .seq (.seq (.seq (.seq (.seq (.seq (hrepresenter.map ?_) hmodel) (htype "links_provider"))
    (hflag "skip_serialize")) (hflag "skip_deserialize")) (htype "custom_deserializer")) hdispatch
  intro representer hrepresenter model hmodel links hlinks _ _ _ _ custom hcustom dispatch hdispatch
  exact forall_types.mpr ⟨hrepresenter, hmodel, hlinks, hcustom, hdispatch⟩

theorem within_toFields (d : Descriptor) : ∀ field ∈ d.toFields, Within 3 field.2 := by
  simp only [toFields, List.forall_mem_append, List.forall_mem_cons]
  refine ⟨⟨⟨⟨⟨.string, .string, by simp⟩, Json.within_optionalField⟩, .bool, .bool, by simp⟩,
    Json.within_optionalField⟩, ?_⟩
  cases d.dispatch with
  | none => simp
  | some dispatch => simpa using dispatch.within_toJson

end Descriptor

/-! ## Sets -/

namespace DescriptorEntry

/-- The types that the document names. -/
def types (e : DescriptorEntry) : List JavaType :=
  e.descriptor.types ++ e.attributes.flatMap AttributeMapping.types

theorem forall_types {e : DescriptorEntry} {P : JavaType → Prop} :
    (∀ t ∈ e.types, P t) ↔
      (∀ t ∈ e.descriptor.types, P t) ∧ ∀ m ∈ e.attributes, ∀ t ∈ m.types, P t := by
  rw [types, List.forall_mem_append, List.forall_mem_flatMap]

/-- The fields of an entry behind those of its descriptor. -/
def ownFields (e : DescriptorEntry) : List (String × Json) :=
  [("attributes", .array (e.attributes.map AttributeMapping.toJson)),
    ("external", .bool e.external)]

theorem ofForm_toJson {e : DescriptorEntry} (h : ∀ t ∈ e.types, t.Canonical) :
    ofForm e.toJson.form = .ok e := by
  obtain ⟨hdescriptor, hattributes⟩ := forall_types.mp h
  have hmore : (Descriptor.keys ++ e.ownFields.map Prod.fst).Nodup := by
    simp [Descriptor.keys, ownFields]
  have hkeys : ((e.descriptor.toFields ++ e.ownFields).map Prod.fst).Nodup := by
    rw [List.map_append]
    exact hmore.sublist (e.descriptor.keys_toFields.append (.refl _))
  have hget : ∀ name ∈ e.ownFields.map Prod.fst,
      Entries.get? (e.descriptor.toFields ++ e.ownFields) name = Entries.get? e.ownFields name := by
    intro name hname
    have hnot : name ∉ e.descriptor.toFields.map Prod.fst := fun h =>
      List.disjoint_of_nodup_append hmore (e.descriptor.keys_toFields.subset h) hname
    rw [Entries.get?_append, (Entries.get?_eq_none_iff _ name).mpr hnot, Option.none_or]
  have hown : Finds ownRecord (e.descriptor.toFields ++ e.ownFields)
      (e.attributes, e.external) := by
    refine ((Finds.withDefault hkeys ((hget _ (by simp [ownFields])).trans rfl) ?_).map _).seq
      (.withDefault hkeys ((hget _ (by simp [ownFields])).trans rfl) (Shape.bool_form _))
    exact Shape.list_form fun m hm => AttributeMapping.ofForm_toJson (hattributes m hm)
  have hrecord := Descriptor.finds_record hdescriptor .refusedLate hmore
  exact bind_eq_ok.mpr ⟨_, hown.ofOwnFields, bind_eq_ok.mpr ⟨_, hrecord.ofFields, rfl⟩⟩

theorem only_ofForm : Shape.Only (fun e => ∀ t ∈ e.types, t.Canonical) ofForm := by
  have hattributes : Only _ (.withDefault "attributes" (Shape.list AttributeMapping.ofForm) []) :=
    .withDefault AttributeMapping.only_ofForm.list (by simp)
  have hexternal : Only (fun _ => True) (.withDefault "external" Shape.bool false) :=
    fun _ _ _ _ => trivial
  have hown : Only (fun own => ∀ m ∈ own.1, ∀ t ∈ m.types, t.Canonical) ownRecord :=
    .seq (hattributes.map (g := Prod.mk) fun _ h _ _ => h) hexternal
  intro f e hread
  unfold ofForm at hread
  split at hread
  · obtain ⟨⟨attributes, external⟩, hfound, hread⟩ := bind_eq_ok.mp hread
    obtain ⟨descriptor, hdescriptor, hread⟩ := bind_eq_ok.mp hread
    cases hread
    exact forall_types.mpr
      ⟨(Descriptor.only_record _).ofFields hdescriptor, hown.ofOwnFields hfound⟩
  · exact absurd hread Shape.not_mismatch

theorem within_toJson (e : DescriptorEntry) : Within 4 e.toJson := by
  refine .object (List.forall_mem_append.mpr ⟨e.descriptor.within_toFields, ?_⟩)
  simpa using fun m (_ : m ∈ e.attributes) => m.within_toJson

end DescriptorEntry

namespace DescriptorSet

/-- The types that the document names. -/
def types (set : DescriptorSet) : List JavaType := set.entries.flatMap DescriptorEntry.types

theorem ofForm_toJson {set : DescriptorSet} (h : ∀ t ∈ set.types, t.Canonical) :
    ofForm set.toJson.form = .ok set := by
  have hkeys : ([("representers", Json.array (set.entries.map DescriptorEntry.toJson))].map
    Prod.fst).Nodup := List.nodup_singleton _
  have hentries := Shape.list_form fun e (he : e ∈ set.entries) =>
    DescriptorEntry.ofForm_toJson (List.forall_mem_flatMap.mp h e he)
  exact ((Finds.withDefault hkeys rfl hentries).map _).ofForm _ _

theorem only_ofForm : Shape.Only (fun set => ∀ t ∈ set.types, t.Canonical) ofForm := by
  have hentries : Only _ (.withDefault "representers" (Shape.list DescriptorEntry.ofForm) []) :=
    .withDefault DescriptorEntry.only_ofForm.list (by simp)
  refine Only.ofForm (hentries.map (g := DescriptorSet.mk) fun _ h => ?_) _ _
  exact List.forall_mem_flatMap.mpr h

theorem within_toJson (set : DescriptorSet) : Within 6 set.toJson := by
  simpa [toJson] using fun e (_ : e ∈ set.entries) => e.within_toJson

/-- A set is read back from its text exactly if all types in it come from texts. They do in a set
that was read from any text, so writing it and reading it again changes nothing. -/
theorem ofText_toText :
    (∀ set : DescriptorSet,
      ofText set.toText = .ok set ↔ ∀ t ∈ set.types, ∃ s, JavaType.parse s = .ok t) ∧
    ∀ text set, ofText text = .ok set →
      ofText set.toText = .ok set ∧ (ofText set.toText).map toText = .ok set.toText := by
  have hcanonical : ∀ {text set}, ofText text = .ok set → ∀ t ∈ set.types, t.Canonical :=
    fun h => only_ofForm.ofText h
  have hread : ∀ {set : DescriptorSet}, (∀ t ∈ set.types, t.Canonical) →
      ofText set.toText = .ok set := by
    intro set h
    exact Shape.ofText_of_form (Json.ofText_pretty (set.within_toJson.mono (by decide)))
      (ofForm_toJson h)
  constructor
  · intro set
    simp only [JavaType.exists_parse_iff]
    exact ⟨hcanonical, hread⟩
  · intro text set h
    have hagain := hread (hcanonical h)
    exact ⟨hagain, by rw [hagain]; rfl⟩

end DescriptorSet

/-! ## Pets as a sample

A polymorphic model with two variants, one of which has an attribute of its own. -/

namespace Sample

/-- The fields of the pet in another order, with a null and with a key that nobody knows. -/
def petText : String :=
  "\x7b\"representers\":[\x7b\"age\":[],\"model\":\"com.Pet\",\"links_provider\":null," ++
    "\"representer\":\" com.PetRepresenter\"\x7d]\x7d"

def pet : DescriptorEntry where
  descriptor := {
    representer := ⟨typeNamed ⟨"PetRepresenter", by decide⟩⟩
    model := typeNamed ⟨"Pet", by decide⟩ }
  attributes := []
  external := false

def friends : AttributeMapping where
  model := {
    name := ⟨"friends", by decide⟩
    type := some (Java.list.withArgs [pet.descriptor.model]) }
  wire := { name := ⟨"friends", by decide⟩, type := none }
  embedded := true
  conversion := .collection pet.descriptor.representer pet.descriptor.model

def dog : DescriptorEntry where
  descriptor := {
    representer := ⟨typeNamed ⟨"DogRepresenter", by decide⟩⟩
    model := .mk pet.descriptor.model.package [pet.descriptor.model.simple] ⟨"Dog", by decide⟩ [] }
  attributes := [friends]
  external := true

def kinds : Dispatch where
  discriminator := "kind"
  nestedAttribute := none
  variants := [⟨"Kätzchen", ⟨typeNamed ⟨"CatRepresenter", by decide⟩⟩⟩,
    ⟨"犬", dog.descriptor.representer⟩]

def pets : DescriptorSet where
  entries := [{ pet with descriptor := { pet.descriptor with dispatch := some kinds } }, dog]

theorem ofText_toText_pets :
    DescriptorSet.ofText petText = .ok ⟨[pet]⟩ ∧
      DescriptorSet.ofText (DescriptorSet.mk [pet]).toText = .ok ⟨[pet]⟩ ∧
      DescriptorSet.ofText pets.toText = .ok pets := by
  have hfound : (DescriptorSet.ofText petText).toOption = some ⟨[pet]⟩ := by decide +kernel
  have hread : DescriptorSet.ofText petText = .ok ⟨[pet]⟩ := by
    cases hset : DescriptorSet.ofText petText with
    | error e =>
      rw [hset] at hfound
      cases hfound
    | ok set =>
      rw [hset] at hfound
      exact congrArg Except.ok (Option.some.inj hfound)
  have hpets : ∀ t ∈ pets.types, ∃ s, JavaType.parse s = .ok t := by
    simp only [JavaType.exists_parse_iff]
    decide
  exact ⟨hread, (DescriptorSet.ofText_toText.2 _ _ hread).1,
    (DescriptorSet.ofText_toText.1 pets).mpr hpets⟩

end Sample

end JsonMapping
