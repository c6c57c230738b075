import JsonMapping.Proofs.Derive.Canonical
import JsonMapping.Proofs.Derive.Methods
import JsonMapping.Proofs.Mapper.Document

/-! Documents of derived mappers. An expression or statement lasts if it names canonical types only
and its document does not nest too deep for the reader. All parts of a derived mapper last, whatever
the plan, so the main statement `derived_mappers_last` says that the mapper is read back from its
text. -/

namespace JsonMapping

open Json (Within)

namespace Json

@[simp] theorem within_tagged_succ {depth : Nat} {tag : String} {j : Json} :
    Within (depth + 1) (tagged tag j) ↔ Within depth j := by
  simp [tagged]

end Json

@[simp] theorem Var.within_toJson {depth : Nat} (v : Var) : Within depth v.toJson := .string

@[simp] theorem ValueType.within_toJson {depth : Nat} (t : ValueType) :
    Within (depth + 1) t.toJson := by
  cases t <;> simp [toJson]

/-! ## Expressions and statements that last -/

/-- The expression is read back from its document, and that does not nest deeper. -/
structure Expr.Lasting (depth : Nat) (e : Expr) : Prop where
  canonical : e.Canonical
  within : Within depth e.toJson

/-- The statement is read back from its document, and that does not nest deeper. -/
structure Stmt.Lasting (depth : Nat) (s : Stmt) : Prop where
  canonical : s.Canonical
  within : Within depth s.toJson

theorem Expr.Lasting.mono {depth deeper : Nat} {e : Expr} (h : e.Lasting depth)
    (hle : depth ≤ deeper) : e.Lasting deeper :=
  ⟨h.canonical, h.within.mono hle⟩

/-- Of the statements of a list each one lasts. -/
def Stmt.AllLasting (depth : Nat) (stmts : List Stmt) : Prop := ∀ s ∈ stmts, s.Lasting depth

namespace Stmt

variable {depth : Nat} {stmts : List Stmt}

theorem AllLasting.canonical (h : AllLasting depth stmts) : AllCanonical stmts :=
  allCanonical_iff.mpr fun s hs => (h s hs).canonical

theorem AllLasting.within (h : AllLasting depth stmts) :
    ∀ j ∈ allToJson stmts, Within depth j := by
  rw [allToJson_eq_map]
  exact List.forall_mem_map.mpr fun s hs => (h s hs).within

theorem AllLasting.append {more : List Stmt} (h : AllLasting depth stmts)
    (hmore : AllLasting depth more) : AllLasting depth (stmts ++ more) :=
  List.forall_mem_append.mpr ⟨h, hmore⟩

theorem Lasting.mono {deeper : Nat} {s : Stmt} (h : s.Lasting depth) (hle : depth ≤ deeper) :
    s.Lasting deeper :=
  ⟨h.canonical, h.within.mono hle⟩

theorem AllLasting.mono {deeper : Nat} (h : AllLasting depth stmts) (hle : depth ≤ deeper) :
    AllLasting deeper stmts :=
  fun s hs => (h s hs).mono hle

end Stmt

namespace Expr.Lasting

variable {depth : Nat} {e : Expr} {v : Var}

theorem declare {t : ValueType} (he : e.Lasting (depth + 1)) (ht : t.Canonical) :
    (Stmt.declare v t e).Lasting (depth + 3) :=
  ⟨⟨ht, he.canonical⟩, by simpa [Stmt.toJson] using he.within⟩

theorem put {key : String} (he : e.Lasting depth) : (Stmt.put v key e).Lasting (depth + 2) :=
  ⟨he.canonical, by simpa [Stmt.toJson] using he.within⟩

theorem putAll (he : e.Lasting depth) : (Stmt.putAll v e).Lasting (depth + 2) :=
  ⟨he.canonical, by simpa [Stmt.toJson] using he.within⟩

theorem assign (he : e.Lasting depth) : (Stmt.assign v e).Lasting (depth + 2) :=
  ⟨he.canonical, by simpa [Stmt.toJson] using he.within⟩

theorem setAttribute {a : Attribute} (he : e.Lasting (depth + 1))
    (ha : ∀ t ∈ a.types, t.Canonical) :
    (Stmt.setAttribute v a e).Lasting (depth + 3) :=
  ⟨⟨ha, he.canonical⟩, by simpa [Stmt.toJson] using he.within⟩

theorem ret (he : e.Lasting depth) : (Stmt.ret e).Lasting (depth + 1) :=
  ⟨he.canonical, by simpa [Stmt.toJson] using he.within⟩

theorem when {stmts : List Stmt} (he : e.Lasting (depth + 1)) (h : Stmt.AllLasting depth stmts) :
    (Stmt.when e stmts).Lasting (depth + 3) :=
  ⟨⟨he.canonical, h.canonical⟩, by simpa [Stmt.toJson] using ⟨he.within, h.within⟩⟩

end Expr.Lasting

namespace Expr

theorem lasting_null {depth : Nat} : Expr.null.Lasting depth := ⟨trivial, by simp [toJson]⟩

theorem lasting_newContainer {depth : Nat} : newContainer.Lasting depth :=
  ⟨trivial, by simp [toJson]⟩

theorem lasting_emptyList {depth : Nat} : emptyList.Lasting depth := ⟨trivial, by simp [toJson]⟩

theorem lasting_var {depth : Nat} (v : Var) : (var v).Lasting (depth + 1) :=
  ⟨trivial, by simp [toJson]⟩

theorem lasting_lookup {depth : Nat} (v : Var) (key : String) :
    (lookup v key).Lasting (depth + 2) :=
  ⟨trivial, by simp [toJson, keyed]⟩

theorem lasting_isNull {depth : Nat} (v : Var) : (isNull (var v)).Lasting (depth + 2) :=
  ⟨trivial, by simp [toJson]⟩

end Expr

namespace Derive

section Bodies

open Stmt

variable {p : Plan} (table : List Constant)

/-! ## Methods that write -/

theorem lasting_writeValue {a : PlannedAttribute} (h : a.Canonical) :
    (writeValue table a).Lasting 6 := by
  have hmodel := h.model
  have htransfer := h.transfer
  unfold writeValue
  cases ht : a.transfer with
  | plain serializer deserializer =>
    cases serializer with
    | none => exact ⟨hmodel, by simp [Expr.toJson]⟩
    | some t => exact ⟨hmodel, by simp [Expr.toJson]⟩
  | single mapper =>
    rw [ht] at htransfer
    refine ⟨⟨htransfer _ (List.mem_singleton_self _), hmodel, trivial, trivial⟩, ?_⟩
    simp [Expr.toJson, Expr.allToJson]
  | collection mapper =>
    rw [ht] at htransfer
    refine ⟨⟨htransfer _ (List.mem_singleton_self _), hmodel, trivial, trivial⟩, ?_⟩
    simp [Expr.toJson, Expr.allToJson]

theorem lasting_putValues (h : p.Canonical) {as : List PlannedAttribute} (has : as ⊆ p.attributes)
    (target : Var) : AllLasting 8 (as.map (putValue table target)) :=
  List.forall_mem_map.mpr fun a ha => (lasting_writeValue table (h.attributes a (has ha))).put

theorem lasting_putLinks : AllLasting 4 (putLinks table p) := by
  unfold putLinks
  cases p.links with
  | none => simp [AllLasting]
  | some t =>
    have hlinks : (Expr.links (constantName table t) .value .requestContext).Lasting 2 :=
      ⟨trivial, by simp [Expr.toJson]⟩
    exact List.forall_mem_singleton.mpr hlinks.putAll

theorem lasting_putEmbedded (h : p.Canonical) : AllLasting 8 (putEmbedded table p) := by
  have hmake : (Expr.newContainer).Lasting 6 := Expr.lasting_newContainer
  unfold putEmbedded
  split
  · refine List.forall_mem_append.mpr ⟨List.forall_mem_cons.mpr ⟨hmake.declare trivial, ?_⟩, ?_⟩
    · exact lasting_putValues table h (List.filter_subset_self _) .embeddedMap
    · exact List.forall_mem_singleton.mpr (Expr.lasting_var .embeddedMap).put
  · simp [AllLasting]

theorem lasting_putVariant {d : PlannedDispatch} {v : PlannedVariant} (hmapper : v.mapper.Canonical)
    (hmodel : v.model.Canonical) : (putVariant d v).Lasting 11 := by
  have hfields : (Expr.callMapper v.mapper .toJson
      [.cast (.declared v.model) (.var .value), .var .requestContext]).Lasting 6 := by
    refine ⟨⟨hmapper, ⟨hmodel, trivial⟩, trivial, trivial⟩, ?_⟩
    simp [Expr.toJson, Expr.allToJson]
  have hcondition : (Expr.isInstance .value v.model).Lasting 9 :=
    ⟨hmodel, by simp [Expr.toJson]⟩
  have hid : (Expr.text v.id).Lasting 6 := ⟨trivial, by simp [Expr.toJson]⟩
  refine hcondition.when (List.forall_mem_cons.mpr ⟨hid.put, List.forall_mem_singleton.mpr ?_⟩)
  cases d.nestedAttribute with
  | none => exact hfields.putAll
  | some key => exact hfields.put

theorem lasting_putVariants (h : p.Canonical) : AllLasting 11 (putVariants p) := by
  unfold putVariants
  cases hd : p.dispatch with
  | none => simp [AllLasting]
  | some d =>
    refine List.forall_mem_map.mpr fun v hv => ?_
    obtain ⟨hmapper, hmodel⟩ := h.dispatch d hd v hv
    exact lasting_putVariant hmapper hmodel

theorem lasting_toJsonBody (h : p.Canonical) : AllLasting 11 (toJsonBody table p) := by
  have hmake : Expr.newContainer.Lasting 9 := Expr.lasting_newContainer
  have hplain : AllLasting 8 (p.plainAttributes.map (putValue table .json)) :=
    lasting_putValues table h (List.filter_subset_self _) .json
  have hbody : AllLasting 11 (putLinks table p ++ p.plainAttributes.map (putValue table .json) ++
      putEmbedded table p ++ putVariants p ++ [.ret (.var .json)]) := by
    refine .append (.append (.append (.append ?_ ?_) ?_) ?_) ?_
    · exact (lasting_putLinks table).mono (by omega)
    · exact hplain.mono (by omega)
    · exact (lasting_putEmbedded table h).mono (by omega)
    · exact lasting_putVariants h
    · exact List.forall_mem_singleton.mpr (Expr.lasting_var .json).ret
  exact List.forall_mem_cons.mpr ⟨hmake.declare trivial, hbody⟩

theorem lasting_mapEach {mapper : JavaType} (h : mapper.Canonical) (v : Var) (k : MethodKind)
    (context : Option Var) : (Expr.mapEach v mapper k context).Lasting 2 := by
  refine ⟨h, ?_⟩
  cases context <;> simp [Expr.toJson]

/-! ## Methods that read -/

theorem lasting_castTo {depth : Nat} {t : Option JavaType} {e : Expr} (ht : ∀ u ∈ t, u.Canonical)
    (he : e.Lasting (depth + 1)) : (castTo t e).Lasting (depth + 3) := by
  cases t with
  | none => exact he.mono (by omega)
  | some u =>
    exact ⟨⟨ht u rfl, he.canonical⟩, by simpa [castTo, Expr.toJson] using he.within⟩

theorem lasting_readValue {a : PlannedAttribute} (h : a.Canonical) {e : Expr}
    (he : e.Lasting 2) : (readValue table a e).Lasting 7 := by
  have htransfer := h.transfer
  unfold readValue
  cases ht : a.transfer with
  | plain serializer deserializer =>
    cases deserializer with
    | none => exact (lasting_castTo (by simpa [Attribute.types] using h.model) he).mono (by omega)
    | some t =>
      have hcast := lasting_castTo (by simpa [Attribute.types] using h.wire) he
      have hdeep := hcast.within.mono (Nat.le_succ _)
      exact ⟨hcast.canonical, by simpa [Expr.toJson] using hdeep⟩
  | single mapper =>
    rw [ht] at htransfer
    refine ⟨⟨htransfer _ (List.mem_singleton_self _), ⟨trivial, he.canonical⟩, trivial⟩, ?_⟩
    simpa [Expr.toJson, Expr.allToJson] using he.within
  | collection mapper =>
    rw [ht] at htransfer
    refine ⟨⟨htransfer _ (List.mem_singleton_self _), ⟨trivial, he.canonical⟩, trivial⟩, ?_⟩
    simpa [Expr.toJson, Expr.allToJson] using he.within

theorem lasting_setValue {a : PlannedAttribute} (h : a.Canonical) :
    (setValue table a).Lasting 12 := by
  have hkey : (Expr.hasKey (sourceOf a) a.wireKey).Lasting 10 :=
    ⟨trivial, by simp [Expr.toJson, Expr.keyed]⟩
  have hvalue := lasting_readValue table h (Expr.lasting_lookup (sourceOf a) a.wireKey)
  exact hkey.when (List.forall_mem_singleton.mpr (hvalue.setAttribute h.model))

theorem lasting_select {d : PlannedDispatch} (h : ∀ v ∈ d.variants, v.mapper.Canonical) :
    (Stmt.select (.lookup .json d.discriminator) (d.variants.map (readVariant d))).Lasting 14 := by
  have hsource : (variantSource d).Lasting 4 := by
    unfold variantSource
    cases d.nestedAttribute with
    | none => exact Expr.lasting_var .json
    | some key => exact ⟨⟨trivial, trivial⟩, by simp [Expr.toJson, Expr.keyed]⟩
  have hread : ∀ v ∈ d.variants, AllLasting 9 (readVariant d v).2 := by
    intro v hv
    have hcall : (Expr.callMapper v.mapper .fromJson [variantSource d]).Lasting 7 := by
      refine ⟨⟨h v hv, hsource.canonical, trivial⟩, ?_⟩
      simpa [Expr.toJson, Expr.allToJson] using hsource.within
    exact List.forall_mem_singleton.mpr hcall.assign
  have harms : ∀ arm ∈ d.variants.map (readVariant d), AllLasting 9 arm.2 :=
    List.forall_mem_map.mpr hread
  refine ⟨⟨trivial, armsCanonical_iff.mpr fun arm harm => (harms arm harm).canonical⟩, ?_⟩
  rw [toJson, armsToJson_eq_map]
  have hbodies : ∀ v ∈ d.variants, ∀ j ∈ allToJson (readVariant d v).2, Within 9 j :=
    fun v hv => (hread v hv).within
  simpa [Expr.toJson, Expr.keyed, armToJson] using hbodies

theorem lasting_makeModel (h : p.Canonical) : AllLasting 14 (makeModel p) := by
  unfold makeModel constructVariant
  cases hd : p.dispatch with
  | none =>
    have hnew : (Expr.newModel p.descriptor.model).Lasting 12 := ⟨h.model, by simp [Expr.toJson]⟩
    exact List.forall_mem_singleton.mpr (hnew.declare h.model)
  | some d =>
    have hnull : Expr.null.Lasting 12 := Expr.lasting_null
    have hselect := lasting_select fun v hv => (h.dispatch d hd v hv).1
    have hreturn : AllLasting 11 [.ret (.var .model)] :=
      List.forall_mem_singleton.mpr (Expr.lasting_var .model).ret
    refine List.forall_mem_cons.mpr ⟨hnull.declare h.model, List.forall_mem_cons.mpr ⟨hselect, ?_⟩⟩
    exact List.forall_mem_singleton.mpr ((Expr.lasting_isNull .model).when hreturn)

theorem lasting_findEmbedded : AllLasting 5 (findEmbedded p) := by
  have hfind : (Expr.subContainer .json embeddedKey).Lasting 3 :=
    ⟨trivial, by simp [Expr.toJson, Expr.keyed]⟩
  unfold findEmbedded
  split
  · exact List.forall_mem_singleton.mpr (hfind.declare trivial)
  · simp [AllLasting]

theorem lasting_readModel (h : p.Canonical) : AllLasting 14 (readModel table p) := by
  unfold readModel
  cases p.descriptor.customDeserializer with
  | some t =>
    have happly : (Expr.apply (constantName table t) (.var .json)).Lasting 3 :=
      ⟨trivial, by simp [Expr.toJson]⟩
    exact List.forall_mem_singleton.mpr (happly.ret.mono (by omega))
  | none =>
    refine .append (.append (.append (lasting_makeModel h) ?_) ?_) ?_
    · exact lasting_findEmbedded.mono (by omega)
    · exact List.forall_mem_map.mpr fun a ha =>
        (lasting_setValue table (h.attributes a ha)).mono (by omega)
    · exact List.forall_mem_singleton.mpr (Expr.lasting_var .model).ret

theorem lasting_fromJsonBody (h : p.Canonical) : AllLasting 14 (fromJsonBody table p) := by
  have hreturn : AllLasting 11 [.ret .null] :=
    List.forall_mem_singleton.mpr Expr.lasting_null.ret
  exact List.forall_mem_cons.mpr
    ⟨(Expr.lasting_isNull .json).when hreturn, lasting_readModel table h⟩

/-! ## Mappers -/

theorem lasting_body (h : p.Canonical) (k : MethodKind) : AllLasting 14 (p.method k).body := by
  cases k with
  | toJson => exact (lasting_toJsonBody _ h).mono (by omega)
  | toJsonCollection =>
    refine List.forall_mem_singleton.mpr (Expr.Lasting.ret ?_)
    exact (lasting_mapEach h.mapper _ _ _).mono (by omega)
  | fromJson => exact lasting_fromJsonBody _ h
  | fromJsonCollection =>
    have hreturn : AllLasting 11 [.ret .emptyList] :=
      List.forall_mem_singleton.mpr Expr.lasting_emptyList.ret
    refine List.forall_mem_cons.mpr ⟨(Expr.lasting_isNull .jsonArray).when hreturn, ?_⟩
    refine List.forall_mem_singleton.mpr (Expr.Lasting.ret ?_)
    exact (lasting_mapEach h.mapper _ _ _).mono (by omega)

theorem canonical_method (h : p.Canonical) (k : MethodKind) : (p.method k).Canonical where
  params := by cases k <;> simp [Plan.method, toJsonMethod, writingMethod, toJsonCollectionMethod,
    listWritingMethod, fromJsonMethod, readingMethod, fromJsonCollectionMethod, listReadingMethod,
    ValueType.Canonical, h.model]
  returns := by cases k <;> simp [Plan.method, toJsonMethod, writingMethod,
    toJsonCollectionMethod, listWritingMethod, fromJsonMethod, readingMethod,
    fromJsonCollectionMethod, listReadingMethod, ValueType.Canonical, h.model]
  body := fun s hs => (lasting_body h k s hs).canonical

theorem canonical_toMapper (h : p.Canonical) : p.toMapper.Canonical where
  type := h.mapper
  representer := h.representer
  model := h.model
  constants := canonical_constants h
  methods := by
    intro m hm
    obtain ⟨k, -, rfl⟩ := Plan.mem_methods_iff.mp hm
    exact canonical_method h k

theorem within_toMapper (h : p.Canonical) : Within 18 p.toMapper.toJson := by
  have hmethods : ∀ m ∈ p.toMapper.methods, Within 16 m.toJson := by
    intro m hm
    obtain ⟨k, -, rfl⟩ := Plan.mem_methods_iff.mp hm
    have hbody := (lasting_body h k).within
    simpa [Method.toJson, Param.toJson] using hbody
  simpa [Mapper.toJson, Constant.toJson] using hmethods

end Bodies

end Derive

/-- The mapper is read from its text as it was written, so what it depends on and what it is in Java
do not change. -/
def Mapper.Lasts (m : Mapper) : Prop :=
  ∀ text ∈ [m.toJson.compact, m.toJson.pretty], ∃ n, Mapper.ofText text = .ok n ∧ n = m ∧
    n.dependencies = m.dependencies ∧ ∀ settings, n.javaSource settings = m.javaSource settings

section Derived

variable {reg : Registry} {g : GeneratorSettings}

/-- A mapper that is derived from canonical types has a plan with canonical types. -/
theorem Registry.exists_canonical_plan (hg : g.Plain) (hreg : ∀ t ∈ reg.types, t.Canonical)
    {d : Descriptor} (hd : ∀ t ∈ d.types, t.Canonical) {m : Mapper}
    (h : reg.derive g d = .ok m) : ∃ p : Derive.Plan, p.Canonical ∧ m = p.toMapper := by
  obtain ⟨rfl, hown, hrefs⟩ := Derive.derive_ok h
  exact ⟨_, Derive.canonical_planned hg hreg hd hown hrefs, rfl⟩

theorem Registry.lasts_of_derive (hg : g.Plain) (hreg : ∀ t ∈ reg.types, t.Canonical)
    {d : Descriptor} (hd : ∀ t ∈ d.types, t.Canonical) {m : Mapper}
    (h : reg.derive g d = .ok m) : m.Lasts := by
  obtain ⟨p, hplan, rfl⟩ := reg.exists_canonical_plan hg hreg hd h
  have hform := Mapper.ofForm_toJson (Derive.canonical_toMapper hplan)
  have hwithin := (Derive.within_toMapper hplan).mono (by decide : 18 ≤ Json.nestingLimit)
  intro text htext
  refine ⟨_, ?_, rfl, rfl, fun _ => rfl⟩
  rcases List.mem_pair.mp htext with rfl | rfl
  · exact Shape.ofText_of_form (Json.ofText_compact hwithin) hform
  · exact Shape.ofText_of_form (Json.ofText_pretty hwithin) hform

/-- Where all types come from texts and the settings are plain, every mapper that is derived is read
back from its text: that of a descriptor, of an id, and of each registered representer. -/
theorem derived_mappers_last (hg : g.Plain)
    (hreg : ∀ t ∈ reg.types, ∃ s, JavaType.parse s = .ok t) :
    (∀ d m, (∀ t ∈ d.types, ∃ s, JavaType.parse s = .ok t) → reg.derive g d = .ok m → m.Lasts) ∧
    (∀ id m, reg.deriveId g id = .ok m → m.Lasts) ∧
    ∀ ms, reg.deriveAll g = .ok ms → ∀ m ∈ ms, m.Lasts := by
  simp only [JavaType.exists_parse_iff] at hreg ⊢
  have hresolved : ∀ {id d}, reg.resolve? id = some d → ∀ t ∈ d.types, t.Canonical :=
    fun h t ht => hreg t (Registry.types_subset_of_resolve? h ht)
  refine ⟨fun d m hd h => Registry.lasts_of_derive hg hreg hd h, ?_, ?_⟩
  · intro id m h
    obtain ⟨d, hd, h⟩ := bind_eq_ok.mp h
    unfold Registry.resolve at hd
    split at hd
    · rename_i e he
      cases hd
      exact Registry.lasts_of_derive hg hreg (hresolved he) h
    · cases hd
  · intro ms h m hm
    obtain ⟨d, hd, h⟩ := exists_of_mem_of_mapM_eq_ok h hm
    have hfound := Registry.resolve?_of_mem_localDescriptors hd
    exact Registry.lasts_of_derive hg hreg (hresolved hfound) h

end Derived

/-! ## Mappers of pets as a sample -/

namespace Sample

/-- A base with a variant that has an attribute of its own. -/
def kennel : Registry where
  registrations := [
    ⟨{ pet.descriptor with dispatch := some {
        discriminator := "kind"
        nestedAttribute := some "details"
        variants := [⟨"犬", dog.descriptor.representer⟩] } }, false⟩,
    ⟨dog.descriptor, false⟩]
  additions := [(dog.descriptor.representer, friends)]
  distinct := by decide

theorem plain_default : ({} : GeneratorSettings).Plain := by
  refine ⟨?_, by decide⟩
  intro piece hpiece c hc
  rw [Text.pieces_of_not_mem (by decide), List.mem_singleton] at hpiece
  have hhead : piece.head? = some 'g' := by
    rw [hpiece]
    rfl
  rw [hhead] at hc
  cases hc
  decide

theorem derived_mappers_last_kennel :
    ({} : GeneratorSettings).Plain ∧ (∀ t ∈ kennel.types, ∃ s, JavaType.parse s = .ok t) ∧
      kennel.deriveAll {} = .ok (mappersOf kennel) ∧ ∀ m ∈ mappersOf kennel, m.Lasts := by
  have htypes : ∀ t ∈ kennel.types, ∃ s, JavaType.parse s = .ok t := by
    simp only [JavaType.exists_parse_iff]
    decide
  have hms : kennel.deriveAll {} = .ok (mappersOf kennel) := rfl
  exact ⟨plain_default, htypes, hms, (derived_mappers_last plain_default htypes).2.2 _ hms⟩

end Sample

end JsonMapping
