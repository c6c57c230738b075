import JsonMapping.Mapper.Traversal
import JsonMapping.Proofs.Derive.Constants
import JsonMapping.Proofs.Derive.Methods
import JsonMapping.Proofs.Derive.Names

/-! The constants of a mapper and their uses. A body applies helpers by the names of constants, a
descriptor gives their types. The main statement, `Registry.constants_match_bodies`, is that the
table leads from each name in a body to the type that the descriptor gives there, and that it holds
one constant for each helper type, in order of first use, and no other. -/

namespace JsonMapping

namespace Derive

/-! ## The table in order of first use -/

section Table

variable {table : List Constant} {uses : List HelperUse} {use : HelperUse} {c : Constant}

theorem constantsFor_append_singleton (uses : List HelperUse) (use : HelperUse) :
    constantsFor (uses ++ [use]) = declareHelper (constantsFor uses) use :=
  List.foldl_concat ..

theorem declareHelper_eq (table : List Constant) (use : HelperUse) :
    declareHelper table use =
      if use.1 ∈ table.map (·.type) then table
      else table ++ [⟨freshName (table.map (·.name)) (baseName use), use.2, use.1⟩] := by
  have hany : table.any (·.type = use.1) = true ↔ use.1 ∈ table.map (·.type) := by simp
  simp only [declareHelper, hany]

theorem mem_declareHelper : c ∈ declareHelper table use ↔ c ∈ table ∨
    use.1 ∉ table.map (·.type) ∧
      c = ⟨freshName (table.map (·.name)) (baseName use), use.2, use.1⟩ := by
  rw [declareHelper_eq]
  split
  · rename_i h
    simp [h]
  · rename_i h
    simp [h]

/-- Each helper type has one constant, in order of first use. -/
theorem types_constantsFor (uses : List HelperUse) :
    (constantsFor uses).map (·.type) = (uses.map Prod.fst).eraseDups := by
  induction uses using List.reverseRecOn with
  | nil => rfl
  | append_singleton uses use ih =>
    rw [constantsFor_append_singleton, declareHelper_eq, ih, List.map_append,
      List.eraseDups_append]
    split
    · rename_i h
      simp [ih, List.removeAll, List.mem_eraseDups.mp h]
    · rename_i h
      simp [ih, List.removeAll, mt List.mem_eraseDups.mpr h, List.eraseDups_cons]

theorem constantsFor_types_nodup (uses : List HelperUse) :
    ((constantsFor uses).map (·.type)).Nodup := by
  induction uses using List.reverseRecOn with
  | nil => exact List.nodup_nil
  | append_singleton uses use ih =>
    rw [constantsFor_append_singleton, declareHelper_eq]
    split
    · exact ih
    · rename_i h
      rw [List.map_append, List.nodup_append]
      refine ⟨ih, List.nodup_singleton _, ?_⟩
      rintro t ht u hu rfl
      obtain rfl := List.mem_singleton.mp hu
      exact h ht

/-- The first use of its type makes a constant: that use fixes its role, and the constants before it
fix its name. -/
theorem exists_first_use (h : c ∈ constantsFor uses) :
    ∃ before after, uses = before ++ (c.type, c.role) :: after ∧ c.type ∉ before.map Prod.fst ∧
      c.name = freshName ((constantsFor before).map (·.name)) (baseName (c.type, c.role)) := by
  induction uses using List.reverseRecOn with
  | nil => cases h
  | append_singleton uses use ih =>
    rw [constantsFor_append_singleton, mem_declareHelper, types_constantsFor,
      List.mem_eraseDups] at h
    rcases h with h | ⟨hnew, rfl⟩
    · obtain ⟨before, after, rfl, hnew, hname⟩ := ih h
      exact ⟨before, after ++ [use], by simp, hnew, hname⟩
    · exact ⟨uses, [], rfl, hnew, rfl⟩

end Table

end Derive

/-! ## Applications of helpers -/

/-- A helper at work: a links provider on a model and the request context, or any other helper on
an argument. -/
inductive Application (α : Type) where
  | links (helper : α) (v context : Var)
  | apply (helper : α) (argument : Expr)

namespace Application

variable {α β γ : Type}

def helper : Application α → α
  | links h _ _ | apply h _ => h

/-- The same application of another helper. -/
def map (f : α → β) : Application α → Application β
  | links h v c => links (f h) v c
  | apply h e => apply (f h) e

@[simp]
theorem helper_map (f : α → β) (x : Application α) : (x.map f).helper = f x.helper := by
  cases x <;> rfl

theorem map_map (f : β → γ) (g : α → β) (x : Application α) :
    (x.map g).map f = x.map fun a => f (g a) := by
  cases x <;> rfl

theorem map_congr {f g : α → β} {x : Application α} (h : f x.helper = g x.helper) :
    x.map f = x.map g := by
  cases x with
  | links a v c => exact congrArg (links · v c) h
  | apply a e => exact congrArg (apply · e) h

@[simp]
theorem map_id (x : Application α) : x.map id = x := by
  cases x <;> rfl

end Application

/-- The application of a constant that an expression is. -/
@[simp]
def Expr.application? : Expr → Option (Application String)
  | .links c v context => some (.links c v context)
  | .apply c e => some (.apply c e)
  | _ => none

@[simp]
def Mention.application? : Mention → Option (Application String)
  | .expr e => e.application?
  | _ => none

/-- All applications of constants in a method, in the order of its text. -/
def Method.applications (m : Method) : List (Application String) :=
  m.mentions.filterMap (·.application?)

/-- The application of a helper type that an application of a constant stands for. -/
def Mapper.resolve (m : Mapper) (x : Application String) : Option (Application JavaType) :=
  (m.constant? x.helper).map fun c => x.map fun _ => c.type

/-! ## What a descriptor applies -/

namespace AttributeMapping

/-- The serializer of a field, on the attribute. -/
def encoding? (m : AttributeMapping) : Option (Application JavaType) :=
  match m.conversion with
  | .plain (some t) _ => some (.apply t (.getAttribute .value m.model))
  | _ => none

/-- The container that holds the field. -/
def source (m : AttributeMapping) : Var := if m.embedded then .embeddedMap else .json

/-- The deserializer of an attribute, on the field as its declared type. -/
def decoding? (m : AttributeMapping) : Option (Application JavaType) :=
  match m.conversion with
  | .plain _ (some t) => some (.apply t (Derive.castTo m.wire.type (.lookup m.source m.wireKey)))
  | _ => none

end AttributeMapping

/-- The links provider of a descriptor, unless it is the one that is as good as none. -/
def GeneratorSettings.linksOf (g : GeneratorSettings) (d : Descriptor) : Option JavaType :=
  d.linksProvider.filter fun t => some t.qualifiedName ≠ g.emptyLinksProvider

namespace Registry

/-- The helpers that a descriptor applies in the method of each kind, in order. Writing applies the
links provider, then the serializers of the plain, then those of the embedded fields; reading the
custom deserializer alone, or the deserializers in order of declaration. -/
def applications (reg : Registry) (g : GeneratorSettings) (d : Descriptor) :
    MethodKind → List (Application JavaType)
  | .toJson =>
    let ms := reg.attributesOf d.representer
    ((g.linksOf d).map (.links · .value .requestContext)).toList ++
      (ms.filter (!·.embedded) ++ ms.filter (·.embedded)).filterMap (·.encoding?)
  | .fromJson =>
    match d.customDeserializer with
    | some t => [.apply t (.var .json)]
    | none => (reg.attributesOf d.representer).filterMap (·.decoding?)
  | .toJsonCollection | .fromJsonCollection => []

/-- The helper types that a descriptor applies, for the directions that it does not skip. -/
def helperTypes (reg : Registry) (g : GeneratorSettings) (d : Descriptor) : List JavaType :=
  ([MethodKind.toJson, .fromJson].filter (!d.skips ·)).flatMap fun k =>
    (reg.applications g d k).map (·.helper)

end Registry

/-! ## What a body applies -/

/-- The applications among the parts of a body. -/
def applicationsIn (ms : List Mention) : List (Application String) := ms.filterMap (·.application?)

section Bodies

@[simp]
theorem applicationsIn_nil : applicationsIn [] = [] := rfl

@[simp]
theorem applicationsIn_append (xs ys : List Mention) :
    applicationsIn (xs ++ ys) = applicationsIn xs ++ applicationsIn ys :=
  List.filterMap_append

@[simp]
theorem applicationsIn_cons (x : Mention) (xs : List Mention) :
    applicationsIn (x :: xs) = x.application?.toList ++ applicationsIn xs := by
  unfold applicationsIn
  cases h : x.application? with
  | none => exact List.filterMap_cons_none h
  | some y => exact List.filterMap_cons_some h

@[simp]
theorem JavaType.applicationsIn_mentions (t : JavaType) : applicationsIn t.mentions = [] := by
  simp [applicationsIn, JavaType.mentions, Mention.application?]

@[simp]
theorem ValueType.applicationsIn_mentions (t : ValueType) : applicationsIn t.mentions = [] := by
  cases t <;> simp [ValueType.mentions]

theorem applicationsIn_flatMap {α : Type} (f : α → List Mention) (xs : List α) :
    applicationsIn (xs.flatMap f) = xs.flatMap fun x => applicationsIn (f x) :=
  List.filterMap_flatMap

namespace Stmt

@[simp]
theorem applicationsIn_mentionsAll_append (xs ys : List Stmt) :
    applicationsIn (mentionsAll (xs ++ ys)) =
      applicationsIn (mentionsAll xs) ++ applicationsIn (mentionsAll ys) := by
  simp [mentionsAll_eq_flatMap]

theorem applicationsIn_mentionsAll_map {α : Type} (f : α → Stmt) (xs : List α) :
    applicationsIn (mentionsAll (xs.map f)) =
      xs.flatMap fun x => applicationsIn (f x).mentions := by
  rw [mentionsAll_eq_flatMap, List.flatMap_map, applicationsIn_flatMap]

/-- Arms of a selection apply nothing if no statement of theirs does. -/
theorem applicationsIn_armMentions {arms : List (String × List Stmt)}
    (h : ∀ arm ∈ arms, applicationsIn (mentionsAll arm.2) = []) :
    applicationsIn (armMentions arms) = [] := by
  rw [armMentions_eq_flatMap, applicationsIn_flatMap, List.flatMap_eq_nil_iff]
  exact h

end Stmt

/-- A method applies what its body does. -/
theorem Method.applications_eq (m : Method) :
    m.applications = applicationsIn (Stmt.mentionsAll m.body) := by
  have hparams : applicationsIn (m.params.flatMap fun p => p.type.mentions) = [] := by
    simp [applicationsIn_flatMap]
  change applicationsIn (m.params.flatMap _ ++ _ ++ _) = _
  simp [hparams]

namespace Derive

variable {reg : Registry} {g : GeneratorSettings} {d : Descriptor} {table : List Constant}

/-- The application of a constant that stands for one of a helper type in the table. -/
abbrev named (table : List Constant) : Application JavaType → Application String :=
  Application.map (constantName table)

theorem plainAttributes_planned : (planned reg g d).plainAttributes =
    ((reg.attributesOf d.representer).filter (!·.embedded)).map (plannedAttribute g) :=
  List.filter_map

theorem embeddedAttributes_planned : (planned reg g d).embeddedAttributes =
    ((reg.attributesOf d.representer).filter (·.embedded)).map (plannedAttribute g) :=
  List.filter_map

theorem transfer_plannedAttribute {m : AttributeMapping} {x : Conversion} (h : m.conversion = x) :
    (plannedAttribute g m).transfer = transferOf g x :=
  congrArg (transferOf g) h

theorem applicationsIn_putValue (target : Var) (m : AttributeMapping) :
    applicationsIn (putValue table target (plannedAttribute g m)).mentions =
      (m.encoding?.map (named table)).toList := by
  have hmodel : (plannedAttribute g m).model = m.model := rfl
  rcases hm : m.conversion with ⟨_ | s, t⟩ | r | ⟨r, e⟩ <;>
    simp [putValue, writeValue, transfer_plannedAttribute hm, transferOf, hmodel,
      AttributeMapping.encoding?, hm, Stmt.mentions, Expr.mentions, Expr.mentionsAll,
      Application.map]

@[simp]
theorem applicationsIn_mentions_castTo (t : Option JavaType) (e : Expr) :
    applicationsIn (castTo t e).mentions = applicationsIn e.mentions := by
  cases t <;> simp [castTo, Expr.mentions]

theorem applicationsIn_setValue (m : AttributeMapping) :
    applicationsIn (setValue table (plannedAttribute g m)).mentions =
      (m.decoding?.map (named table)).toList := by
  have hwire : (plannedAttribute g m).wire = m.wire := rfl
  have hkey : (plannedAttribute g m).wireKey = m.wireKey := rfl
  have hsource : sourceOf (plannedAttribute g m) = m.source := rfl
  rcases hm : m.conversion with ⟨s, _ | t⟩ | r | ⟨r, e⟩ <;>
    simp [setValue, readValue, transfer_plannedAttribute hm, transferOf, hwire, hkey, hsource,
      AttributeMapping.decoding?, hm, Stmt.mentions, Stmt.mentionsAll, Expr.mentions,
      Expr.mentionsAll, Application.map]

theorem applicationsIn_putLinks (p : Plan) :
    applicationsIn (Stmt.mentionsAll (putLinks table p)) =
      ((p.links.map (.links · .value .requestContext)).map (named table)).toList := by
  cases hl : p.links <;>
    simp [putLinks, hl, Stmt.mentionsAll, Stmt.mentions, Expr.mentions, Application.map]

theorem applicationsIn_putVariants (p : Plan) :
    applicationsIn (Stmt.mentionsAll (putVariants p)) = [] := by
  cases hx : p.dispatch with
  | none => simp [putVariants, hx, Stmt.mentionsAll]
  | some x =>
    have hvariant : ∀ v : PlannedVariant, applicationsIn (putVariant x v).mentions = [] := by
      intro v
      cases hn : x.nestedAttribute <;>
        simp [putVariant, hn, Stmt.mentions, Stmt.mentionsAll, Expr.mentions, Expr.mentionsAll]
    simp [putVariants, hx, Stmt.applicationsIn_mentionsAll_map, hvariant]

theorem applicationsIn_makeModel (p : Plan) :
    applicationsIn (Stmt.mentionsAll (makeModel p)) = [] := by
  cases hx : p.dispatch with
  | none =>
    simp [makeModel, hx, Stmt.mentions, Stmt.mentionsAll, Expr.mentions]
  | some x =>
    have harms : applicationsIn (Stmt.armMentions (x.variants.map (readVariant x))) = [] := by
      refine Stmt.applicationsIn_armMentions (List.forall_mem_map.mpr fun v _ => ?_)
      cases hn : x.nestedAttribute <;>
        simp [readVariant, variantSource, hn, Stmt.mentions, Stmt.mentionsAll, Expr.mentions,
          Expr.mentionsAll]
    simp [makeModel, constructVariant, hx, harms, Stmt.mentions, Stmt.mentionsAll, Expr.mentions]

theorem applicationsIn_putValues (target : Var) (ms : List AttributeMapping) :
    applicationsIn (Stmt.mentionsAll (ms.map (putValue table target ∘ plannedAttribute g))) =
      (ms.filterMap (·.encoding?)).map (named table) := by
  rw [Stmt.applicationsIn_mentionsAll_map, List.map_filterMap, List.filterMap_eq_flatMap_toList]
  exact List.flatMap_congr fun m _ => applicationsIn_putValue target m

theorem applicationsIn_setValues (ms : List AttributeMapping) :
    applicationsIn (Stmt.mentionsAll (ms.map (setValue table ∘ plannedAttribute g))) =
      (ms.filterMap (·.decoding?)).map (named table) := by
  rw [Stmt.applicationsIn_mentionsAll_map, List.map_filterMap, List.filterMap_eq_flatMap_toList]
  exact List.flatMap_congr fun m _ => applicationsIn_setValue m

/-- The container of the embedded fields is written where there are such. -/
theorem applicationsIn_putEmbedded (p : Plan) :
    applicationsIn (Stmt.mentionsAll (putEmbedded table p)) = applicationsIn
      (Stmt.mentionsAll (p.embeddedAttributes.map (putValue table .embeddedMap))) := by
  cases he : p.hasEmbedded with
  | false =>
    have hnone : p.embeddedAttributes = [] := by
      simpa [Plan.hasEmbedded, Plan.embeddedAttributes] using he
    simp [putEmbedded, he, hnone]
  | true =>
    simp [putEmbedded, he, Stmt.mentions, Stmt.mentionsAll, Expr.mentions]

theorem applicationsIn_findEmbedded (p : Plan) :
    applicationsIn (Stmt.mentionsAll (findEmbedded p)) = [] := by
  unfold findEmbedded
  split <;> simp [Stmt.mentions, Stmt.mentionsAll, Expr.mentions]

theorem applicationsIn_toJsonBody :
    applicationsIn (Stmt.mentionsAll (toJsonBody table (planned reg g d))) =
      (reg.applications g d .toJson).map (named table) := by
  have hlinks : (planned reg g d).links = g.linksOf d := rfl
  rw [toJsonBody, List.cons_append, List.cons_append, List.cons_append, List.cons_append]
  simp [Stmt.mentionsAll, Stmt.mentions, Expr.mentions, applicationsIn_putLinks,
    applicationsIn_putEmbedded, applicationsIn_putVariants, plainAttributes_planned,
    embeddedAttributes_planned, hlinks, applicationsIn_putValues, Registry.applications,
    Option.toList_map]

theorem applicationsIn_fromJsonBody :
    applicationsIn (Stmt.mentionsAll (fromJsonBody table (planned reg g d))) =
      (reg.applications g d .fromJson).map (named table) := by
  have hattributes : (planned reg g d).attributes =
    (reg.attributesOf d.representer).map (plannedAttribute g) := rfl
  have hdescriptor : (planned reg g d).descriptor = d := rfl
  cases hc : d.customDeserializer with
  | some t =>
    simp [fromJsonBody, readModel, hdescriptor, hc, Stmt.mentionsAll, Stmt.mentions,
      Expr.mentions, Registry.applications, Application.map]
  | none =>
    simp [fromJsonBody, readModel, hdescriptor, hc, hattributes, Stmt.mentionsAll,
      Stmt.mentions, Expr.mentions, Registry.applications, applicationsIn_makeModel,
      applicationsIn_findEmbedded, applicationsIn_setValues]

/-- Each method applies what the descriptor does, by the names of constants. -/
theorem applications_method (k : MethodKind) :
    ((planned reg g d).method k).applications =
      (reg.applications g d k).map (named (planned reg g d).constants) := by
  rw [Method.applications_eq]
  cases k with
  | toJson => exact applicationsIn_toJsonBody
  | fromJson => exact applicationsIn_fromJsonBody
  | toJsonCollection | fromJsonCollection =>
    simp [Plan.method, toJsonCollectionMethod, listWritingMethod, fromJsonCollectionMethod,
      listReadingMethod, Stmt.mentionsAll, Stmt.mentions, Expr.mentions, Registry.applications]

/-! ## Uses of a plan -/

theorem map_fst_serializer? (m : AttributeMapping) :
    (plannedAttribute g m).transfer.serializer?.map Prod.fst = m.encoding?.map (·.helper) := by
  rcases hm : m.conversion with ⟨_ | s, t⟩ | r | ⟨r, e⟩ <;>
    simp [transfer_plannedAttribute hm, transferOf, Transfer.serializer?,
      AttributeMapping.encoding?, hm, Application.helper]

theorem map_fst_deserializer? (m : AttributeMapping) :
    (plannedAttribute g m).transfer.deserializer?.map Prod.fst = m.decoding?.map (·.helper) := by
  rcases hm : m.conversion with ⟨s, _ | t⟩ | r | ⟨r, e⟩ <;>
    simp [transfer_plannedAttribute hm, transferOf, Transfer.deserializer?,
      AttributeMapping.decoding?, hm, Application.helper]

theorem map_fst_writingUses : (planned reg g d).writingUses.map Prod.fst =
    (reg.applications g d .toJson).map (·.helper) := by
  have hlinks : (planned reg g d).links = g.linksOf d := rfl
  simp only [Plan.writingUses, Registry.applications, plainAttributes_planned,
    embeddedAttributes_planned, hlinks, ← List.map_append, List.filterMap_map]
  rw [List.map_append, List.map_append, List.map_filterMap, List.map_filterMap]
  congr 1
  · cases g.linksOf d <;> rfl
  · exact List.filterMap_congr fun m _ => map_fst_serializer? m

theorem map_fst_readingUses : (planned reg g d).readingUses.map Prod.fst =
    (reg.applications g d .fromJson).map (·.helper) := by
  have hattributes : (planned reg g d).attributes =
    (reg.attributesOf d.representer).map (plannedAttribute g) := rfl
  have hdescriptor : (planned reg g d).descriptor = d := rfl
  unfold Plan.readingUses Registry.applications
  rw [hdescriptor, hattributes]
  cases d.customDeserializer with
  | some t => rfl
  | none =>
    dsimp only
    rw [List.filterMap_map, List.map_filterMap, List.map_filterMap]
    exact List.filterMap_congr fun m _ => map_fst_deserializer? m

theorem map_fst_helperUses :
    (planned reg g d).helperUses.map Prod.fst = reg.helperTypes g d := by
  have hdescriptor : (planned reg g d).descriptor = d := rfl
  unfold Plan.helperUses Registry.helperTypes
  rw [List.map_append, hdescriptor]
  cases hs : d.skipSerialize <;> cases hd : d.skipDeserialize <;>
    simp [Descriptor.skips, hs, hd, map_fst_writingUses, map_fst_readingUses]

/-- A helper that is applied in a direction that is not skipped is one of the descriptor's. -/
theorem helper_mem_helperTypes {k : MethodKind} {x : Application JavaType}
    (hk : d.skips k = false) (hx : x ∈ reg.applications g d k) :
    x.helper ∈ reg.helperTypes g d := by
  cases k with
  | toJson | fromJson =>
    refine List.mem_flatMap.mpr ⟨_, ?_, List.mem_map_of_mem hx⟩
    simp [hk]
  | toJsonCollection | fromJsonCollection => cases hx

/-- The name of a helper's constant leads to that constant. -/
theorem constant?_constantName {t : JavaType} (h : t ∈ reg.helperTypes g d) :
    ∃ c, (planned reg g d).toMapper.constant? (constantName (planned reg g d).constants t) =
      some c ∧ c.type = t := by
  rw [← map_fst_helperUses] at h
  obtain ⟨use, huse, rfl⟩ := List.mem_map.mp h
  exact find?_constantName huse

theorem resolve_named {k : MethodKind} {x : Application JavaType} (hk : d.skips k = false)
    (hx : x ∈ reg.applications g d k) :
    (planned reg g d).toMapper.resolve (named (planned reg g d).constants x) = some x := by
  obtain ⟨c, hc, htype⟩ := constant?_constantName (helper_mem_helperTypes hk hx)
  unfold Mapper.resolve
  rw [Application.helper_map, hc, Option.map_some, Application.map_map,
    Application.map_congr (g := id) htype, Application.map_id]

/-- Every constant is there for an application in some method. -/
theorem exists_application {c : Constant} (hc : c ∈ (planned reg g d).constants) :
    ∃ f ∈ (planned reg g d).toMapper.methods, ∃ x ∈ f.applications,
      (planned reg g d).toMapper.constant? x.helper = some c := by
  have htypes : (planned reg g d).constants.map (·.type) = (reg.helperTypes g d).eraseDups :=
    (types_constantsFor _).trans (congrArg List.eraseDups map_fst_helperUses)
  have hhelper : c.type ∈ reg.helperTypes g d :=
    List.mem_eraseDups.mp (htypes ▸ List.mem_map_of_mem hc)
  obtain ⟨e, he, htype⟩ := constant?_constantName hhelper
  -- two constants of one type are one
  obtain rfl : e = c :=
    List.inj_on_of_nodup_map (constantsFor_types_nodup _) (List.mem_of_find?_eq_some he) hc htype
  obtain ⟨k, hk, hmem⟩ := List.mem_flatMap.mp hhelper
  obtain ⟨x, hx, hxtype⟩ := List.mem_map.mp hmem
  have hskips : d.skips k = false := by simpa using (List.mem_filter.mp hk).2
  refine ⟨(planned reg g d).method k, Plan.mem_methods_iff.mpr ⟨k, hskips, rfl⟩,
    named (planned reg g d).constants x, ?_, ?_⟩
  · rw [applications_method]
    exact List.mem_map_of_mem hx
  · rw [Application.helper_map, hxtype]
    exact he

end Derive

end Bodies

namespace Registry

open Derive

/-- The constants of a derived mapper have distinct names and distinct types. Their types are those
that the descriptor applies, in order of first use, and each of them is used. Every name that a
body applies leads to the helper that the descriptor applies there. -/
theorem constants_match_bodies {reg : Registry} {g : GeneratorSettings} {d : Descriptor}
    {m : Mapper} (h : reg.derive g d = .ok m) :
    (m.constants.map (·.name)).Nodup ∧ (m.constants.map (·.type)).Nodup ∧
      m.constants.map (·.type) = (reg.helperTypes g d).eraseDups ∧
      (∀ c ∈ m.constants, ∃ f ∈ m.methods, ∃ x ∈ f.applications,
        m.constant? x.helper = some c) ∧
      ∀ f ∈ m.methods,
        f.applications.map m.resolve = (reg.applications g d f.kind).map some := by
  obtain ⟨rfl, -, -⟩ := derive_ok h
  refine ⟨constantsFor_names_nodup _, constantsFor_types_nodup _, ?_,
    fun c hc => exists_application hc, ?_⟩
  · rw [← map_fst_helperUses]
    exact types_constantsFor _
  · intro f hf
    obtain ⟨k, hskips, rfl⟩ := Plan.mem_methods_iff.mp hf
    have hkind : ((planned reg g d).method k).kind = k := by cases k <;> rfl
    rw [applications_method, hkind, List.map_map]
    exact List.map_congr_left fun x hx => resolve_named hskips hx

end Registry

/-! ## Codecs as a sample

Codecs of one simple name in three packages, and one whose name looks numbered. -/

namespace Sample

def codecIn (package : Identifier) : JavaType := .mk [package] [] ⟨"CrestCodec", by decide⟩ []

def northCodec : JavaType := codecIn ⟨"north", by decide⟩

def southCodec : JavaType := codecIn ⟨"south", by decide⟩

def eastCodec : JavaType := codecIn ⟨"east", by decide⟩

def numberedCodec : JavaType := typeNamed ⟨"CrestCodec_2", by decide⟩

/-- A crest that one codec writes and another reads. -/
def crestThrough (serializer deserializer : JavaType) : AttributeMapping where
  model := { name := ⟨"crest", by decide⟩, type := some text }
  wire := { name := ⟨"crest", by decide⟩, type := some text }
  embedded := false
  conversion := .plain (some serializer) (some deserializer)

/-- A team whose links provider writes a crest as well. -/
def linkingTeam : Descriptor := { team with linksProvider := some northCodec }

def linkingTeams : Registry where
  registrations := [⟨linkingTeam, false⟩]
  additions := [
    (team.representer, (crestThrough numberedCodec eastCodec).embed true),
    (team.representer, crestThrough southCodec southCodec),
    (team.representer, crestThrough northCodec numberedCodec)]

def linkingMapper : Mapper := (Derive.planned linkingTeams {} linkingTeam).toMapper

theorem constants_match_bodies_linkingTeams :
    linkingTeams.derive {} linkingTeam = .ok linkingMapper ∧
      linkingMapper.constants.map (·.name) =
        ["LINKS_PROVIDER", "CREST_CODEC", "CREST_CODEC_2", "CREST_CODEC_3"] ∧
      linkingTeams.helperTypes {} linkingTeam =
        [northCodec, southCodec, northCodec, numberedCodec, eastCodec, southCodec,
          numberedCodec] ∧
      linkingMapper.constants.map (·.type) =
        [northCodec, southCodec, numberedCodec, eastCodec] ∧
      ∀ f ∈ linkingMapper.methods, f.applications.map linkingMapper.resolve =
        (linkingTeams.applications {} linkingTeam f.kind).map some := by
  have hm : linkingTeams.derive {} linkingTeam = .ok linkingMapper := rfl
  have htypes : linkingTeams.helperTypes {} linkingTeam =
      [northCodec, southCodec, northCodec, numberedCodec, eastCodec, southCodec,
        numberedCodec] := by
    decide
  obtain ⟨-, -, horder, -, hbodies⟩ := Registry.constants_match_bodies hm
  refine ⟨hm, by decide +kernel, htypes, ?_, hbodies⟩
  rw [horder, htypes]
  decide +kernel

end Sample

end JsonMapping
