import JsonMapping.Proofs.Nesting
import JsonMapping.Proofs.Scope.Worlds

/-! The dependencies of a mapper. Its code is made of methods, these of statements and these of
expressions, and each of them may hold others. Wherever an expression that calls a mapper stands in
it, the mapper is a dependency, unless it is the one itself. The main statement is
`Mapper.dependencies_exact`. -/

namespace JsonMapping

/-! ## Code and its parts -/

/-- A part of the code of a mapper, as far as it makes calls. -/
inductive Code where
  | mapper (m : Mapper)
  | method (m : Method)
  | stmt (s : Stmt)
  /-- The body of an arm of a choice. -/
  | arm (body : List Stmt)
  | expr (e : Expr)

namespace Code

/-- The parts that code is made of, in the order of its text. -/
def parts : Code → List Code
  | .mapper m => m.methods.map .method
  | .method m => m.body.map .stmt
  | .arm body => body.map .stmt
  | .stmt s =>
    match s with
    | .declare _ _ e | .assign _ e | .put _ _ e | .putAll _ e | .setAttribute _ _ e | .ret e =>
      [.expr e]
    | .when e body => .expr e :: body.map .stmt
    | .select e arms => .expr e :: arms.map fun (_, body) => .arm body
  | .expr e =>
    match e with
    | .isNull e | .cast _ e | .apply _ e => [.expr e]
    | .callMapper _ _ args => args.map .expr
    | .var _ | .null | .text _ | .newContainer | .newModel _ | .emptyList | .getAttribute _ _
    | .hasKey _ _ | .lookup _ _ | .subContainer _ _ | .isInstance _ _ | .links _ _ _
    | .mapEach _ _ _ _ => []

theorem sizeOf_lt_of_mem_map {α : Type} [SizeOf α] {f : α → Code} {xs : List α} {part : Code}
    (hf : ∀ x, sizeOf (f x) = 1 + sizeOf x) (h : part ∈ xs.map f) :
    sizeOf part < 1 + sizeOf xs := by
  obtain ⟨x, hx, rfl⟩ := List.mem_map.mp h
  have := List.sizeOf_lt_of_mem hx
  rw [hf]
  omega

theorem sizeOf_lt_of_mem_parts {whole part : Code} (h : part ∈ whole.parts) :
    sizeOf part < sizeOf whole := by
  cases whole with
  | mapper m =>
    have := sizeOf_lt_of_mem_map (fun _ => rfl) h
    cases m
    simp only [mapper.sizeOf_spec, Mapper.mk.sizeOf_spec] at this ⊢
    omega
  | method m =>
    have := sizeOf_lt_of_mem_map (fun _ => rfl) h
    cases m
    simp only [method.sizeOf_spec, Method.mk.sizeOf_spec] at this ⊢
    omega
  | arm body => exact sizeOf_lt_of_mem_map (fun _ => rfl) h
  | stmt s =>
    cases s with
    | declare _ _ _ | assign _ _ | put _ _ _ | putAll _ _ | setAttribute _ _ _ | ret _ =>
      obtain rfl := List.mem_singleton.mp h
      simp +arith
    | when e body =>
      rcases List.mem_cons.mp h with rfl | h
      · simp +arith
      · have := sizeOf_lt_of_mem_map (fun _ => rfl) h
        simp only [stmt.sizeOf_spec, Stmt.when.sizeOf_spec]
        omega
    | select e arms =>
      rcases List.mem_cons.mp h with rfl | h
      · simp +arith
      · obtain ⟨⟨text, body⟩, harm, rfl⟩ := List.mem_map.mp h
        have := List.sizeOf_lt_of_mem harm
        simp only [arm.sizeOf_spec, stmt.sizeOf_spec, Stmt.select.sizeOf_spec,
          Prod.mk.sizeOf_spec] at this ⊢
        omega
  | expr e =>
    cases e with
    | isNull _ | cast _ _ | apply _ _ =>
      obtain rfl := List.mem_singleton.mp h
      simp +arith
    | callMapper _ _ args =>
      have := sizeOf_lt_of_mem_map (fun _ => rfl) h
      simp only [expr.sizeOf_spec, Expr.callMapper.sizeOf_spec]
      omega
    | _ => cases h

def nesting : Nesting Code where
  parts := parts
  wellFounded := Subrelation.wf (fun h => sizeOf_lt_of_mem_parts h) (measure sizeOf).wf

/-- The mapper that an expression calls. -/
def callee? : Code → Option JavaType
  | .expr e => e.callee?.map Prod.fst
  | .mapper _ | .method _ | .stmt _ | .arm _ => none

def mentions : Code → List Mention
  | .mapper m => m.mentions
  | .method m => m.mentions
  | .stmt s => s.mentions
  | .arm body => Stmt.mentionsAll body
  | .expr e => e.mentions

end Code

/-! ## Callees among mentions -/

@[simp]
def Mention.callee? : Mention → Option JavaType
  | .callee t => some t
  | _ => none

/-- The mappers that are called among what is mentioned. -/
def calleesIn (ms : List Mention) : List JavaType := ms.filterMap (·.callee?)

@[simp] theorem calleesIn_nil : calleesIn [] = [] := rfl

@[simp] theorem calleesIn_cons (x : Mention) (xs : List Mention) :
    calleesIn (x :: xs) = x.callee?.toList ++ calleesIn xs := by
  unfold calleesIn
  cases h : x.callee? with
  | none => exact List.filterMap_cons_none h
  | some t => exact List.filterMap_cons_some h

@[simp] theorem calleesIn_append (xs ys : List Mention) :
    calleesIn (xs ++ ys) = calleesIn xs ++ calleesIn ys :=
  List.filterMap_append

theorem calleesIn_flatMap {α : Type} (f : α → List Mention) (xs : List α) :
    calleesIn (xs.flatMap f) = xs.flatMap fun x => calleesIn (f x) :=
  List.filterMap_flatMap

@[simp] theorem JavaType.calleesIn_mentions (t : JavaType) : calleesIn t.mentions = [] := by
  simp [calleesIn, JavaType.mentions]

@[simp] theorem ValueType.calleesIn_mentions (t : ValueType) : calleesIn t.mentions = [] := by
  cases t <;> simp [ValueType.mentions]

theorem Mapper.callees_eq (m : Mapper) : m.callees = calleesIn m.mentions := rfl

namespace Code

/-- The calls in code are the call that it is itself and the calls in its parts, in this order. -/
theorem calleesIn_mentions (c : Code) : calleesIn c.mentions =
    c.callee?.toList ++ (nesting.parts c).flatMap fun part => calleesIn part.mentions := by
  cases c with
  | mapper m =>
    have hconstants : calleesIn (m.constants.flatMap Constant.mentions) = [] := by
      simp [calleesIn_flatMap, Constant.mentions]
    simp [mentions, Mapper.mentions, hconstants, callee?, nesting, parts, calleesIn_flatMap,
      List.flatMap_map]
  | method m =>
    have hparams : calleesIn (m.params.flatMap fun p => p.type.mentions) = [] := by
      simp [calleesIn_flatMap]
    simp [mentions, Method.mentions, hparams, callee?, nesting, parts, calleesIn_flatMap,
      Stmt.mentionsAll_eq_flatMap, List.flatMap_map]
  | arm body =>
    simp [mentions, callee?, nesting, parts, calleesIn_flatMap, Stmt.mentionsAll_eq_flatMap,
      List.flatMap_map]
  | stmt s =>
    cases s with
    | declare _ _ _ | assign _ _ | put _ _ _ | putAll _ _ | setAttribute _ _ _ | ret _ =>
      simp [mentions, Stmt.mentions, callee?, nesting, parts]
    | when e body =>
      simp [mentions, Stmt.mentions, callee?, nesting, parts, calleesIn_flatMap,
        Stmt.mentionsAll_eq_flatMap, List.flatMap_map]
    | select e arms =>
      simp [mentions, Stmt.mentions, callee?, nesting, parts, calleesIn_flatMap,
        Stmt.armMentions_eq_flatMap, List.flatMap_map]
  | expr e =>
    cases e with
    | callMapper t k args =>
      simp [mentions, Expr.mentions, Expr.callee?, callee?, nesting, parts, calleesIn_flatMap,
        Expr.mentionsAll_eq_flatMap, List.flatMap_map]
    | _ => simp [mentions, Expr.mentions, Expr.callee?, callee?, nesting, parts]

theorem lists_callees (m : Mapper) : nesting.Lists callee? (.mapper m) m.callees :=
  Nesting.lists_of_eq calleesIn_mentions (.mapper m)

end Code

/-! ## Calls at places -/

namespace Mapper

/-- An expression that calls a mapper stands at the place. -/
def CallsAt (m : Mapper) (p : Place) (t : JavaType) : Prop :=
  ∃ e k, Code.nesting.At (.mapper m) p (.expr e) ∧ e.callee? = some (t, k)

variable {m : Mapper} {t u : JavaType}

theorem callsAt_iff {p : Place} :
    m.CallsAt p t ↔ ∃ c, Code.nesting.At (.mapper m) p c ∧ c.callee? = some t := by
  constructor
  · rintro ⟨e, k, hat, he⟩
    exact ⟨.expr e, hat, by simp [Code.callee?, he]⟩
  · rintro ⟨c, hat, hc⟩
    cases c with
    | expr e =>
      obtain ⟨⟨u, k⟩, he, rfl⟩ := Option.map_eq_some_iff.mp hc
      exact ⟨e, k, hat, he⟩
    | mapper _ | method _ | stmt _ | arm _ => cases hc

theorem mem_callees_iff_callsAt : t ∈ m.callees ↔ ∃ p, m.CallsAt p t := by
  simp only [(Code.lists_callees m).mem_iff, callsAt_iff]

theorem mem_dependencies_iff : t ∈ m.dependencies ↔ t ≠ m.type ∧ t ∈ m.callees := by
  simp [dependencies, and_comm]

/-- Of two dependencies, the former is called before any call of the latter. -/
theorem pairwise_dependencies :
    m.dependencies.Pairwise (Code.nesting.Precedes Code.callee? (.mapper m)) :=
  (Code.lists_callees m).pairwise_filter_eraseDups _

theorem exists_callsAt_of_precedes (h : Code.nesting.Precedes Code.callee? (.mapper m) t u) :
    ∃ p, m.CallsAt p t ∧ ∀ q, m.CallsAt q u → p < q := by
  obtain ⟨p, c, hat, hc, hbefore⟩ := h
  refine ⟨p, callsAt_iff.mpr ⟨c, hat, hc⟩, fun q hq => ?_⟩
  obtain ⟨d, hd, hu⟩ := callsAt_iff.mp hq
  exact hbefore q d hd hu

/-- A mapper calls what its methods call. -/
theorem mem_callees_iff_methods :
    t ∈ m.callees ↔ ∃ f ∈ m.methods, t ∈ calleesIn (Stmt.mentionsAll f.body) := by
  rw [callees_eq]
  simp [calleesIn_flatMap, Mapper.mentions, Constant.mentions, Method.mentions]

end Mapper

/-! ## Calls in derived methods -/

namespace Derive

variable {table : List Constant} {p : Plan} {x : PlannedDispatch} {t : JavaType}

theorem calleesIn_putValue (target : Var) (a : PlannedAttribute) :
    calleesIn (putValue table target a).mentions = a.transfer.mapper?.toList := by
  rcases ha : a.transfer with ⟨_ | s, d⟩ | u | u <;>
    simp [putValue, writeValue, ha, Transfer.mapper?, Stmt.mentions, Expr.mentions,
      Expr.mentionsAll]

theorem calleesIn_putValues (target : Var) (as : List PlannedAttribute) :
    calleesIn (Stmt.mentionsAll (as.map (putValue table target))) =
      as.filterMap (·.transfer.mapper?) := by
  rw [Stmt.mentionsAll_eq_flatMap, calleesIn_flatMap, List.flatMap_map,
    List.filterMap_eq_flatMap_toList]
  exact List.flatMap_congr fun a _ => calleesIn_putValue target a

theorem calleesIn_castTo (type : Option JavaType) (v : Var) (key : String) :
    calleesIn (castTo type (.lookup v key)).mentions = [] := by
  cases type <;> simp [castTo, Expr.mentions]

theorem calleesIn_setValue (a : PlannedAttribute) :
    calleesIn (setValue table a).mentions = a.transfer.mapper?.toList := by
  rcases ha : a.transfer with ⟨s, _ | d⟩ | u | u <;>
    simp [setValue, readValue, ha, Transfer.mapper?, Stmt.mentions, Stmt.mentionsAll,
      Expr.mentions, Expr.mentionsAll, calleesIn_castTo]

theorem calleesIn_setValues (as : List PlannedAttribute) :
    calleesIn (Stmt.mentionsAll (as.map (setValue table))) =
      as.filterMap (·.transfer.mapper?) := by
  rw [Stmt.mentionsAll_eq_flatMap, calleesIn_flatMap, List.flatMap_map,
    List.filterMap_eq_flatMap_toList]
  exact List.flatMap_congr fun a _ => calleesIn_setValue a

theorem calleesIn_putLinks : calleesIn (Stmt.mentionsAll (putLinks table p)) = [] := by
  cases hl : p.links <;> simp [putLinks, hl, Stmt.mentionsAll, Stmt.mentions, Expr.mentions]

theorem calleesIn_putEmbedded : calleesIn (Stmt.mentionsAll (putEmbedded table p)) =
    p.embeddedAttributes.filterMap (·.transfer.mapper?) := by
  cases he : p.hasEmbedded with
  | false =>
    have hnone : p.embeddedAttributes = [] := by
      simpa [Plan.hasEmbedded, Plan.embeddedAttributes] using he
    simp [putEmbedded, he, hnone, Stmt.mentionsAll]
  | true =>
    rw [← @calleesIn_putValues table .embeddedMap]
    simp [putEmbedded, he, Stmt.mentionsAll_eq_flatMap, Stmt.mentions, Expr.mentions]

theorem calleesIn_putVariant (v : PlannedVariant) :
    calleesIn (putVariant x v).mentions = [v.mapper] := by
  cases hn : x.nestedAttribute <;>
    simp [putVariant, hn, Stmt.mentions, Stmt.mentionsAll, Expr.mentions, Expr.mentionsAll]

theorem calleesIn_putVariants :
    calleesIn (Stmt.mentionsAll (putVariants p)) = p.variants.map (·.mapper) := by
  cases hx : p.dispatch with
  | none => simp [putVariants, Plan.variants, hx, Stmt.mentionsAll]
  | some x =>
    simp [putVariants, Plan.variants, hx, Stmt.mentionsAll_eq_flatMap, calleesIn_flatMap,
      List.flatMap_map, calleesIn_putVariant, ← List.map_eq_flatMap]

theorem calleesIn_readVariant (v : PlannedVariant) :
    calleesIn (Stmt.mentionsAll (readVariant x v).2) = [v.mapper] := by
  cases hn : x.nestedAttribute <;>
    simp [readVariant, variantSource, hn, Stmt.mentions, Stmt.mentionsAll, Expr.mentions,
      Expr.mentionsAll]

theorem calleesIn_makeModel :
    calleesIn (Stmt.mentionsAll (makeModel p)) = p.variants.map (·.mapper) := by
  cases hx : p.dispatch with
  | none => simp [makeModel, Plan.variants, hx, Stmt.mentionsAll, Stmt.mentions, Expr.mentions]
  | some x =>
    have harms : calleesIn (Stmt.armMentions (x.variants.map (readVariant x))) =
        x.variants.map (·.mapper) := by
      simp [Stmt.armMentions_eq_flatMap, calleesIn_flatMap, List.flatMap_map,
        calleesIn_readVariant, ← List.map_eq_flatMap]
    simp [makeModel, constructVariant, Plan.variants, hx, harms, Stmt.mentions, Stmt.mentionsAll,
      Expr.mentions]

theorem calleesIn_findEmbedded : calleesIn (Stmt.mentionsAll (findEmbedded p)) = [] := by
  unfold findEmbedded
  split <;> simp [Stmt.mentions, Stmt.mentionsAll, Expr.mentions]

/-- The method that writes calls the mappers of the plain fields, of the embedded ones and of the
variants. -/
theorem calleesIn_toJsonBody : calleesIn (Stmt.mentionsAll (toJsonBody table p)) =
    (p.plainAttributes ++ p.embeddedAttributes).filterMap (·.transfer.mapper?) ++
      p.variants.map (·.mapper) := by
  have hbody : calleesIn (Stmt.mentionsAll (toJsonBody table p)) =
      calleesIn (Stmt.mentionsAll (putLinks table p)) ++
        calleesIn (Stmt.mentionsAll (p.plainAttributes.map (putValue table .json))) ++
        calleesIn (Stmt.mentionsAll (putEmbedded table p)) ++
        calleesIn (Stmt.mentionsAll (putVariants p)) := by
    simp [toJsonBody, Stmt.mentionsAll_eq_flatMap, Stmt.mentions, Expr.mentions]
  rw [hbody, calleesIn_putLinks, calleesIn_putValues, calleesIn_putEmbedded,
    calleesIn_putVariants, List.nil_append, List.filterMap_append]

/-- The method that reads calls the mappers of the variants, then those of the fields, unless there
is a custom deserializer. -/
theorem calleesIn_fromJsonBody : calleesIn (Stmt.mentionsAll (fromJsonBody table p)) =
    if p.descriptor.customDeserializer = none then
      p.variants.map (·.mapper) ++ p.attributes.filterMap (·.transfer.mapper?)
    else [] := by
  cases hc : p.descriptor.customDeserializer with
  | some t =>
    simp [fromJsonBody, readModel, hc, Stmt.mentionsAll, Stmt.mentions, Expr.mentions]
  | none =>
    have hbody : calleesIn (Stmt.mentionsAll (fromJsonBody table p)) =
        calleesIn (Stmt.mentionsAll (makeModel p)) ++
          calleesIn (Stmt.mentionsAll (findEmbedded p)) ++
          calleesIn (Stmt.mentionsAll (p.attributes.map (setValue table))) := by
      simp [fromJsonBody, readModel, hc, Stmt.mentionsAll_eq_flatMap, Stmt.mentions,
        Expr.mentions]
    rw [hbody, calleesIn_makeModel, calleesIn_findEmbedded, calleesIn_setValues,
      List.append_nil, if_pos rfl]

theorem mem_calleesIn_toJsonBody :
    t ∈ calleesIn (Stmt.mentionsAll (toJsonBody table p)) ↔ t ∈ p.callees := by
  have hattributes : ∀ a, a ∈ p.plainAttributes ++ p.embeddedAttributes ↔ a ∈ p.attributes := by
    intro a
    cases ha : a.embedded <;> simp [Plan.plainAttributes, Plan.embeddedAttributes, ha]
  rw [calleesIn_toJsonBody, Plan.callees, List.mem_append, List.mem_append, List.mem_filterMap,
    List.mem_filterMap]
  simp only [hattributes]

theorem mem_calleesIn_fromJsonBody : t ∈ calleesIn (Stmt.mentionsAll (fromJsonBody table p)) ↔
    p.descriptor.customDeserializer = none ∧ t ∈ p.callees := by
  rw [calleesIn_fromJsonBody, Plan.callees]
  split
  · rename_i hc
    simp [hc, or_comm]
  · rename_i hc
    simp [hc]

/-- A derived mapper calls others in writing, and in reading if there is no custom deserializer. -/
theorem mem_callees_toMapper_iff (ht : t ≠ p.mapper) : t ∈ p.toMapper.callees ↔
    (p.descriptor.skipSerialize = false ∨
      p.descriptor.skipDeserialize = false ∧ p.descriptor.customDeserializer = none) ∧
      t ∈ p.callees := by
  rw [Mapper.mem_callees_iff_methods]
  constructor
  · rintro ⟨f, hf, hcall⟩
    obtain ⟨k, hskips, rfl⟩ := Plan.mem_methods_iff.mp hf
    cases k with
    | toJson => exact ⟨.inl hskips, mem_calleesIn_toJsonBody.mp hcall⟩
    | fromJson =>
      obtain ⟨hc, hcallee⟩ := mem_calleesIn_fromJsonBody.mp hcall
      exact ⟨.inr ⟨hskips, hc⟩, hcallee⟩
    | toJsonCollection | fromJsonCollection =>
      refine absurd ?_ ht
      simpa [Plan.method, toJsonCollectionMethod, listWritingMethod, fromJsonCollectionMethod,
        listReadingMethod, Stmt.mentionsAll, Stmt.mentions, Expr.mentions] using hcall
  · rintro ⟨hskips | ⟨hskips, hc⟩, hcallee⟩
    · exact ⟨p.method .toJson, Plan.mem_methods_iff.mpr ⟨.toJson, hskips, rfl⟩,
        mem_calleesIn_toJsonBody.mpr hcallee⟩
    · exact ⟨p.method .fromJson, Plan.mem_methods_iff.mpr ⟨.fromJson, hskips, rfl⟩,
        mem_calleesIn_fromJsonBody.mpr ⟨hc, hcallee⟩⟩

end Derive

namespace Mapper

/-- The dependencies of a mapper are the mappers other than itself that are called anywhere in its
methods, each once, in the order of their first calls. Those of a derived mapper are the mappers of
what its descriptor refers to, if it is written or read without a custom deserializer; else there
are none. -/
theorem dependencies_exact (m : Mapper) :
    m.dependencies.Nodup ∧
    (∀ t, t ∈ m.dependencies ↔ t ≠ m.type ∧ ∃ p, m.CallsAt p t) ∧
    m.dependencies.Pairwise (fun t u => ∃ p, m.CallsAt p t ∧ ∀ q, m.CallsAt q u → p < q) ∧
    ∀ (reg : Registry) (g : GeneratorSettings) (d : Descriptor), reg.derive g d = .ok m →
      ∀ t, t ∈ m.dependencies ↔ t ≠ m.type ∧
        (d.skipSerialize = false ∨ d.skipDeserialize = false ∧ d.customDeserializer = none) ∧
        ∃ r ∈ reg.references d, g.mapperType r = .ok t := by
  refine ⟨pairwise_dependencies.imp Nesting.Precedes.ne, fun t => ?_,
    pairwise_dependencies.imp exists_callsAt_of_precedes, ?_⟩
  · rw [mem_dependencies_iff, mem_callees_iff_callsAt]
  · intro reg g d hm t
    obtain ⟨rfl, -, hresolves⟩ := Derive.derive_ok hm
    rw [mem_dependencies_iff, and_congr_right_iff]
    intro ht
    rw [Derive.mem_callees_toMapper_iff ht, Derive.callees_planned, List.mem_map]
    refine and_congr_right fun _ => exists_congr fun r => and_congr_right fun hr => ?_
    rw [(hresolves r hr).2, Except.ok.injEq]

end Mapper

/-! ## A travelling team as a sample

Its lead is embedded and so written after its ground. It may be a guest, or a team once more. -/

namespace Sample

def guest : Descriptor where
  representer := ⟨typeNamed ⟨"GuestRepresenter", by decide⟩⟩
  model := typeNamed ⟨"Guest", by decide⟩

def pitch : Descriptor where
  representer := ⟨typeNamed ⟨"PitchRepresenter", by decide⟩⟩
  model := typeNamed ⟨"Pitch", by decide⟩

/-- The pitches that a team plays on. -/
def pitches : AttributeMapping where
  model := { name := ⟨"pitches", by decide⟩, type := none }
  wire := { name := ⟨"pitches", by decide⟩, type := none }
  embedded := false
  conversion := .collection pitch.representer pitch.model

def tourist : Descriptor :=
  { team with dispatch := some {
      discriminator := "kind"
      nestedAttribute := none
      variants := [⟨"guest", guest.representer⟩, ⟨"team", team.representer⟩] } }

def tours : Registry where
  registrations := [⟨tourist, false⟩, ⟨user, false⟩, ⟨guest, false⟩, ⟨pitch, false⟩]
  additions := [(team.representer, lead.embed true), (team.representer, pitches)]
  distinct := by decide

def touristMapper : Mapper := (Derive.planned tours {} tourist).toMapper

/-- A team that is made by a deserializer of its own and never written. -/
def arrived : Descriptor :=
  { tourist with skipSerialize := true, customDeserializer := some guest.model }

def arrivedMapper : Mapper := (Derive.planned tours {} arrived).toMapper

theorem dependencies_exact_tours :
    tours.derive {} tourist = .ok touristMapper ∧
      touristMapper.dependencies.map (·.text) =
        ["gen.com.PitchMapper", "gen.com.UserMapper", "gen.com.GuestMapper"] ∧
      (∀ t, t ∈ touristMapper.dependencies ↔ t ≠ touristMapper.type ∧
        ∃ r ∈ tours.references tourist, ({} : GeneratorSettings).mapperType r = .ok t) ∧
      tours.derive {} arrived = .ok arrivedMapper ∧ arrivedMapper.dependencies = [] := by
  have hm : tours.derive {} tourist = .ok touristMapper := rfl
  have hm' : tours.derive {} arrived = .ok arrivedMapper := rfl
  obtain ⟨-, -, -, hexact⟩ := Mapper.dependencies_exact touristMapper
  obtain ⟨-, -, -, hexact'⟩ := Mapper.dependencies_exact arrivedMapper
  have hnone : arrivedMapper.dependencies = [] := List.eq_nil_iff_forall_not_mem.mpr fun t ht => by
    obtain ⟨-, hread, -⟩ := (hexact' tours {} arrived hm' t).mp ht
    exact absurd hread (by decide)
  refine ⟨hm, by decide +kernel, fun t => ?_, hm', hnone⟩
  simpa [show tourist.skipSerialize = false from rfl] using hexact tours {} tourist hm t

end Sample

end JsonMapping
