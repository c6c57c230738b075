import JsonMapping.Proofs.Derive.Constants
import JsonMapping.Proofs.Derive.Emitted
import JsonMapping.Proofs.Outcome

/-! What the methods of a draft come out as. A draft looks its references up wherever it needs them,
and declares its helpers on the way. Where all references are found, no step fails, and the methods
are those that the plan stands for, as if all helpers had been declared before. -/

namespace JsonMapping.Derive

/-! ## Steps that do not fail -/

/-- From every table, the step succeeds, declares these helpers in this order, and gives what can be
read off the table that it leaves, or off any later one. -/
structure Emits {α : Type} (step : Emission α) (uses : List HelperUse)
    (result : List Constant → α) : Prop where
  run_eq : ∀ table, step.run table =
    .ok (result (uses.foldl declareHelper table), uses.foldl declareHelper table)
  settled : ∀ table more, result ((uses ++ more).foldl declareHelper table) =
    result (uses.foldl declareHelper table)

theorem constantName_declareHelper {table : List Constant} {t : JavaType} {use : HelperUse}
    (h : ∃ c ∈ table, c.type = t) :
    constantName (declareHelper table use) t = constantName table t := by
  obtain ⟨c, hc, ht⟩ := h
  have hfound : (table.find? (·.type = t)).isSome :=
    List.find?_isSome.mpr ⟨c, hc, by simpa using ht⟩
  unfold declareHelper
  split
  · rfl
  · rw [constantName, List.find?_append, Option.or_of_isSome hfound, constantName]

theorem constantName_foldl {table : List Constant} {t : JavaType} (uses : List HelperUse)
    (h : ∃ c ∈ table, c.type = t) :
    constantName (uses.foldl declareHelper table) t = constantName table t := by
  induction uses generalizing table with
  | nil => rfl
  | cons use rest ih =>
    obtain ⟨c, hc, ht⟩ := h
    rw [List.foldl_cons, ih ⟨c, mem_declareHelper_of_mem hc, ht⟩,
      constantName_declareHelper ⟨c, hc, ht⟩]

namespace Emits

variable {α β : Type} {step : Emission α} {uses : List HelperUse} {result : List Constant → α}

theorem pure (a : α) : Emits (Pure.pure a) [] fun _ => a where
  run_eq _ := rfl
  settled _ _ := rfl

/-- A look-up that succeeds. -/
theorem lift {x : Except MappingError α} {a : α} (h : x = .ok a) :
    Emits (liftM x) [] fun _ => a where
  run_eq table := by
    rw [h]
    rfl
  settled _ _ := rfl

theorem bind {next : α → Emission β} {others : List HelperUse} {then_ : α → List Constant → β}
    (h : Emits step uses result) (hnext : ∀ a, Emits (next a) others (then_ a)) :
    Emits (step >>= next) (uses ++ others) fun table => then_ (result table) table where
  run_eq table := by
    have hresult := h.settled table others
    rw [StateT.run_bind, h.run_eq, ok_bind, (hnext _).run_eq, ← List.foldl_append, hresult]
  settled table more := by
    have hresult := h.settled table
    rw [List.append_assoc, hresult, hresult, List.foldl_append, (hnext _).settled,
      ← List.foldl_append]

/-- What a step gives may be used on the spot. -/
theorem map (h : Emits step uses result) (f : α → β) :
    Emits (do return f (← step)) uses fun table => f (result table) := by
  simpa using h.bind fun a => pure (f a)

theorem helper (use : HelperUse) : Emits (helper use) [use] (constantName · use.1) where
  run_eq _ := rfl
  settled table more := constantName_foldl more (exists_type_declareHelper table use)

/-- A loop declares the helpers of one element after the other. -/
theorem mapM {γ : Type} {next : γ → Emission α} {others : γ → List HelperUse}
    {then_ : γ → List Constant → α} {cs : List γ}
    (h : ∀ c ∈ cs, Emits (next c) (others c) (then_ c)) :
    Emits (cs.mapM next) (cs.flatMap others) fun table => cs.map (then_ · table) := by
  induction cs with
  | nil => exact pure []
  | cons c rest ih =>
    have hrest := ih fun c' hc' => h c' (List.mem_cons_of_mem _ hc')
    rw [List.mapM_cons, List.flatMap_cons]
    exact (h c List.mem_cons_self).bind fun a => hrest.map (a :: ·)

/-- The step from the empty table. -/
theorem run_nil (h : Emits step uses result) :
    step.run [] = .ok (result (constantsFor uses), constantsFor uses) := h.run_eq []

end Emits

/-! ## Sound drafts -/

namespace Draft

/-- What a draft comes out as, if every reference is found. -/
def plan (b : Draft) : Plan where
  descriptor := b.descriptor
  mapper := b.mapper
  links := b.links
  attributes := b.attributes.map (plannedAttribute b.settings)
  dispatch := b.descriptor.dispatch.map (plannedDispatch b.registry b.settings)

/-- All references of the draft are found, whenever they are looked up. -/
structure Sound (b : Draft) : Prop where
  nested : ∀ m ∈ b.attributes, ∀ r ∈ m.nested?, b.nestedMapper r = .ok (b.settings.mapperOf r)
  dispatch : ∀ x, b.descriptor.dispatch = some x →
    b.resolveDispatch x = .ok (plannedDispatch b.registry b.settings x)

variable {b : Draft}

theorem hasEmbedded_plan (b : Draft) : b.plan.hasEmbedded = b.hasEmbedded := by
  simp [Plan.hasEmbedded, plan, hasEmbedded, plannedAttribute, Function.comp_def]

theorem plainAttributes_plan (b : Draft) : b.plan.plainAttributes =
    (b.attributes.filter (!·.embedded)).map (plannedAttribute b.settings) := by
  simp [Plan.plainAttributes, plan, List.filter_map, plannedAttribute, Function.comp_def]

theorem embeddedAttributes_plan (b : Draft) : b.plan.embeddedAttributes =
    (b.attributes.filter (·.embedded)).map (plannedAttribute b.settings) := by
  simp [Plan.embeddedAttributes, plan, List.filter_map, plannedAttribute, Function.comp_def]

/-! ## Emitters that write -/

theorem writeValue_emits {m : AttributeMapping}
    (h : ∀ r ∈ m.nested?, b.nestedMapper r = .ok (b.settings.mapperOf r)) :
    Emits (b.writeValue m) (plannedAttribute b.settings m).transfer.serializer?.toList
      (Derive.writeValue · (plannedAttribute b.settings m)) := by
  obtain ⟨model, wire, embedded, conversion⟩ := m
  unfold writeValue
  cases conversion with
  | plain serializer deserializer =>
    cases serializer with
    | none => exact Emits.pure _
    | some t => exact (Emits.helper (t, .serializer)).map _
  | single id => exact (Emits.lift (h id rfl)).map _
  | collection id element => exact (Emits.lift (h id rfl)).map _

theorem putValue_emits {m : AttributeMapping}
    (h : ∀ r ∈ m.nested?, b.nestedMapper r = .ok (b.settings.mapperOf r)) (target : Var) :
    Emits (b.putValue target m) (plannedAttribute b.settings m).transfer.serializer?.toList
      (Derive.putValue · target (plannedAttribute b.settings m)) :=
  (writeValue_emits h).map _

theorem putValues_emits (h : b.Sound) (target : Var) (keep : AttributeMapping → Bool) :
    Emits ((b.attributes.filter keep).mapM (b.putValue target))
      (((b.attributes.filter keep).map (plannedAttribute b.settings)).filterMap
        (·.transfer.serializer?))
      fun table => ((b.attributes.filter keep).map (plannedAttribute b.settings)).map
        (Derive.putValue table target) := by
  have hfields := Emits.mapM fun m (hm : m ∈ b.attributes.filter keep) =>
    putValue_emits (h.nested m (List.mem_filter.mp hm).1) target
  simpa [List.filterMap_eq_flatMap_toList, List.flatMap_map, Function.comp_def] using hfields

theorem putLinks_emits (b : Draft) :
    Emits b.putLinks (b.plan.links.map (·, ConstantRole.linksProvider)).toList
      (Derive.putLinks · b.plan) := by
  unfold putLinks Derive.putLinks
  simp only [plan]
  cases b.links with
  | none => exact Emits.pure _
  | some t => exact (Emits.helper (t, .linksProvider)).map _

theorem putEmbedded_emits (h : b.Sound) :
    Emits b.putEmbedded (b.plan.embeddedAttributes.filterMap (·.transfer.serializer?))
      (Derive.putEmbedded · b.plan) := by
  unfold putEmbedded Derive.putEmbedded
  rw [hasEmbedded_plan, embeddedAttributes_plan]
  split
  · exact (putValues_emits h .embeddedMap _).map _
  · rename_i hnone
    have hempty : b.attributes.filter (·.embedded) = [] := by
      simpa [hasEmbedded, List.filter_eq_nil_iff] using hnone
    rw [hempty]
    exact Emits.pure _

theorem putVariants_emits (h : b.Sound) :
    Emits b.putVariants [] fun _ => Derive.putVariants b.plan := by
  unfold putVariants Derive.putVariants
  simp only [plan]
  cases hx : b.descriptor.dispatch with
  | none => exact Emits.pure _
  | some x => exact (Emits.lift (h.dispatch x hx)).map fun d => d.variants.map (putVariant d)

theorem toJson_emits (h : b.Sound) :
    Emits b.toJson b.plan.writingUses (toJsonMethod · b.plan) := by
  have hplain := putValues_emits h .json (!·.embedded)
  rw [← plainAttributes_plan] at hplain
  unfold Plan.writingUses
  rw [List.filterMap_append]
  have hall := (putLinks_emits b).bind fun links => hplain.bind fun fields =>
    (putEmbedded_emits h).bind fun embedded => (putVariants_emits h).map fun variants =>
      writingMethod b.descriptor.model (.declare .json .container .newContainer :: links ++
        fields ++ embedded ++ variants ++ [.ret (.var .json)])
  rwa [List.append_nil] at hall

/-! ## Emitters that read -/

theorem readValue_emits {m : AttributeMapping}
    (h : ∀ r ∈ m.nested?, b.nestedMapper r = .ok (b.settings.mapperOf r)) (raw : Expr) :
    Emits (b.readValue m raw) (plannedAttribute b.settings m).transfer.deserializer?.toList
      (Derive.readValue · (plannedAttribute b.settings m) raw) := by
  obtain ⟨model, wire, embedded, conversion⟩ := m
  unfold readValue
  cases conversion with
  | plain serializer deserializer =>
    cases deserializer with
    | none => exact Emits.pure _
    | some t => exact (Emits.helper (t, .deserializer)).map _
  | single id => exact (Emits.lift (h id rfl)).map _
  | collection id element => exact (Emits.lift (h id rfl)).map _

theorem setValue_emits {m : AttributeMapping}
    (h : ∀ r ∈ m.nested?, b.nestedMapper r = .ok (b.settings.mapperOf r)) :
    Emits (b.setValue m) (plannedAttribute b.settings m).transfer.deserializer?.toList
      (Derive.setValue · (plannedAttribute b.settings m)) :=
  (readValue_emits h _).map _

theorem setValues_emits (h : b.Sound) :
    Emits (b.attributes.mapM b.setValue) (b.plan.attributes.filterMap (·.transfer.deserializer?))
      fun table => b.plan.attributes.map (Derive.setValue table) := by
  have hfields := Emits.mapM fun m hm => setValue_emits (h.nested m hm)
  simpa [plan, List.filterMap_eq_flatMap_toList, List.flatMap_map, Function.comp_def] using hfields

theorem makeModel_emits (h : b.Sound) :
    Emits b.makeModel [] fun _ => Derive.makeModel b.plan := by
  unfold makeModel Derive.makeModel
  simp only [plan]
  cases hx : b.descriptor.dispatch with
  | none => exact Emits.pure _
  | some x => exact (Emits.lift (h.dispatch x hx)).map _

theorem findEmbedded_plan (b : Draft) : Derive.findEmbedded b.plan = b.findEmbedded := by
  rw [Derive.findEmbedded, hasEmbedded_plan, findEmbedded]

theorem readModel_emits (h : b.Sound) :
    Emits b.readModel b.plan.readingUses (Derive.readModel · b.plan) := by
  unfold readModel Derive.readModel Plan.readingUses
  rw [findEmbedded_plan, show b.plan.descriptor = b.descriptor from rfl]
  cases b.descriptor.customDeserializer with
  | some t => exact (Emits.helper (t, .customDeserializer)).map _
  | none =>
    exact (makeModel_emits h).bind fun make => (setValues_emits h).map fun fields =>
      make ++ b.findEmbedded ++ fields ++ [.ret (.var .model)]

theorem fromJson_emits (h : b.Sound) :
    Emits b.fromJson b.plan.readingUses (fromJsonMethod · b.plan) :=
  (readModel_emits h).map _

/-! ## All methods -/

theorem writingMethods_emits (h : b.Sound) :
    Emits b.writingMethods (if b.descriptor.skipSerialize then [] else b.plan.writingUses)
      fun table => if b.descriptor.skipSerialize then [] else
        [toJsonMethod table b.plan, toJsonCollectionMethod b.plan] := by
  unfold writingMethods
  split
  · exact Emits.pure _
  · exact (toJson_emits h).map _

theorem readingMethods_emits (h : b.Sound) :
    Emits b.readingMethods (if b.descriptor.skipDeserialize then [] else b.plan.readingUses)
      fun table => if b.descriptor.skipDeserialize then [] else
        [fromJsonMethod table b.plan, fromJsonCollectionMethod b.plan] := by
  unfold readingMethods
  split
  · exact Emits.pure _
  · exact (fromJson_emits h).map _

theorem methods_emits (h : b.Sound) : Emits b.methods b.plan.helperUses fun table =>
    (if b.descriptor.skipSerialize then [] else
      [toJsonMethod table b.plan, toJsonCollectionMethod b.plan]) ++
    (if b.descriptor.skipDeserialize then [] else
      [fromJsonMethod table b.plan, fromJsonCollectionMethod b.plan]) :=
  (writingMethods_emits h).bind fun writing => (readingMethods_emits h).map (writing ++ ·)

/-- The methods of a sound draft, and the table that writing them leaves, are those of the plan. -/
theorem Sound.methods_run (h : b.Sound) :
    b.methods.run [] = .ok (Derive.methods b.plan, b.plan.constants) :=
  (methods_emits h).run_nil

end Draft

end JsonMapping.Derive
