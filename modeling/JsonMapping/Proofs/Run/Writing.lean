import JsonMapping.Proofs.Graph.Loading
import JsonMapping.Proofs.Run.Bodies
import JsonMapping.Proofs.Run.Calls
import JsonMapping.Proofs.Run.Collections

/-! The methods that write follow the descriptors: run on a value, the derived body makes the
entries that `Graph.write` reads off the descriptor, with the same order of keys and the same
fault. -/

namespace JsonMapping

open Derive

namespace Writing

variable {G : Graph} {w : World} {call : Caller} {c : RequestContext} {d : Descriptor} {v : Value}
variable {write : Graph.Writer}

/-! ## Attributes -/

theorem mem_attributes_of_mem_plain {m : AttributeMapping} (h : m ∈ G.plainAttributes d) :
    m ∈ G.attributes d :=
  List.mem_of_mem_filter h

theorem mem_attributes_of_mem_embedded {m : AttributeMapping} (h : m ∈ G.embeddedAttributes d) :
    m ∈ G.attributes d :=
  List.mem_of_mem_filter h

theorem plainAttributes_planned :
    (planned G.registry G.settings d).plainAttributes =
      (G.plainAttributes d).map (plannedAttribute G.settings) :=
  List.filter_map

theorem embeddedAttributes_planned :
    (planned G.registry G.settings d).embeddedAttributes =
      (G.embeddedAttributes d).map (plannedAttribute G.settings) :=
  List.filter_map

/-! ## Calls -/

/-- The calls that the body for `d` makes on the way through `v` are answered as `write` would
answer them. -/
structure Answers (G : Graph) (call : Caller) (c : RequestContext) (write : Graph.Writer)
    (d : Descriptor) (v : Value) : Prop where
  one : ∀ r ∈ G.references d, ∀ u : Value, u.height < v.height →
    call (G.settings.mapperOf r) .toJson [u] (some c) = (G.writeOne write r u).map .map
  all : ∀ r ∈ G.references d, ∀ u : Value, u.height < v.height →
    call (G.settings.mapperOf r) .toJsonCollection [u] (some c) = G.writeAll write r u
  variant : ∀ a ∈ d.variants, 0 < v.height →
    call (G.settings.mapperOf a.representer) .toJson [v] (some c) =
      (G.writeOne write a.representer v).map .map

/-! ## Steps

With its calls answered, each step of a member's plan is the step of that name of the graph. -/

theorem wireValue_planned {m : AttributeMapping} (hm : m ∈ G.attributes d)
    (hcall : Answers G call c write d v) :
    (plannedAttribute G.settings m).wireValue w call c v = G.writeValue w write v m := by
  unfold PlannedAttribute.wireValue Graph.writeValue
  refine lift_bind_congr ?_
  intro u hu
  have hheight := Value.height_lt_of_attribute hu
  simp only [plannedAttribute]
  cases hconv : m.conversion with
  | plain serializer deserializer => rfl
  | single r =>
    have hr := Graph.single_mem_references hm hconv
    exact (hcall.one r hr u hheight).trans (map_eq_bind _ _)
  | collection r element =>
    have hr := Graph.collection_mem_references hm hconv
    exact hcall.all r hr u hheight

theorem fill_planned {ms : List AttributeMapping} (hms : ∀ m ∈ ms, m ∈ G.attributes d)
    (hcall : Answers G call c write d v) (es : Entries Value) :
    fill w call c v (ms.map (plannedAttribute G.settings)) es = G.putValues w write v ms es := by
  unfold fill Graph.putValues
  rw [List.foldlM_map]
  refine foldlM_congr_mem ?_
  intro es m hm
  rw [wireValue_planned (hms m hm) hcall]
  rfl

/-- Only a model is an instance of anything. -/
theorem height_pos_of_kind {type : String} (h : v.kind = .model type) : 0 < v.height := by
  cases v <;> simp_all [Value.kind, Value.height]

theorem fields_planned {a : Variant} (ha : a ∈ d.variants) (hcall : Answers G call c write d v)
    (hv : 0 < v.height) :
    (plannedVariant G.registry G.settings a).fields call c v =
      (G.variantFields write v a).map .map := by
  rw [Graph.variantFields, map_bind]
  refine lift_bind_congr ?_
  intro u hu
  rw [Value.eq_of_cast hu]
  exact hcall.variant a ha hv

theorem put_planned {x : Dispatch} {a : Variant} (ha : a ∈ d.variants)
    (hcall : Answers G call c write d v) (es : Entries Value) :
    (plannedDispatch G.registry G.settings x).put call c v es
      (plannedVariant G.registry G.settings a) = G.putVariant write x v es a := by
  unfold PlannedDispatch.put Graph.putVariant
  rw [show (plannedVariant G.registry G.settings a).model = G.registry.modelOf a.representer
    from rfl]
  by_cases hkind : v.kind = .model (G.registry.modelOf a.representer).qualifiedName
  · rw [if_pos hkind, if_pos hkind, fields_planned ha hcall (height_pos_of_kind hkind), bind_map]
    refine bind_congr_ok ?_
    intro more _
    rw [show (plannedDispatch G.registry G.settings x).nestedAttribute = x.nestedAttribute from rfl]
    cases x.nestedAttribute <;> rfl
  · rw [if_neg hkind, if_neg hkind]

theorem putVariants_planned (hcall : Answers G call c write d v) (es : Entries Value) :
    (planned G.registry G.settings d).putVariants call c v es = G.putVariants write d v es := by
  unfold Plan.putVariants Graph.putVariants
  rw [show (planned G.registry G.settings d).dispatch =
    d.dispatch.map (plannedDispatch G.registry G.settings) from rfl]
  cases hx : d.dispatch with
  | none => rfl
  | some x =>
    change (x.variants.map (plannedVariant G.registry G.settings)).foldlM _ es = _
    rw [List.foldlM_map]
    refine foldlM_congr_mem ?_
    intro es a ha
    exact put_planned (by rwa [Descriptor.variants_eq hx]) hcall es

/-- A plan whose calls are answered makes the entries of one writing step. -/
theorem entries_planned (hcall : Answers G call c write d v) :
    (planned G.registry G.settings d).entries w call c v = G.writeWith w write c d v := by
  unfold Plan.entries Plan.ownEntries Graph.writeWith
  rw [bind_assoc]
  refine lift_bind_congr ?_
  intro es _
  rw [bind_assoc, plainAttributes_planned,
    fill_planned (fun m => mem_attributes_of_mem_plain) hcall]
  refine bind_congr_ok ?_
  intro es _
  unfold Plan.fillEmbedded Graph.putEmbedded
  rw [Graph.hasEmbedded_planned, embeddedAttributes_planned,
    fill_planned (fun m => mem_attributes_of_mem_embedded) hcall]
  refine bind_congr_ok ?_
  intro es _
  exact putVariants_planned hcall es

/-! ## The methods -/

/-- Run on a value, the body that writes makes the entries of one writing step. -/
theorem run_toJsonMethod (hs : d.skipSerialize = false) (hcall : Answers G call c write d v) :
    (toJsonMethod (G.mapper d).constants (planned G.registry G.settings d)).run
      (G.scope w call d) [v] (some c) = (G.writeWith w write c d v).map .map := by
  rw [← entries_planned hcall]
  exact run_toJsonMethod_eq_entries hs w call c v

/-- Run on a list, the body calls the mapper that it belongs to on every element. -/
theorem run_toJsonCollectionMethod {u : Value}
    (h : ∀ i : Value, i.height < u.height →
      call (G.settings.mapperOf d.representer) .toJson [i] (some c) = (write d i).map .map) :
    (toJsonCollectionMethod (planned G.registry G.settings d)).run (G.scope w call d) [u] (some c) =
      (do
        let items ← u.elements .values
        return .list (← items.mapM fun item => return .map (← write d item))) := by
  rw [Derive.run_toJsonCollectionMethod]
  refine lift_bind_congr fun items hu => ?_
  exact congrArg (· >>= _) <| mapM_congr_mem fun i hi =>
    (h i (Value.height_lt_of_elements hu hi)).trans (map_eq_bind _ _)

/-! ## Runs in a world -/

/-- Given the depth that the value needs, the method that writes agrees with the descriptor. -/
theorem run_toJson (hw : w.Serves G) {depth : Nat} (hd : d ∈ G.members)
    (hs : d.skipSerialize = false) (hdepth : G.weight d v ≤ depth) :
    (G.method d .toJson).run (G.scope w (w.call depth) d) [v] (some c) =
      (G.write w c d v).map .map := by
  induction depth using Nat.strong_induction_on generalizing d v with
  | _ depth ih =>
    rw [Graph.write_eq]
    refine run_toJsonMethod hs ⟨?_, ?_, ?_⟩
    · intro r hr u hu
      obtain ⟨n, rfl, hn⟩ := G.exists_depth_of_height_lt hu hdepth
      rw [Graph.call_reference hw hd hr, Graph.writeOne, map_bind]
      refine lift_bind_congr ?_
      intro e he
      obtain ⟨hfind, hse⟩ := Graph.callee_ok he
      exact ih n (by omega) (Graph.mem_of_find? hfind) hse (hn e)
    · intro r hr u hu
      obtain ⟨n, rfl, hn⟩ := G.exists_depth_of_height_lt hu hdepth
      rw [Graph.call_reference hw hd hr]
      refine lift_bind_congr ?_
      intro e he
      obtain ⟨hfind, hse⟩ := Graph.callee_ok he
      have he := Graph.mem_of_find? hfind
      refine run_toJsonCollectionMethod ?_
      intro i hi
      -- one more call for the element
      obtain ⟨k, rfl, hk⟩ := G.exists_depth_of_height_lt hi (hn e)
      rw [Graph.call_member hw he .toJson hse]
      exact ih k (by omega) he hse (hk e)
    · intro a ha hv
      obtain ⟨n, rfl, hn⟩ := G.exists_depth_of_handsOn hv hdepth
      rw [Graph.call_reference hw hd (Graph.variant_mem_references ha), Graph.writeOne, map_bind]
      refine lift_bind_congr ?_
      intro e he
      obtain ⟨hfind, hse⟩ := Graph.callee_ok he
      exact ih n (by omega) (Graph.mem_of_find? hfind) hse (hn e (G.handsOn_of_find? ha hfind))

/-- The mapper of a member writes a value as the descriptor tells. -/
theorem toJson_eq (hw : w.Serves G) (hd : d ∈ G.members) (hs : d.skipSerialize = false)
    (v : Value) (c : RequestContext) :
    w.toJson (G.settings.mapperName d.representer) v c = (G.write w c d v).map .map := by
  unfold World.toJson World.run World.runWithin
  rw [World.mapper_eq_ok.mpr (hw.get? hd), lift_ok, ok_bind, Graph.runMethod_eq .toJson _ _ hs]
  exact run_toJson hw hd hs (hw.weight_le_depthFor d v)

end Writing

/-- Whatever the value and the context are, the mapper that is derived for a descriptor writes what
the direct reading of the descriptor tells, up to the order of keys and the fault; and this reading
is one step after the other, which comes to an end. -/
theorem World.toJson_eq_write {G : Graph} {w : World} {d : Descriptor} {m : Mapper}
    (hw : w.Serves G) (hd : d ∈ G.members) (hm : G.registry.derive G.settings d = .ok m)
    (hs : d.skipSerialize = false) (v : Value) (c : RequestContext) :
    w.toJson m.type.qualifiedName v c = (G.write w c d v).map .map ∧
      G.write w c d v = G.writeWith w (G.write w c) c d v ∧
      G.write w c d v ≠ .error .tooDeep := by
  obtain ⟨rfl, -, -⟩ := derive_ok hm
  exact ⟨Writing.toJson_eq hw hd hs v c, Graph.write_eq w c d v, Graph.write_ends w c d v⟩

namespace Sample

theorem toJson_tree :
    treeWorld.Serves treeGraph ∧ node ∈ treeGraph.members ∧
      treeGraph.registry.derive treeGraph.settings node = .ok (treeGraph.mapper node) ∧
      node.skipSerialize = false ∧
      treeWorld.toJson "gen.com.NodeMapper" tree {} = .ok (.map treeEntries) := by
  have hderive := treeWorld_serves.derive node_mem
  refine ⟨treeWorld_serves, node_mem, hderive, rfl, ?_⟩
  exact (World.toJson_eq_write treeWorld_serves node_mem hderive rfl tree {}).1.trans rfl

end Sample

end JsonMapping
