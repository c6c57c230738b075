import JsonMapping.Proofs.Graph.Loaded
import JsonMapping.Proofs.Run.Deeper
import JsonMapping.Proofs.Run.Writing

/-! The methods on lists as lifts. They reach the method on single values by a call of their own
mapper's name, which takes one more level of depth, a fresh frame and the context once more. The
main statement, `World.list_methods_lift`, is that this makes no difference: a list gives the list
of what its elements give, or stops as the first of them that stops. -/

namespace JsonMapping

/-- The run on a list gives the list of what the runs on its elements give, or it stops as the first
of these that stops. -/
structure Lifts (one : Value → Outcome Value) (vs : List Value) (all : Outcome Value) : Prop where
  ok_iff : ∀ out, all = .ok out ↔
    ∃ outs, out = .list outs ∧ List.Forall₂ (fun v out => one v = .ok out) vs outs
  error_iff : ∀ halt, all = .error halt ↔ ∃ before v after, vs = before ++ v :: after ∧
    (∀ u ∈ before, ∃ out, one u = .ok out) ∧ one v = .error halt

namespace Lifts

variable {one one' : Value → Outcome Value} {vs : List Value} {all : Outcome Value}

theorem of_mapM (h : all = (vs.mapM one).map .list) : Lifts one vs all where
  ok_iff := by
    intro out
    rw [h, map_eq_bind, bind_eq_ok]
    constructor
    · rintro ⟨outs, houts, hout⟩
      exact ⟨outs, (Except.ok.inj hout).symm, mapM_eq_ok_iff.mp houts⟩
    · rintro ⟨outs, rfl, houts⟩
      exact ⟨outs, mapM_eq_ok_iff.mpr houts, rfl⟩
  error_iff := by
    intro halt
    rw [h, ← mapM_eq_error_iff]
    cases vs.mapM one <;> simp [Except.map]

end Lifts

theorem Value.elements_eq_mismatch {v : Value} (hnull : v ≠ .null) (hlist : ∀ vs, v ≠ .list vs)
    (holder : Var) : v.elements holder = .error (.typeMismatch .list v.kind) := by
  cases v with
  | null => exact absurd rfl hnull
  | list vs => exact absurd rfl (hlist vs)
  | _ => rfl

/-! ## Calls of a mapper's own methods -/

namespace World

open Derive

variable {w : World} {m : Mapper} {p : Plan}

/-- A call by the name of a mapper is a run of it, one level further down. -/
theorem Holds.call_succ (hw : w.Holds m) (depth : Nat) (k : MethodKind) (v : Value)
    (context : Option RequestContext) :
    w.call (depth + 1) m.type k [v] context =
      w.runWithin depth m.type.qualifiedName k v context := by
  rw [call, callee_eq_ok.mpr hw, runWithin, mapper_eq_ok.mpr hw]

/-- A derived mapper that is found runs the method of its plan. -/
theorem Holds.runWithin_eq (hw : w.Holds p.toMapper) {k : MethodKind}
    (hk : p.descriptor.skips k = false) (depth : Nat) (v : Value)
    (context : Option RequestContext) :
    w.runWithin depth p.mapper.qualifiedName k v context =
      (p.method k).run (p.scope w (w.call depth)) [v] context := by
  have hmapper : w.mapper p.mapper.qualifiedName = .ok p.toMapper := mapper_eq_ok.mpr hw
  rw [runWithin, hmapper, lift_ok, ok_bind, Plan.runMethod_toMapper, hk]
  rfl

/-- The method on lists writes every element with the method on single values. -/
theorem Holds.runWithin_toJsonList (hw : w.Holds p.toMapper)
    (hs : p.descriptor.skipSerialize = false) (depth : Nat) (vs : List Value)
    (c : RequestContext) :
    w.runWithin (depth + 1) p.mapper.qualifiedName .toJsonCollection (.list vs) (some c) =
      (vs.mapM fun v => w.runWithin depth p.mapper.qualifiedName .toJson v (some c)).map
        .list := by
  have hcall : ∀ v, w.call (depth + 1) p.mapper .toJson [v] (some c) =
      w.runWithin depth p.mapper.qualifiedName .toJson v (some c) :=
    fun v => hw.call_succ depth .toJson v (some c)
  rw [hw.runWithin_eq (k := .toJsonCollection) hs]
  refine (run_toJsonCollectionMethod _ p _ c).trans ?_
  simp only [Value.elements, lift_ok, ok_bind, Plan.scope, hcall, map_eq_bind, pure_eq_ok]

theorem Holds.runWithin_fromJsonList (hw : w.Holds p.toMapper)
    (hs : p.descriptor.skipDeserialize = false) (depth : Nat) (vs : List Value) :
    w.runWithin (depth + 1) p.mapper.qualifiedName .fromJsonCollection (.list vs) none =
      (vs.mapM fun v => w.runWithin depth p.mapper.qualifiedName .fromJson v none).map
        .list := by
  have hcall : ∀ v, w.call (depth + 1) p.mapper .fromJson [v] none =
      w.runWithin depth p.mapper.qualifiedName .fromJson v none :=
    fun v => hw.call_succ depth .fromJson v none
  rw [hw.runWithin_eq (k := .fromJsonCollection) hs]
  refine (run_fromJsonCollectionMethod _ p _).trans ?_
  simp only [Value.isNull, Value.elements, lift_ok, ok_bind, Plan.scope, hcall, map_eq_bind,
    pure_eq_ok, Bool.false_eq_true, if_false]

/-! ## The lift -/

/-- The method `all` of a mapper is the method `one` on every element of a list: at each depth, and
without a given depth where the runs on the elements come to an end. Null apart, it stops on
anything that is no list. -/
structure LiftsLists (w : World) (name : String) (one all : MethodKind)
    (context : Option RequestContext) : Prop where
  within : ∀ depth vs, Lifts (w.runWithin depth name one · context) vs
    (w.runWithin (depth + 1) name all (.list vs) context)
  run : ∀ vs, (∀ v ∈ vs, w.run name one v context ≠ .error .tooDeep) →
    Lifts (w.run name one · context) vs (w.run name all (.list vs) context)
  mismatch : ∀ v, v ≠ .null → (∀ vs, v ≠ .list vs) →
    w.run name all v context = .error (.fault (.typeMismatch .list v.kind))

/-- A list has depth for its elements and one level more. -/
theorem exists_depthFor_list (w : World) (vs : List Value) :
    ∃ depth, w.depthFor (.list vs) = depth + 1 ∧ ∀ v ∈ vs, w.depthFor v ≤ depth := by
  refine ⟨w.depthFor (.list vs) - 1, by unfold depthFor spareDepth; omega, ?_⟩
  intro v hv
  have hheight := Value.height_lt_of_mem_list hv
  have hmul : (v.height + 3) * (w.mappers.length + 2) ≤
      ((Value.list vs).height + 2) * (w.mappers.length + 2) :=
    Nat.mul_le_mul_right _ (by omega)
  have hstep : (v.height + 3) * (w.mappers.length + 2) =
      (v.height + 2) * (w.mappers.length + 2) + (w.mappers.length + 2) := Nat.succ_mul _ _
  unfold depthFor
  omega

/-- Runs on lists that are lifts within every depth are lifts where the runs on elements end. -/
theorem lifts_run {name : String} {one all : MethodKind} {context : Option RequestContext}
    (h : ∀ depth vs, w.runWithin (depth + 1) name all (.list vs) context =
      (vs.mapM fun v => w.runWithin depth name one v context).map .list)
    {vs : List Value} (hends : ∀ v ∈ vs, w.run name one v context ≠ .error .tooDeep) :
    Lifts (w.run name one · context) vs (w.run name all (.list vs) context) := by
  obtain ⟨depth, hdepth, hle⟩ := w.exists_depthFor_list vs
  refine .of_mapM ?_
  rw [run, hdepth, h]
  refine congrArg (Except.map Value.list) (mapM_congr_mem fun v hv => ?_)
  exact runWithin_persists (hle v hv) name one v context (hends v hv)

end World

open Derive

/-- A derived mapper under a name of its own writes and reads lists element by element, in the
directions that it has. Writing null as a list stops, reading null as a list gives none. -/
theorem World.list_methods_lift {reg : Registry} {g : GeneratorSettings} {d : Descriptor}
    {m : Mapper} {w : World} (hm : reg.derive g d = .ok m) (hw : w.Holds m) :
    (d.skipSerialize = false → ∀ c : RequestContext,
      w.LiftsLists m.type.qualifiedName .toJson .toJsonCollection (some c) ∧
        w.toJsonList m.type.qualifiedName .null c =
          .error (.fault (.nullDereference (.var .values)))) ∧
    (d.skipDeserialize = false →
      w.LiftsLists m.type.qualifiedName .fromJson .fromJsonCollection none ∧
        w.fromJsonList m.type.qualifiedName .null = .ok (.list [])) := by
  obtain ⟨rfl, -, -⟩ := derive_ok hm
  constructor
  · intro hs c
    have hlists := hw.runWithin_toJsonList hs (c := c)
    have hrun : ∀ v, w.toJsonList (planned reg g d).mapper.qualifiedName v c = _ := fun v =>
      (hw.runWithin_eq (k := .toJsonCollection) hs _ v (some c)).trans
        (run_toJsonCollectionMethod _ _ v c)
    refine ⟨⟨fun depth vs => .of_mapM (hlists depth vs), fun vs => lifts_run hlists, ?_⟩, ?_⟩
    · intro v hnull hlist
      refine (hrun v).trans ?_
      rw [Value.elements_eq_mismatch hnull hlist]
      rfl
    · exact (hrun .null).trans rfl
  · intro hs
    have hlists := hw.runWithin_fromJsonList hs
    have hrun : ∀ v, w.fromJsonList (planned reg g d).mapper.qualifiedName v = _ := fun v =>
      (hw.runWithin_eq (k := .fromJsonCollection) hs _ v none).trans
        (run_fromJsonCollectionMethod _ _ v)
    refine ⟨⟨fun depth vs => .of_mapM (hlists depth vs), fun vs => lifts_run hlists, ?_⟩, ?_⟩
    · intro v hnull hlist
      refine (hrun v).trans ?_
      rw [Value.elements_eq_mismatch hnull hlist, if_neg (mt Value.isNull_iff.mp hnull)]
      rfl
    · exact (hrun .null).trans rfl

namespace Sample

/-- Trees are written one by one, up to the first value that is no tree. -/
theorem list_methods_lift_trees :
    trees.derive {} node = .ok (treeGraph.mapper node) ∧
      treeWorld.Holds (treeGraph.mapper node) ∧
      treeWorld.toJsonList "gen.com.NodeMapper" (.list [tree, tree]) {} =
        .ok (.list [.map treeEntries, .map treeEntries]) ∧
      treeWorld.toJsonList "gen.com.NodeMapper" (.list [tree, .bool true, .null]) {} =
        .error (.fault (.typeMismatch .model .boolean)) ∧
      treeWorld.toJsonList "gen.com.NodeMapper" .null {} =
        .error (.fault (.nullDereference (.var .values))) ∧
      treeWorld.fromJsonList "gen.com.NodeMapper" .null = .ok (.list []) := by
  have hm : trees.derive {} node = .ok (treeGraph.mapper node) := rfl
  have hholds : treeWorld.Holds (treeGraph.mapper node) := Entries.get?_insert_self _ _ _
  obtain ⟨hwrites, hreads⟩ := World.list_methods_lift hm hholds
  obtain ⟨hlift, hnull⟩ := hwrites rfl {}
  have htree : treeWorld.toJson "gen.com.NodeMapper" tree {} = .ok (.map treeEntries) :=
    (Writing.toJson_eq treeWorld_serves node_mem rfl tree {}).trans rfl
  have hbool : treeWorld.toJson "gen.com.NodeMapper" (.bool true) {} =
      .error (.fault (.typeMismatch .model .boolean)) :=
    (Writing.toJson_eq treeWorld_serves node_mem rfl (.bool true) {}).trans rfl
  have hnone : treeWorld.toJson "gen.com.NodeMapper" .null {} =
      .error (.fault (.nullDereference (.getter ⟨"label", by decide⟩))) :=
    (Writing.toJson_eq treeWorld_serves node_mem rfl .null {}).trans rfl
  have hends : ∀ v ∈ [tree, .bool true, .null],
      treeWorld.toJson "gen.com.NodeMapper" v {} ≠ .error .tooDeep := by
    simp [htree, hbool, hnone]
  have htrees : ∀ v ∈ [tree, tree],
      treeWorld.toJson "gen.com.NodeMapper" v {} ≠ .error .tooDeep := by
    simp [htree]
  refine ⟨hm, hholds, ?_, ?_, hnull, (hreads rfl).2⟩
  · exact ((hlift.run _ htrees).ok_iff _).mpr ⟨_, rfl, .cons htree (.cons htree .nil)⟩
  · refine ((hlift.run _ hends).error_iff _).mpr ⟨[tree], .bool true, [.null], rfl, ?_, hbool⟩
    exact List.forall_mem_singleton.mpr ⟨_, htree⟩

/-- Nodes that are read and not written. -/
def readOnlyNode : Descriptor := { node with skipSerialize := true }

def readOnlyWorld : World := World.loadAll {} [(planned trees {} readOnlyNode).toMapper]

/-- Where writing is skipped, the list without elements is not written either, though there is no
element that is not. -/
theorem empty_list_skipped :
    trees.derive {} readOnlyNode = .ok (planned trees {} readOnlyNode).toMapper ∧
      readOnlyWorld.Holds (planned trees {} readOnlyNode).toMapper ∧
      ¬ ((∃ out, readOnlyWorld.toJsonList "gen.com.NodeMapper" (.list []) {} = .ok out) ↔
        ∀ v ∈ ([] : List Value), ∃ out,
          readOnlyWorld.toJson "gen.com.NodeMapper" v {} = .ok out) := by
  have hholds : readOnlyWorld.Holds (planned trees {} readOnlyNode).toMapper :=
    Entries.get?_insert_self _ _ _
  have hrun : readOnlyWorld.toJsonList "gen.com.NodeMapper" (.list []) {} =
      .error (.fault (.missingMethod (planned trees {} readOnlyNode).mapper
        .toJsonCollection)) := rfl
  refine ⟨rfl, hholds, fun h => ?_⟩
  obtain ⟨out, hout⟩ := h.mpr (List.forall_mem_nil _)
  cases hrun.symm.trans hout

end Sample

end JsonMapping
