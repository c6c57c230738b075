import JsonMapping.Proofs.Derive.Constants
import JsonMapping.Proofs.Derive.Methods
import JsonMapping.Proofs.Graph.Reading

/-! Calls between the mappers of a graph. In a world that serves the graph, a call to the mapper of
a representer runs the method that was derived for the member of that name, or it ends with the
fault that the descriptors predict. -/

namespace JsonMapping

open Derive

namespace Graph

variable {G : Graph} {w : World} {call : Caller} {d e : Descriptor} {kind : MethodKind}

/-- What stays the same while a method of a member runs. -/
def scope (G : Graph) (w : World) (call : Caller) (d : Descriptor) : Scope where
  world := w
  mapper := G.mapper d
  call := call

/-- The name of a constant in the bodies of a member's mapper. -/
def constantFor (G : Graph) (d : Descriptor) (t : JavaType) : String :=
  constantName (G.mapper d).constants t

variable (w call) in
theorem constantType_constantFor {use : HelperUse}
    (h : use ∈ (planned G.registry G.settings d).helperUses) :
    (G.scope w call d).constantType (G.constantFor d use.1) = .ok use.1 := by
  obtain ⟨k, hk, ht⟩ := find?_constantName h
  have hfind : (G.mapper d).constant? (G.constantFor d use.1) = some k := hk
  simp only [Scope.constantType, scope, hfind, ht]

/-! ## What a member refers to -/

theorem hasEmbedded_planned :
    (planned G.registry G.settings d).hasEmbedded = G.hasEmbedded d := by
  simp only [Plan.hasEmbedded, planned, List.any_map]
  rfl

theorem nested_mem_references {m : AttributeMapping} {r : RepresenterId}
    (hm : m ∈ G.attributes d) (hr : m.nested? = some r) : r ∈ G.references d :=
  List.mem_append_left _ (List.mem_filterMap.mpr ⟨m, hm, hr⟩)

theorem single_mem_references {m : AttributeMapping} {r : RepresenterId}
    (hm : m ∈ G.attributes d) (hc : m.conversion = .single r) : r ∈ G.references d :=
  nested_mem_references hm (by simp [AttributeMapping.nested?, hc])

theorem collection_mem_references {m : AttributeMapping} {r : RepresenterId} {element : JavaType}
    (hm : m ∈ G.attributes d) (hc : m.conversion = .collection r element) : r ∈ G.references d :=
  nested_mem_references hm (by simp [AttributeMapping.nested?, hc])

theorem variant_mem_references {a : Variant} (ha : a ∈ d.variants) :
    a.representer ∈ G.references d :=
  List.mem_append_right _ (List.mem_map_of_mem ha)

/-! ## Methods -/

/-- The method of each kind that is derived for a descriptor that does not skip it. -/
def method (G : Graph) (d : Descriptor) : MethodKind → Method
  | .toJson => toJsonMethod (G.mapper d).constants (planned G.registry G.settings d)
  | .toJsonCollection => toJsonCollectionMethod (planned G.registry G.settings d)
  | .fromJson => fromJsonMethod (G.mapper d).constants (planned G.registry G.settings d)
  | .fromJsonCollection => fromJsonCollectionMethod (planned G.registry G.settings d)

theorem method?_mapper (G : Graph) (d : Descriptor) (kind : MethodKind) :
    (G.mapper d).method? kind = if d.skips kind then none else some (G.method d kind) := by
  have hmethod : G.method d kind = (planned G.registry G.settings d).method kind := by
    cases kind <;> rfl
  rw [hmethod]
  exact Plan.method?_toMapper (planned G.registry G.settings d) kind

theorem runMethod_eq (kind : MethodKind) (args : List Value) (context : Option RequestContext)
    (h : d.skips kind = false) :
    w.runMethod call (G.mapper d) kind args context =
      (G.method d kind).run (G.scope w call d) args context := by
  unfold World.runMethod
  rw [method?_mapper, h]
  rfl

/-! ## Calls -/

variable {depth : Nat} {args : List Value} {context : Option RequestContext}

/-- A call to the mapper of a member runs its method. -/
theorem call_member (hw : w.Serves G) (hd : d ∈ G.members) (kind : MethodKind)
    (hs : d.skips kind = false) :
    w.call (depth + 1) (G.settings.mapperOf d.representer) kind args context =
      (G.method d kind).run (G.scope w (w.call depth) d) args context := by
  have hcallee : w.callee (G.settings.mapperOf d.representer) = .ok (G.mapper d) := by
    unfold World.callee
    rw [show (G.settings.mapperOf d.representer).qualifiedName = _ from rfl,
      ← GeneratorSettings.mapperName, hw.get? hd]
  unfold World.call
  rw [hcallee, lift_ok, ok_bind, runMethod_eq kind args context hs]

/-- A call to the mapper of what a member refers to. -/
theorem call_reference (hw : w.Serves G) (hd : d ∈ G.members) {r : RepresenterId}
    (hr : r ∈ G.references d) :
    w.call (depth + 1) (G.settings.mapperOf r) kind args context =
      ((liftM (G.callee kind r) : Outcome Descriptor) >>= fun e =>
        (G.method e kind).run (G.scope w (w.call depth) e) args context) := by
  unfold Graph.callee World.call World.callee
  rw [← GeneratorSettings.mapperName]
  cases hfind : G.find? r with
  | none =>
    rw [hw.outside d hd r hr hfind]
    rfl
  | some e =>
    rw [← mapperName_of_find? hfind, hw.get? (mem_of_find? hfind)]
    cases hs : e.skips kind with
    | true =>
      simp only [lift_ok, ok_bind, World.runMethod, method?_mapper, hs]
      rfl
    | false => simp [runMethod_eq kind args context hs, hs]

end Graph

end JsonMapping
