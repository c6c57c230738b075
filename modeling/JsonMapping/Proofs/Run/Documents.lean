import JsonMapping.Proofs.Graph.Loaded
import JsonMapping.Proofs.Run.Writing
import JsonMapping.Value.Document

/-! What mappers write is a document. A model that is handed to a mapper is written field by field
and does not get into the container itself, at whatever depth: a model can only come from a field
that is written as it is, from a serializer or from a links provider. The main statement is
`World.written_is_document`. -/

namespace JsonMapping

/-! ## Documents -/

namespace Value

mutual
/-- There is no model in the value, at any depth. -/
def isDocument : Value → Bool
  | .null | .bool _ | .number _ | .string _ => true
  | .map entries => entriesAreDocuments entries
  | .list items => itemsAreDocuments items
  | .model _ _ => false
def itemsAreDocuments : List Value → Bool
  | [] => true
  | v :: rest => isDocument v && itemsAreDocuments rest
def entriesAreDocuments : List (String × Value) → Bool
  | [] => true
  | (_, v) :: rest => isDocument v && entriesAreDocuments rest
end

mutual
/-- Just the documents can be written as JSON. -/
theorem isDocument_iff (v : Value) : v.isDocument = true ↔ ∃ j, v.toJson = .ok j := by
  cases v with
  | null | bool _ | number _ | string _ => simp [isDocument, toJson]
  | map entries =>
    rw [isDocument, entriesAreDocuments_iff entries, toJson]
    cases toJsonEntries entries <;> simp [Except.map]
  | list items =>
    rw [isDocument, itemsAreDocuments_iff items, toJson]
    cases toJsonItems items <;> simp [Except.map]
  | model type fields => simp [isDocument, toJson]
theorem itemsAreDocuments_iff (items : List Value) :
    itemsAreDocuments items = true ↔ ∃ js, toJsonItems items = .ok js := by
  cases items with
  | nil => simp [itemsAreDocuments, toJsonItems]
  | cons v rest =>
    rw [itemsAreDocuments, Bool.and_eq_true, isDocument_iff v, itemsAreDocuments_iff rest,
      toJsonItems]
    cases v.toJson <;> cases toJsonItems rest <;> simp
theorem entriesAreDocuments_iff (entries : List (String × Value)) :
    entriesAreDocuments entries = true ↔ ∃ fields, toJsonEntries entries = .ok fields := by
  match entries with
  | [] => simp [entriesAreDocuments, toJsonEntries]
  | (key, v) :: rest =>
    rw [entriesAreDocuments, Bool.and_eq_true, isDocument_iff v, entriesAreDocuments_iff rest,
      toJsonEntries]
    cases v.toJson <;> cases toJsonEntries rest <;> simp
end

@[simp]
theorem isDocument_list {items : List Value} :
    (Value.list items).isDocument = true ↔ ∀ v ∈ items, v.isDocument = true := by
  rw [isDocument]
  induction items with
  | nil => simp [itemsAreDocuments]
  | cons v rest ih => simp [itemsAreDocuments, ih]

@[simp]
theorem isDocument_map {es : Entries Value} :
    (Value.map es).isDocument = true ↔ ∀ e ∈ es, e.2.isDocument = true := by
  rw [isDocument]
  induction es with
  | nil => simp [entriesAreDocuments]
  | cons e rest ih => simp [entriesAreDocuments, ih]

theorem eq_map_of_allEntries {v : Value} {es : Entries Value} (h : v.allEntries = .ok es) :
    v = .map es := by
  cases v <;> simp only [allEntries, reduceCtorEq] at h
  cases h
  rfl

end Value

/-- All entries hold documents. -/
def Entries.AreDocuments (es : Entries Value) : Prop := ∀ e ∈ es, e.2.isDocument = true

namespace Entries.AreDocuments

variable {es more : Entries Value}

theorem nil : Entries.AreDocuments [] := List.forall_mem_nil _

theorem insert (h : es.AreDocuments) {v : Value} (hv : v.isDocument = true) (key : String) :
    (Entries.insert es key v).AreDocuments := by
  induction es with
  | nil => exact List.forall_mem_singleton.mpr hv
  | cons e rest ih =>
    obtain ⟨hfirst, hrest⟩ := List.forall_mem_cons.mp h
    unfold Entries.insert
    split
    · exact List.forall_mem_cons.mpr ⟨hv, hrest⟩
    · exact List.forall_mem_cons.mpr ⟨hfirst, ih hrest⟩

theorem insertAll (h : es.AreDocuments) (hmore : more.AreDocuments) :
    (Entries.insertAll es more).AreDocuments := by
  unfold Entries.insertAll
  induction more generalizing es with
  | nil => exact h
  | cons e rest ih =>
    obtain ⟨hfirst, hrest⟩ := List.forall_mem_cons.mp hmore
    exact ih (h.insert hfirst e.1) hrest

end Entries.AreDocuments

/-! ## Runs and what they come to -/

namespace Derive

/-- The calls that a plan makes where it writes `v`: each names a mapper and the value to be written
by it, element by element for a list. -/
inductive Plan.Hands (p : Plan) (v : Value) : JavaType → Value → Prop
  | single {a : PlannedAttribute} {t : JavaType} {u : Value} : a ∈ p.attributes →
    a.transfer = .single t → v.attribute a.model.name = .ok u → Hands p v t u
  | collection {a : PlannedAttribute} {t : JavaType} {us : List Value} {u : Value} :
    a ∈ p.attributes → a.transfer = .collection t → v.attribute a.model.name = .ok (.list us) →
    u ∈ us → Hands p v t u
  | variant {x : PlannedDispatch} {a : PlannedVariant} : p.dispatch = some x → a ∈ x.variants →
    v.kind = .model a.model.qualifiedName → Hands p v a.mapper v

end Derive

namespace World

open Derive

variable (w : World) (plans : List Plan) (c : RequestContext)

/-- Writing `v` with the mapper of the name comes to writing `u` by the plan `q`. -/
inductive ComesTo : String → Value → Plan → Value → Prop
  | start {name : String} {v : Value} {p : Plan} : p ∈ plans →
    w.mappers.get? name = some p.toMapper → ComesTo name v p v
  | inside {name : String} {v u x : Value} {p q : Plan} {t : JavaType} : p ∈ plans →
    w.mappers.get? name = some p.toMapper → p.Hands v t u → ComesTo t.qualifiedName u q x →
    ComesTo name v q x

/-- All that the plan writes of `v` without another mapper is free of models: fields that are
written as they are, what serializers make of fields, and links. -/
structure AddsDocuments (p : Plan) (v : Value) : Prop where
  plain : ∀ a ∈ p.attributes, ∀ t, a.transfer = .plain none t → ∀ u,
    v.attribute a.model.name = .ok u → u.isDocument = true
  serialized : ∀ a ∈ p.attributes, ∀ s t, a.transfer = .plain (some s) t → ∀ u x,
    v.attribute a.model.name = .ok u → w.encode (some s) u = .ok x → x.isDocument = true
  links : ∀ t ∈ p.links, ∀ f es, w.linksProvider t = .ok f → f v c = .ok es →
    Entries.AreDocuments es

/-- All that is written without another mapper in a run is free of models. -/
def RunAddsDocuments (name : String) (v : Value) : Prop :=
  ∀ q u, w.ComesTo plans name v q u → w.AddsDocuments c q u

/-- Calls that write give documents if nothing else is added in them. -/
structure CallsGiveDocuments (call : Caller) : Prop where
  one : ∀ t u out, w.RunAddsDocuments plans c t.qualifiedName u →
    call t .toJson [u] (some c) = .ok out → out.isDocument = true
  all : ∀ t u out, (∀ us, u = .list us → ∀ i ∈ us, w.RunAddsDocuments plans c t.qualifiedName i) →
    call t .toJsonCollection [u] (some c) = .ok out → out.isDocument = true

end World

/-! ## One step -/

section Step

open Derive

variable {w : World} {plans : List Plan} {c : RequestContext} {call : Caller} {p : Plan}
  {v : Value}

/-- A computation that gives documents, or stops. -/
abbrev GivesDocument (x : Outcome Value) : Prop := Ends (fun _ => True) (·.isDocument = true) x

abbrev GivesDocuments (x : Outcome (Entries Value)) : Prop :=
  Ends (fun _ => True) Entries.AreDocuments x

theorem Ends.of_ok {α : Type} {P : α → Prop} {x : Outcome α} (h : ∀ a, x = .ok a → P a) :
    Ends (fun _ => True) P x := by
  cases x with
  | ok a => exact h a rfl
  | error halt => trivial

variable (hcall : w.CallsGiveDocuments plans c call)
  (hadds : w.AddsDocuments c p v)
  (hhands : ∀ t u, p.Hands v t u → w.RunAddsDocuments plans c t.qualifiedName u)
include hcall hadds hhands

theorem wireValue_document {a : PlannedAttribute} (ha : a ∈ p.attributes) :
    GivesDocument (a.wireValue w call c v) := by
  refine Ends.of_ok fun out hout => ?_
  obtain ⟨u, hu, hout⟩ := bind_eq_ok.mp hout
  have hu := lift_eq_ok.mp hu
  cases ht : a.transfer with
  | plain serializer deserializer =>
    rw [ht] at hout
    have hout := lift_eq_ok.mp hout
    cases serializer with
    | none =>
      obtain rfl : u = out := Except.ok.inj hout
      exact hadds.plain a ha _ ht u hu
    | some s => exact hadds.serialized a ha s _ ht u out hu hout
  | single t =>
    rw [ht] at hout
    exact hcall.one t u out (hhands t u (.single ha ht hu)) hout
  | collection t =>
    rw [ht] at hout
    refine hcall.all t u out ?_ hout
    rintro us rfl i hi
    exact hhands t i (.collection ha ht hu hi)

theorem fill_documents {as : List PlannedAttribute} (has : as ⊆ p.attributes)
    {es : Entries Value} (hes : es.AreDocuments) :
    GivesDocuments (fill w call c v as es) := by
  refine Ends.foldlM hes fun es a ha hes => ?_
  refine (wireValue_document hcall hadds hhands (has ha)).bind fun x _ hx => ?_
  exact hes.insert hx a.wireKey

omit hadds in
theorem put_documents {x : PlannedDispatch} {a : PlannedVariant} (hx : p.dispatch = some x)
    (ha : a ∈ x.variants) {es : Entries Value} (hes : es.AreDocuments) :
    GivesDocuments (x.put call c v es a) := by
  unfold PlannedDispatch.put
  split
  · rename_i hkind
    refine Ends.bind (P := (·.isDocument = true)) (Ends.of_ok fun out hout => ?_) ?_
    · obtain ⟨u, hu, hfields⟩ := bind_eq_ok.mp hout
      have hsame := Value.eq_of_cast (lift_eq_ok.mp hu)
      rw [hsame] at hfields
      exact hcall.one a.mapper v out (hhands a.mapper v (.variant hx ha hkind)) hfields
    · intro fields _ hfields
      have hput := hes.insert (v := .string a.id) rfl x.discriminator
      cases x.nestedAttribute with
      | some key => exact hput.insert hfields key
      | none =>
        refine Ends.of_ok fun out hout => ?_
        obtain ⟨more, hmore, hout⟩ := bind_eq_ok.mp hout
        obtain rfl := Value.eq_map_of_allEntries (lift_eq_ok.mp hmore)
        obtain rfl := Except.ok.inj hout
        exact hput.insertAll (Value.isDocument_map.mp hfields)
  · exact hes

omit hcall hhands in
theorem linkEntries_documents :
    GivesDocuments (liftM (p.linkEntries w c v) : Outcome (Entries Value)) := by
  refine Ends.of_ok fun out hout => ?_
  have hout := lift_eq_ok.mp hout
  unfold Plan.linkEntries at hout
  cases hl : p.links with
  | none =>
    rw [hl] at hout
    obtain rfl := Except.ok.inj hout
    exact .nil
  | some t =>
    rw [hl] at hout
    obtain ⟨f, hf, hout⟩ := bind_eq_ok.mp hout
    obtain ⟨es, hes, hout⟩ := bind_eq_ok.mp hout
    obtain rfl := Except.ok.inj hout
    exact Entries.AreDocuments.nil.insertAll (hadds.links t hl f es hf hes)

theorem entries_documents : GivesDocuments (p.entries w call c v) := by
  have hfill {as : List PlannedAttribute} (has : as ⊆ p.attributes) {es : Entries Value}
      (hes : es.AreDocuments) : GivesDocuments (fill w call c v as es) :=
    fill_documents hcall hadds hhands has hes
  have hown : GivesDocuments (p.ownEntries w call c v) := by
    refine (linkEntries_documents hadds).bind fun es _ hes => ?_
    refine (hfill (List.filter_subset_self _) hes).bind fun es _ hes => ?_
    unfold Plan.fillEmbedded
    split
    · refine (hfill (List.filter_subset_self _) .nil).bind fun inner _ hinner => ?_
      exact hes.insert (Value.isDocument_map.mpr hinner) embeddedKey
    · exact hes
  refine hown.bind fun es _ hes => ?_
  unfold Plan.putVariants
  cases hx : p.dispatch with
  | none => exact hes
  | some x =>
    exact Ends.foldlM hes fun es a ha hes => put_documents hcall hhands hx ha hes

end Step

/-! ## All calls -/

namespace World

open Derive

variable {w : World} {plans : List Plan} {c : RequestContext} {call : Caller} {p : Plan}
  {name : String} {v out : Value}

/-- Whatever mapper is found is that of a plan. -/
theorem exists_plan {m : Mapper} (hw : w.HoldsOnly (plans.map (·.toMapper)))
    (hget : w.mappers.get? name = some m) :
    ∃ p ∈ plans, m = p.toMapper ∧ p.mapper.qualifiedName = name := by
  obtain ⟨hmem, hname⟩ := hw _ _ hget
  obtain ⟨p, hp, rfl⟩ := List.mem_map.mp hmem
  exact ⟨p, hp, rfl, hname⟩

/-- A method that gives something is one that the descriptor does not skip. -/
theorem run_method_of_runMethod {k : MethodKind} {args : List Value}
    {context : Option RequestContext}
    (h : w.runMethod call p.toMapper k args context = .ok out) :
    p.descriptor.skips k = false ∧
      (p.method k).run (p.scope w call) args context = .ok out := by
  rw [Plan.runMethod_toMapper] at h
  split at h
  · cases h
  · rename_i hs
    exact ⟨by simpa using hs, h⟩

theorem toJson_document (hcall : w.CallsGiveDocuments plans c call) (hp : p ∈ plans)
    (hget : w.mappers.get? name = some p.toMapper) (hadds : w.RunAddsDocuments plans c name v)
    (hout : w.runMethod call p.toMapper .toJson [v] (some c) = .ok out) :
    out.isDocument = true := by
  obtain ⟨hs, hrun⟩ := run_method_of_runMethod hout
  have hentries := (Writing.run_toJsonMethod_eq_entries hs w call c v).symm.trans hrun
  rw [map_eq_bind] at hentries
  obtain ⟨es, hes, hout⟩ := bind_eq_ok.mp hentries
  obtain rfl := Except.ok.inj hout
  have hhands : ∀ t u, p.Hands v t u → w.RunAddsDocuments plans c t.qualifiedName u :=
    fun t u hands q x hcomes => hadds q x (.inside hp hget hands hcomes)
  have hdocuments := entries_documents hcall (hadds p v (.start hp hget)) hhands
  rw [hes] at hdocuments
  exact Value.isDocument_map.mpr hdocuments

/-- A list is written element by element, by the mapper of the same name. -/
theorem toJsonList_document (hcall : w.CallsGiveDocuments plans c call)
    (hname : p.mapper.qualifiedName = name)
    (hadds : ∀ us, v = .list us → ∀ u ∈ us, w.RunAddsDocuments plans c name u)
    (hout : w.runMethod call p.toMapper .toJsonCollection [v] (some c) = .ok out) :
    out.isDocument = true := by
  obtain ⟨-, hrun⟩ := run_method_of_runMethod hout
  have hitems := (run_toJsonCollectionMethod (p.scope w call) p v c).symm.trans hrun
  obtain ⟨us, hus, hitems⟩ := bind_eq_ok.mp hitems
  obtain ⟨outs, houts, hout⟩ := bind_eq_ok.mp hitems
  obtain rfl := Except.ok.inj hout
  have hlist : v = .list us := by
    cases v <;> simp [Value.elements] at hus
    rw [hus]
  refine Value.isDocument_list.mpr fun x hx => ?_
  obtain ⟨u, hu, hx⟩ := exists_of_mem_of_mapM_eq_ok houts hx
  exact hcall.one p.mapper u x (hname ▸ hadds us hlist u hu) hx

/-- Calls give documents, by induction on how deep they may nest. -/
theorem call_givesDocuments (hw : w.HoldsOnly (plans.map (·.toMapper))) (c : RequestContext)
    (depth : Nat) : w.CallsGiveDocuments plans c (w.call depth) := by
  induction depth with
  | zero => exact ⟨fun _ _ _ _ h => (nomatch h), fun _ _ _ _ h => (nomatch h)⟩
  | succ depth ih =>
    constructor
    · intro t u out hadds hout
      obtain ⟨m, hm, hrun⟩ := bind_eq_ok.mp hout
      have hget := callee_eq_ok.mp (lift_eq_ok.mp hm)
      obtain ⟨p, hp, rfl, -⟩ := exists_plan hw hget
      exact toJson_document ih hp hget hadds hrun
    · intro t u out hadds hout
      obtain ⟨m, hm, hrun⟩ := bind_eq_ok.mp hout
      obtain ⟨p, -, rfl, hname⟩ := exists_plan hw (callee_eq_ok.mp (lift_eq_ok.mp hm))
      exact toJsonList_document ih hname hadds hrun

end World

open Derive

/-- What derived mappers write is a document and can be written as JSON, if no model is added by
fields that are written as they are, by serializers or by links in the run: a model that is handed
to a mapper, in a field, in a list or as an instance of a variant, does not get into the result. -/
theorem World.written_is_document {plans : List Plan} {w : World} {c : RequestContext}
    {name : String} {v out : Value} (hw : w.HoldsOnly (plans.map (·.toMapper))) :
    (w.toJson name v c = .ok out → w.RunAddsDocuments plans c name v →
      out.isDocument = true ∧ ∃ j, out.toJson = .ok j) ∧
    (w.toJsonList name v c = .ok out →
      (∀ us, v = .list us → ∀ u ∈ us, w.RunAddsDocuments plans c name u) →
      out.isDocument = true ∧ ∃ j, out.toJson = .ok j) := by
  have hcall := World.call_givesDocuments hw c (w.depthFor v)
  have hjson : out.isDocument = true → out.isDocument = true ∧ ∃ j, out.toJson = .ok j :=
    fun h => ⟨h, (Value.isDocument_iff out).mp h⟩
  constructor
  · intro hout hadds
    obtain ⟨m, hm, hrun⟩ := bind_eq_ok.mp hout
    have hget := World.mapper_eq_ok.mp (lift_eq_ok.mp hm)
    obtain ⟨p, hp, rfl, -⟩ := World.exists_plan hw hget
    exact hjson (World.toJson_document hcall hp hget hadds hrun)
  · intro hout hadds
    obtain ⟨m, hm, hrun⟩ := bind_eq_ok.mp hout
    obtain ⟨p, -, rfl, hname⟩ := World.exists_plan hw (World.mapper_eq_ok.mp (lift_eq_ok.mp hm))
    exact hjson (World.toJsonList_document hcall hname hadds hrun)

namespace Sample

def treePlans : List Plan := [planned trees {} node]

/-- The node inside of the tree. -/
def leafNode : Value := .model "com.Node" [("label", .string "leaf"), ("children", .list [])]

theorem eq_leafNode_of_hands {v u : Value} {t : JavaType} (hv : v = tree ∨ v = leafNode)
    (h : (planned trees {} node).Hands v t u) : u = leafNode := by
  have hattributes : (planned trees {} node).attributes =
      [plannedAttribute {} label, plannedAttribute {} children] := by decide
  cases h with
  | single ha ht _ =>
    rw [hattributes] at ha
    simp only [List.mem_cons, List.not_mem_nil, or_false] at ha
    rcases ha with rfl | rfl <;> cases ht
  | @collection a _ us _ ha ht hvalue hu =>
    rw [hattributes] at ha
    simp only [List.mem_cons, List.not_mem_nil, or_false] at ha
    rcases ha with rfl | rfl
    · cases ht
    rcases hv with rfl | rfl
    · have hlist : Value.list [leafNode] = .list us := Except.ok.inj hvalue
      obtain rfl := Value.list.inj hlist
      exact List.mem_singleton.mp hu
    · have hlist : Value.list [] = .list us := Except.ok.inj hvalue
      obtain rfl := Value.list.inj hlist
      cases hu
  | variant hx _ _ => cases hx

theorem nodes_of_comesTo {name : String} {v u : Value} {q : Plan}
    (h : treeWorld.ComesTo treePlans name v q u) (hv : v = tree ∨ v = leafNode) :
    q = planned trees {} node ∧ (u = tree ∨ u = leafNode) := by
  induction h with
  | start hp _ => exact ⟨List.mem_singleton.mp hp, hv⟩
  | inside hp _ hands _ ih =>
    obtain rfl := List.mem_singleton.mp hp
    exact ih (.inr (eq_leafNode_of_hands hv hands))

theorem tree_adds_documents :
    treeWorld.RunAddsDocuments treePlans {} "gen.com.NodeMapper" tree := by
  intro q u h
  obtain ⟨rfl, hu⟩ := nodes_of_comesTo h (.inl rfl)
  have hattributes : (planned trees {} node).attributes =
      [plannedAttribute {} label, plannedAttribute {} children] := by decide
  refine ⟨?_, ?_, nofun⟩
  · intro a ha t ht x hx
    rw [hattributes] at ha
    simp only [List.mem_cons, List.not_mem_nil, or_false] at ha
    rcases ha with rfl | rfl
    · rcases hu with rfl | rfl <;>
      · obtain rfl := Except.ok.inj hx
        rfl
    · cases ht
  · intro a ha s t ht
    rw [hattributes] at ha
    simp only [List.mem_cons, List.not_mem_nil, or_false] at ha
    rcases ha with rfl | rfl <;> cases ht

theorem written_is_document_tree :
    trees.deriveAll {} = .ok (treePlans.map (·.toMapper)) ∧
      treeWorld.HoldsOnly (treePlans.map (·.toMapper)) ∧ tree.isDocument = false ∧
      treeWorld.RunAddsDocuments treePlans {} "gen.com.NodeMapper" tree ∧
      treeWorld.toJson "gen.com.NodeMapper" tree {} = .ok (.map treeEntries) ∧
      (Value.map treeEntries).isDocument = true ∧ ∃ j, (Value.map treeEntries).toJson = .ok j := by
  have hholds : treeWorld.HoldsOnly (treePlans.map (·.toMapper)) :=
    World.holdsOnly_loadAll rfl _
  have hout : treeWorld.toJson "gen.com.NodeMapper" tree {} = .ok (.map treeEntries) :=
    (Writing.toJson_eq treeWorld_serves node_mem rfl tree {}).trans rfl
  exact ⟨rfl, hholds, rfl, tree_adds_documents, hout,
    (World.written_is_document hholds).1 hout tree_adds_documents⟩

end Sample

end JsonMapping
