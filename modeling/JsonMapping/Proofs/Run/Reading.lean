import JsonMapping.Proofs.Graph.Loading
import JsonMapping.Proofs.Run.Calls
import JsonMapping.Proofs.Run.Collections
import JsonMapping.Proofs.Run.Statements

/-! The methods that read follow the descriptors: run on a value, the derived body makes the model
that `Graph.read` reads off the descriptor, with the same order of fields and the same fault. -/

namespace JsonMapping

open Derive

namespace Reading

variable {G : Graph} {w : World} {call : Caller} {d : Descriptor} {j : Value}
variable {read : Graph.Reader}

/-! ## Helpers in use -/

theorem mem_helperUses {use : HelperUse} (hs : d.skipDeserialize = false)
    (h : use ∈ (planned G.registry G.settings d).readingUses) :
    use ∈ (planned G.registry G.settings d).helperUses := by
  unfold Plan.helperUses
  rw [show (planned G.registry G.settings d).descriptor.skipDeserialize = false from hs]
  exact List.mem_append_right _ h

theorem custom_mem_readingUses {t : JavaType} (h : d.customDeserializer = some t) :
    (t, ConstantRole.customDeserializer) ∈ (planned G.registry G.settings d).readingUses := by
  unfold Plan.readingUses
  rw [show (planned G.registry G.settings d).descriptor.customDeserializer = some t from h]
  simp

theorem deserializer_mem_readingUses {m : AttributeMapping} {t : JavaType}
    {serializer : Option JavaType} (hd : d.customDeserializer = none) (hm : m ∈ G.attributes d)
    (h : m.conversion = .plain serializer (some t)) :
    (t, ConstantRole.deserializer) ∈ (planned G.registry G.settings d).readingUses := by
  unfold Plan.readingUses
  rw [show (planned G.registry G.settings d).descriptor.customDeserializer = none from hd]
  refine List.mem_filterMap.mpr ⟨plannedAttribute G.settings m, List.mem_map_of_mem hm, ?_⟩
  cases serializer <;> simp [plannedAttribute, h, transferOf, Transfer.deserializer?]

/-! ## Calls -/

/-- The calls that the body for `d` makes on the way through `j` are answered as `read` would
answer them. -/
structure Answers (G : Graph) (call : Caller) (read : Graph.Reader) (d : Descriptor) (j : Value) :
    Prop where
  one : ∀ r ∈ G.references d, ∀ u : Value, u.height < j.height →
    call (G.settings.mapperOf r) .fromJson [u] none = G.readOne read r u
  all : ∀ r ∈ G.references d, ∀ u : Value, u.height < j.height →
    call (G.settings.mapperOf r) .fromJsonCollection [u] none = G.readAll read r u
  variant : ∀ a ∈ d.variants, 0 < j.height →
    call (G.settings.mapperOf a.representer) .fromJson [j] none =
      G.readOne read a.representer j

/-! ## Variables -/

/-- The variables while `model` is built from `j`. -/
structure Building (j model : Value) (f : Frame) : Prop where
  json : f.vars .json = some j
  model : f.vars .model = some model

/-- The variables while the attributes of a model are set. -/
structure Setting (G : Graph) (d : Descriptor) (j embedded model : Value) (f : Frame) : Prop
    extends Building j model f where
  embedded : G.hasEmbedded d → f.vars .embeddedMap = some embedded

/-! ## Making the model -/

theorem height_pos_of_entries {holder : Var} {es : Entries Value} (h : j.entries holder = .ok es) :
    0 < j.height := by
  cases j <;> simp_all [Value.entries, Value.height]

/-- What a variant is read from, and the call that reads it. -/
theorem eval_readVariant {x : Dispatch} {a : Variant} {es : Entries Value} {f : Frame}
    (hx : d.dispatch = some x) (ha : a ∈ x.variants) (hcall : Answers G call read d j)
    (hf : f.vars .json = some j) (hj : j.entries .json = .ok es) :
    (Expr.callMapper (G.settings.mapperOf a.representer) .fromJson
      [Derive.variantSource (plannedDispatch G.registry G.settings x)]).eval (G.scope w call d) f =
      (do G.readOne read a.representer (← Graph.variantSource x j)) := by
  have ha : a ∈ d.variants := by rwa [Descriptor.variants_eq hx]
  unfold Derive.variantSource Graph.variantSource
  rw [show (plannedDispatch G.registry G.settings x).nestedAttribute = x.nestedAttribute from rfl]
  cases x.nestedAttribute with
  | none =>
    dsimp only
    rw [Expr.eval_callMapper (by simp), Expr.eval_var hf]
    exact hcall.variant a ha (height_pos_of_entries hj)
  | some key =>
    dsimp only
    rw [Expr.eval_callMapper (by simp)]
    simp only [Expr.eval, Frame.map_eq hf, hj, lift_ok, ok_bind, pure_eq_ok]
    refine lift_bind_congr ?_
    intro u hu
    refine hcall.one a.representer (Graph.variant_mem_references ha) u ?_
    rw [Value.eq_of_cast hu]
    exact Value.height_ofEntry_lt hj key

theorem follows_select {x : Dispatch} {f : Frame} (hx : d.dispatch = some x)
    (hcall : Answers G call read d j) (hf : Building j .null f) :
    Follows (G.scope w call d) f
      [.select (.lookup .json x.discriminator)
        ((plannedDispatch G.registry G.settings x).variants.map
          (Derive.readVariant (plannedDispatch G.registry G.settings x)))]
      (G.readVariant read x j) (Building j) := by
  have hexec := Stmt.exec_select (s := G.scope w call d) (Expr.eval_lookup hf.json x.discriminator)
    (fun a : Variant => a.id) (fun a => [.assign .model (.callMapper
      (G.settings.mapperOf a.representer) .fromJson
      [Derive.variantSource (plannedDispatch G.registry G.settings x)])]) x.variants
  rw [show (plannedDispatch G.registry G.settings x).variants =
      x.variants.map (plannedVariant G.registry G.settings) from rfl, List.map_map]
  unfold Graph.readVariant
  cases hj : j.entries .json with
  | error e =>
    rw [hj] at hexec
    exact Follows.of_eval (g := fun _ => f) hexec fun _ h => nomatch h
  | ok es =>
    simp only [hj, lift_ok, ok_bind, pure_eq_ok] at hexec ⊢
    cases ha : x.variants.find? fun a =>
        (Value.ofEntry es x.discriminator).string? = some a.id with
    | none =>
      rw [ha] at hexec
      refine Follows.of_eval (g := fun _ => f) hexec ?_
      intro model h
      obtain rfl := Except.ok.inj h
      exact hf
    | some a =>
      rw [ha] at hexec
      have heval := eval_readVariant (w := w) hx (List.mem_of_find?_eq_some ha) hcall hf.json hj
      refine Follows.of_eval (g := fun model => f.set .model model) ?_ ?_
      · refine hexec.trans ?_
        dsimp only
        rw [Stmt.execAll_singleton, Stmt.exec, heval]
        rfl
      · intro model _
        exact ⟨by simp [hf.json], by simp⟩

/-- How the model is made, up to the check that there is one. -/
theorem execAll_makeModel {f : Frame} (hcall : Answers G call read d j)
    (hf : f.vars .json = some j) (rest : List Stmt) {r : Value → Outcome Flow}
    (hr : ∀ model g, model.isNull = false → Building j model g →
      Stmt.execAll (G.scope w call d) g rest = r model) :
    Stmt.execAll (G.scope w call d) f (Derive.makeModel (planned G.registry G.settings d) ++ rest) =
      G.makeModel w read d j >>= fun model =>
        if model.isNull then .ok (.done .null) else r model := by
  unfold Derive.makeModel constructVariant Graph.makeModel
  rw [show (planned G.registry G.settings d).dispatch =
    d.dispatch.map (plannedDispatch G.registry G.settings) from rfl]
  have hdeclared : ∀ model, Building j model (f.set .model model) := by
    intro model
    exact ⟨by simp [hf], by simp⟩
  cases hx : d.dispatch with
  | none =>
    have hexec : Stmt.exec (G.scope w call d) f
        (.declare .model (.declared d.model) (.newModel d.model)) =
          .ok (.next (f.set .model (w.instantiate d.model))) := rfl
    exact (Stmt.execAll_cons_next hexec).trans (hr _ _ rfl (hdeclared _))
  | some x =>
    have hexec : Stmt.exec (G.scope w call d) f (.declare .model (.declared d.model) .null) =
        .ok (.next (f.set .model .null)) := rfl
    have hmade := Follows.cons hexec (follows_select hx hcall (hdeclared .null))
    refine hmade.execAll_append (q := .when (.isNull (.var .model)) [.ret (.var .model)] :: rest) ?_
    intro model g hg
    rw [Stmt.execAll_unlessNull hg.model (Expr.eval_var hg.model)]
    cases hnull : model.isNull with
    | true =>
      rw [Value.isNull_iff.mp hnull]
      rfl
    | false => exact hr model g hnull hg

/-! ## Setting the attributes -/

variable (w call) in
theorem follows_findEmbedded {model : Value} {f : Frame} (hf : Building j model f) :
    Follows (G.scope w call d) f (findEmbedded (planned G.registry G.settings d))
      (liftM (G.embeddedIn d j) : Outcome Value)
      fun embedded g => Setting G d j embedded model g ∧ embedded.height ≤ j.height := by
  have hle : ∀ embedded, (liftM (G.embeddedIn d j) : Outcome Value) = .ok embedded →
      embedded.height ≤ j.height := fun _ h => Graph.height_embeddedIn_le (lift_eq_ok.mp h)
  unfold findEmbedded
  rw [Graph.hasEmbedded_planned]
  unfold Graph.embeddedIn at hle ⊢
  cases hembedded : G.hasEmbedded d with
  | false => exact Follows.nil ⟨⟨hf, by simp [hembedded]⟩, Nat.zero_le _⟩
  | true =>
    rw [hembedded] at hle
    refine Follows.of_eval (g := fun embedded => f.set .embeddedMap embedded) ?_ ?_
    · have hmap := Frame.map_eq hf.json
      simp only [if_true, Stmt.exec, Expr.eval, hmap]
      cases j.entries .json with
      | error e => rfl
      | ok es =>
        simp only [lift_ok, ok_bind]
        cases es.get? embeddedKey <;> rfl
    · intro embedded h
      exact ⟨⟨⟨by simp [hf.json], by simp [hf.model]⟩, by simp⟩, hle embedded h⟩

theorem eval_castTo {s : Scope} {f : Frame} {e : Expr} {raw : Value} (he : e.eval s f = .ok raw)
    (type : Option JavaType) : (castTo type e).eval s f = liftM (raw.castTo type) := by
  cases type with
  | none => exact he
  | some t => simp [castTo, Value.castTo, Expr.eval, he]

theorem eval_readValue {m : AttributeMapping} {raw : Value} {e : Expr} {f : Frame}
    (hs : d.skipDeserialize = false) (hd : d.customDeserializer = none) (hm : m ∈ G.attributes d)
    (hcall : Answers G call read d j) (hraw : raw.height < j.height)
    (he : e.eval (G.scope w call d) f = .ok raw) :
    (Derive.readValue (G.mapper d).constants (plannedAttribute G.settings m) e).eval
      (G.scope w call d) f = G.readValue w read m raw := by
  unfold Derive.readValue Graph.readValue
  cases hconv : m.conversion with
  | plain serializer deserializer =>
    simp only [plannedAttribute, hconv, transferOf]
    cases deserializer with
    | none => exact eval_castTo he m.model.type
    | some t =>
      have ht := Graph.constantType_constantFor w call
        (mem_helperUses hs (deserializer_mem_readingUses hd hm hconv))
      dsimp only
      rw [← Graph.constantFor, Expr.eval_apply ht, eval_castTo he m.wire.type, ← lift_bind]
      rfl
  | single r =>
    have hr := Graph.single_mem_references hm hconv
    simp only [plannedAttribute, hconv, transferOf]
    rw [Expr.eval_callMapper (by simp)]
    simp only [Expr.eval, he, ok_bind]
    refine lift_bind_congr fun u hu => hcall.one r hr u ?_
    rw [Value.eq_of_cast hu]
    exact hraw
  | collection r element =>
    have hr := Graph.collection_mem_references hm hconv
    simp only [plannedAttribute, hconv, transferOf]
    rw [Expr.eval_callMapper (by simp)]
    simp only [Expr.eval, he, ok_bind]
    refine lift_bind_congr fun u hu => hcall.all r hr u ?_
    rw [Value.eq_of_cast hu]
    exact hraw

theorem follows_setValue {m : AttributeMapping} {embedded model : Value} {f : Frame}
    (hs : d.skipDeserialize = false) (hd : d.customDeserializer = none) (hm : m ∈ G.attributes d)
    (hcall : Answers G call read d j) (hembedded : embedded.height ≤ j.height)
    (hf : Setting G d j embedded model f) :
    Follows (G.scope w call d) f [setValue (G.mapper d).constants (plannedAttribute G.settings m)]
      (G.readInto w read j embedded model m) (Setting G d j embedded) := by
  have hsource : f.map (sourceOf (plannedAttribute G.settings m)) =
      Graph.fieldsFor j embedded m := by
    unfold sourceOf Graph.fieldsFor
    cases he : m.embedded with
    | false => simp [plannedAttribute, he, Frame.map_eq hf.json]
    | true =>
      have hhas : G.hasEmbedded d := List.any_eq_true.mpr ⟨m, hm, he⟩
      simp [plannedAttribute, he, Frame.map_eq (hf.embedded hhas)]
  unfold Graph.readInto setValue
  cases hes : Graph.fieldsFor j embedded m with
  | error e =>
    refine Follows.of_eval (g := fun _ => f) ?_ ?_
    · simp only [Stmt.exec, Expr.test, Expr.eval, hsource, hes, lift_error, error_bind]
    · intro model' h
      cases h
  | ok es =>
    have hwhen := Stmt.exec_when (s := G.scope w call d) (f := f)
      (e := .hasKey (sourceOf (plannedAttribute G.settings m)) m.wireKey)
      (b := (es.get? m.wireKey).isSome) (by simp [Expr.eval, hsource, hes])
    simp only [lift_ok, ok_bind]
    cases hraw : es.get? m.wireKey with
    | none =>
      rw [hraw] at hwhen
      refine Follows.of_eval (g := fun _ => f) (hwhen _) ?_
      intro model' h
      obtain rfl := Except.ok.inj h
      exact hf
    | some raw =>
      rw [hraw] at hwhen
      have hlt := Graph.height_lt_of_fieldsFor hembedded hes hraw
      have hlookup : (Expr.lookup (sourceOf (plannedAttribute G.settings m)) m.wireKey).eval
          (G.scope w call d) f = .ok raw := by
        simp [Expr.eval, hsource, hes, Value.ofEntry, hraw]
      have heval := eval_readValue hs hd hm hcall hlt hlookup
      refine Follows.of_eval (g := fun model => f.set .model model) ?_ ?_
      · refine (hwhen _).trans ?_
        simp only [Option.isSome_some, if_true, Stmt.execAll_singleton]
        exact Stmt.exec_setAttribute hf.model m.model heval
      · intro model' _
        refine ⟨⟨by simp [hf.json], by simp⟩, ?_⟩
        intro he
        simp [hf.embedded he]

theorem follows_setValues {embedded model : Value} {f : Frame} (hs : d.skipDeserialize = false)
    (hd : d.customDeserializer = none) (hcall : Answers G call read d j)
    (hembedded : embedded.height ≤ j.height) (hf : Setting G d j embedded model f) :
    Follows (G.scope w call d) f
      ((planned G.registry G.settings d).attributes.map (setValue (G.mapper d).constants))
      ((G.attributes d).foldlM (G.readInto w read j embedded) model) (Setting G d j embedded) := by
  rw [show (planned G.registry G.settings d).attributes =
    (G.attributes d).map (plannedAttribute G.settings) from rfl, List.map_map]
  refine Follows.loop ?_ hf
  intro m hm model g hg
  exact follows_setValue hs hd hm hcall hembedded hg

theorem follows_readAttributes {model : Value} {f : Frame} (hs : d.skipDeserialize = false)
    (hd : d.customDeserializer = none) (hcall : Answers G call read d j)
    (hf : Building j model f) :
    Follows (G.scope w call d) f
      (findEmbedded (planned G.registry G.settings d) ++
        (planned G.registry G.settings d).attributes.map (setValue (G.mapper d).constants))
      (G.readAttributes w read d j model) fun model g => g.vars .model = some model := by
  refine (follows_findEmbedded w call hf).append ?_
  rintro embedded g ⟨hg, hembedded⟩
  refine (follows_setValues hs hd hcall hembedded hg).mono ?_
  intro model g hg
  exact hg.model

/-! ## The methods -/

theorem execAll_readModel {f : Frame} (hs : d.skipDeserialize = false)
    (hcall : Answers G call read d j) (hf : f.vars .json = some j) (hj : j.isNull = false) :
    Stmt.execAll (G.scope w call d) f
      (readModel (G.mapper d).constants (planned G.registry G.settings d)) =
        (G.readWith w read d j).map .done := by
  unfold readModel Graph.readWith
  rw [show (planned G.registry G.settings d).descriptor.customDeserializer =
    d.customDeserializer from rfl, hj]
  cases hd : d.customDeserializer with
  | some t =>
    have ht := Graph.constantType_constantFor (G := G) w call
      (mem_helperUses hs (custom_mem_readingUses hd))
    have heval : (Expr.apply (G.constantFor d t) (.var .json)).eval (G.scope w call d) f =
        (liftM (do (← w.helper t) j) : Outcome Value) := by
      rw [Expr.eval_apply ht, Expr.eval_var hf, ok_bind]
      rfl
    dsimp only
    rw [← Graph.constantFor, Stmt.execAll_singleton, Stmt.exec, heval, map_eq_bind, lift_bind]
    rfl
  | none =>
    dsimp only
    have hrest : ∀ model g, model.isNull = false → Building j model g →
        Stmt.execAll (G.scope w call d) g
          (findEmbedded (planned G.registry G.settings d) ++
            ((planned G.registry G.settings d).attributes.map (setValue (G.mapper d).constants) ++
              [.ret (.var .model)])) = (G.readAttributes w read d j model).map .done := by
      intro model g _ hg
      rw [← List.append_assoc]
      exact (follows_readAttributes hs hd hcall hg).execAll_ret fun _ _ h => Expr.eval_var h
    rw [List.append_assoc, List.append_assoc, execAll_makeModel (w := w) hcall hf _ hrest,
      if_neg (by simp), map_bind]
    refine bind_congr_ok ?_
    intro model _
    cases model.isNull <;> rfl

/-- Run on a value, the body that reads makes the model of one reading step. -/
theorem run_fromJsonMethod (hs : d.skipDeserialize = false) (hcall : Answers G call read d j) :
    (fromJsonMethod (G.mapper d).constants (planned G.registry G.settings d)).run
      (G.scope w call d) [j] none = G.readWith w read d j := by
  have hstart : (Frame.ofCall [⟨.json, .container⟩] [j] none).vars .json = some j := rfl
  unfold Method.run fromJsonMethod readingMethod fromJsonBody
  dsimp only
  rw [Stmt.execAll_unlessNull hstart rfl]
  cases hj : j.isNull with
  | true => simp [Graph.readWith, hj]
  | false =>
    rw [if_neg (by simp), execAll_readModel hs hcall hstart hj, bind_map]
    exact bind_pure _

/-- Run on a list, the body calls the mapper that it belongs to on every element. -/
theorem run_fromJsonCollectionMethod {u : Value}
    (h : ∀ i : Value, i.height < u.height →
      call (G.settings.mapperOf d.representer) .fromJson [i] none = read d i) :
    (fromJsonCollectionMethod (planned G.registry G.settings d)).run (G.scope w call d) [u] none =
      (do
        if u.isNull then return .list []
        return .list (← (← u.elements .jsonArray).mapM (read d))) := by
  rw [Derive.run_fromJsonCollectionMethod]
  cases u.isNull with
  | true => rfl
  | false =>
    refine lift_bind_congr fun items hu => ?_
    exact congrArg (· >>= _) <| mapM_congr_mem fun i hi =>
      h i (Value.height_lt_of_elements hu hi)

/-! ## Runs in a world -/

/-- Given the depth that the value needs, the method that reads agrees with the descriptor. -/
theorem run_fromJson (hw : w.Serves G) {depth : Nat} (hd : d ∈ G.members)
    (hs : d.skipDeserialize = false) (hdepth : G.weight d j ≤ depth) :
    (G.method d .fromJson).run (G.scope w (w.call depth) d) [j] none = G.read w d j := by
  induction depth using Nat.strong_induction_on generalizing d j with
  | _ depth ih =>
    rw [Graph.read_eq]
    refine run_fromJsonMethod hs ⟨?_, ?_, ?_⟩
    · intro r hr u hu
      obtain ⟨n, rfl, hn⟩ := G.exists_depth_of_height_lt hu hdepth
      rw [Graph.call_reference hw hd hr]
      refine lift_bind_congr ?_
      intro e he
      obtain ⟨hfind, hse⟩ := Graph.callee_ok he
      exact ih n (by omega) (Graph.mem_of_find? hfind) hse (hn e)
    · intro r hr u hu
      obtain ⟨n, rfl, hn⟩ := G.exists_depth_of_height_lt hu hdepth
      rw [Graph.call_reference hw hd hr]
      refine lift_bind_congr ?_
      intro e he
      obtain ⟨hfind, hse⟩ := Graph.callee_ok he
      have he := Graph.mem_of_find? hfind
      refine run_fromJsonCollectionMethod ?_
      intro i hi
      -- one more call for the element
      obtain ⟨k, rfl, hk⟩ := G.exists_depth_of_height_lt hi (hn e)
      rw [Graph.call_member hw he .fromJson hse]
      exact ih k (by omega) he hse (hk e)
    · intro a ha hj
      obtain ⟨n, rfl, hn⟩ := G.exists_depth_of_handsOn hj hdepth
      rw [Graph.call_reference hw hd (Graph.variant_mem_references ha)]
      refine lift_bind_congr ?_
      intro e he
      obtain ⟨hfind, hse⟩ := Graph.callee_ok he
      exact ih n (by omega) (Graph.mem_of_find? hfind) hse (hn e (G.handsOn_of_find? ha hfind))

/-- The mapper of a member reads a value as the descriptor tells. -/
theorem fromJson_eq (hw : w.Serves G) (hd : d ∈ G.members) (hs : d.skipDeserialize = false)
    (j : Value) : w.fromJson (G.settings.mapperName d.representer) j = G.read w d j := by
  unfold World.fromJson World.run World.runWithin
  rw [World.mapper_eq_ok.mpr (hw.get? hd), lift_ok, ok_bind, Graph.runMethod_eq .fromJson _ _ hs]
  exact run_fromJson hw hd hs (hw.weight_le_depthFor d j)

end Reading

/-- Whatever the value is, the mapper that is derived for a descriptor reads what the direct reading
of the descriptor tells, up to the order of fields and the fault; and this reading is one step after
the other, which comes to an end. -/
theorem World.fromJson_eq_read {G : Graph} {w : World} {d : Descriptor} {m : Mapper}
    (hw : w.Serves G) (hd : d ∈ G.members) (hm : G.registry.derive G.settings d = .ok m)
    (hs : d.skipDeserialize = false) (j : Value) :
    w.fromJson m.type.qualifiedName j = G.read w d j ∧
      G.read w d j = G.readWith w (G.read w) d j ∧ G.read w d j ≠ .error .tooDeep := by
  obtain ⟨rfl, -, -⟩ := derive_ok hm
  exact ⟨Reading.fromJson_eq hw hd hs j, Graph.read_eq w d j, Graph.read_ends w d j⟩

namespace Sample

theorem fromJson_tree :
    treeWorld.Serves treeGraph ∧ node ∈ treeGraph.members ∧
      treeGraph.registry.derive treeGraph.settings node = .ok (treeGraph.mapper node) ∧
      node.skipDeserialize = false ∧
      treeWorld.fromJson "gen.com.NodeMapper" (.map treeEntries) = .ok tree := by
  have hderive := treeWorld_serves.derive node_mem
  refine ⟨treeWorld_serves, node_mem, hderive, rfl, ?_⟩
  obtain ⟨hread, -⟩ :=
    World.fromJson_eq_read treeWorld_serves node_mem hderive rfl (.map treeEntries)
  exact hread.trans rfl

end Sample

end JsonMapping
