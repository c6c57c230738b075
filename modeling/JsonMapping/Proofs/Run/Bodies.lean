import JsonMapping.Proofs.Derive.Constants
import JsonMapping.Proofs.Derive.Methods
import JsonMapping.Proofs.Run.Statements

/-! What the bodies that write make, told from their plans. Nothing is assumed of the mappers that
they call: a call gives what the caller gives, also where it is no container, and where it never
ends. The main statement is `run_toJsonMethod_eq_entries`. -/

namespace JsonMapping

/-- The entries of a value of which all entries are asked for. -/
def Value.allEntries (v : Value) : Except RunError (Entries Value) :=
  match v with
  | .map es => .ok es
  | .null => .error (.nullDereference .entries)
  | found => .error (.typeMismatch .map found.kind)

namespace Derive

/-! ## Steps of a plan -/

section Steps

variable (w : World) (call : Caller) (c : RequestContext)

/-- The wire value of an attribute of `v`. -/
def PlannedAttribute.wireValue (v : Value) (a : PlannedAttribute) : Outcome Value := do
  let current ← v.attribute a.model.name
  match a.transfer with
  | .plain serializer _ => w.encode serializer current
  | .single t => call t .toJson [current] (some c)
  | .collection t => call t .toJsonCollection [current] (some c)

/-- Entries with those for some attributes of `v` put into them. -/
def fill (v : Value) (as : List PlannedAttribute) (es : Entries Value) : Outcome (Entries Value) :=
  as.foldlM (fun es a => return es.insert a.wireKey (← a.wireValue w call c v)) es

/-- What the mapper of a variant writes `v` as. -/
def PlannedVariant.fields (v : Value) (a : PlannedVariant) : Outcome Value := do
  call a.mapper .toJson [← v.cast (.declared a.model)] (some c)

/-- The discriminator and the fields of a variant, if the value is an instance of its model. -/
def PlannedDispatch.put (x : PlannedDispatch) (v : Value) (es : Entries Value)
    (a : PlannedVariant) : Outcome (Entries Value) :=
  if v.kind = .model a.model.qualifiedName then do
    let fields ← a.fields call c v
    let es := es.insert x.discriminator (.string a.id)
    match x.nestedAttribute with
    | some key => return es.insert key fields
    | none => return es.insertAll (← fields.allEntries)
  else .ok es

namespace Plan

variable (p : Plan) (v : Value)

def linkEntries : Except RunError (Entries Value) :=
  match p.links with
  | some t => do return Entries.insertAll [] (← (← w.linksProvider t) v c)
  | none => .ok []

/-- The entry for the embedded fields, if there are any. -/
def fillEmbedded (es : Entries Value) : Outcome (Entries Value) :=
  if p.hasEmbedded then do
    return es.insert embeddedKey (.map (← fill w call c v p.embeddedAttributes []))
  else .ok es

/-- What comes before the variants: the links, the plain and the embedded fields. -/
def ownEntries : Outcome (Entries Value) := do
  let es ← p.linkEntries w c v
  let es ← fill w call c v p.plainAttributes es
  p.fillEmbedded w call c v es

def putVariants (es : Entries Value) : Outcome (Entries Value) :=
  match p.dispatch with
  | some x => x.variants.foldlM (x.put call c v) es
  | none => .ok es

def entries : Outcome (Entries Value) := do
  p.putVariants call c v (← p.ownEntries w call c v)

/-- What stays the same while a method of the plan's mapper runs. -/
def scope : Scope where
  world := w
  mapper := p.toMapper
  call := call

end Plan

end Steps

theorem Plan.constantType_constantName (w : World) (call : Caller) {p : Plan} {use : HelperUse}
    (h : use ∈ p.helperUses) :
    (p.scope w call).constantType (constantName p.constants use.1) = .ok use.1 := by
  obtain ⟨k, hk, ht⟩ := find?_constantName h
  have hfind : p.toMapper.constant? (constantName p.constants use.1) = some k := hk
  simp only [Scope.constantType, scope, hfind, ht]

/-- The plan's mapper has the methods of the plan, where the descriptor does not skip them. -/
theorem Plan.runMethod_toMapper (w : World) (call : Caller) (p : Plan) (k : MethodKind)
    (args : List Value) (context : Option RequestContext) :
    w.runMethod call p.toMapper k args context =
      if p.descriptor.skips k then .error (.fault (.missingMethod p.mapper k))
      else (p.method k).run (p.scope w call) args context := by
  unfold World.runMethod
  rw [Plan.method?_toMapper]
  cases p.descriptor.skips k <;> rfl

end Derive

namespace Writing

open Derive

variable {w : World} {call : Caller} {c : RequestContext} {p : Plan} {v : Value}

/-! ## Variables -/

/-- The variables while entries for `v` are collected in `target`. -/
structure Filling (c : RequestContext) (v : Value) (target : Var) (es : Entries Value) (f : Frame) :
    Prop where
  value : f.vars .value = some v
  context : f.context = some c
  entries : f.vars target = some (.map es)

theorem Filling.set {target : Var} {es es' : Entries Value} {f : Frame}
    (h : Filling c v target es f) (ht : target ≠ .value) :
    Filling c v target es' (f.set target (.map es')) where
  value := by simp [ht.symm, h.value]
  context := h.context
  entries := by simp

/-! ## Fields -/

theorem eval_writeValue {a : PlannedAttribute} {target : Var} {es : Entries Value} {f : Frame}
    (hs : p.descriptor.skipSerialize = false) (ha : a ∈ p.attributes)
    (hf : Filling c v target es f) :
    (writeValue p.constants a).eval (p.scope w call) f = a.wireValue w call c v := by
  have hcurrent := Expr.eval_getAttribute (s := p.scope w call) hf.value a.model
  unfold writeValue PlannedAttribute.wireValue
  cases ht : a.transfer with
  | plain serializer deserializer =>
    cases serializer with
    | none =>
      simp only [hcurrent, World.encode]
      cases v.attribute a.model.name <;> rfl
    | some t =>
      have huse := Plan.mem_helperUses_of_writing hs (Plan.serializer_mem_writingUses ha ht)
      simp only [Expr.eval_apply (p.constantType_constantName w call huse), hcurrent]
      rfl
  | single t =>
    simp only [Expr.eval_callMapper_context hf.context
      (e := .getAttribute .value a.model) (by simp), hcurrent]
    rfl
  | collection t =>
    simp only [Expr.eval_callMapper_context hf.context
      (e := .getAttribute .value a.model) (by simp), hcurrent]
    rfl

/-- Puts of attributes into `target` follow the loop over the attributes, and touch nothing else. -/
theorem follows_putValues {as : List PlannedAttribute} {target : Var} {es : Entries Value}
    {f : Frame} (hs : p.descriptor.skipSerialize = false) (has : as ⊆ p.attributes)
    (ht : target ≠ .value) (hf : Filling c v target es f) :
    Follows (p.scope w call) f (as.map (putValue p.constants target)) (fill w call c v as es)
      fun es g => Filling c v target es g ∧ ∀ u, u ≠ target → g.vars u = f.vars u := by
  refine Follows.loop ?_ ⟨hf, fun _ _ => rfl⟩
  rintro a ha es g ⟨hg, hothers⟩
  refine Follows.of_eval (g := fun es' => g.set target (.map es')) ?_ ?_
  · rw [putValue, Stmt.exec_put hg.entries, eval_writeValue hs (has ha) hg, bind_assoc]
    rfl
  · intro es' _
    refine ⟨hg.set ht, ?_⟩
    intro u hu
    simp [hu, hothers u hu]

/-! ## The parts of the body -/

theorem follows_putLinks {f : Frame} (hs : p.descriptor.skipSerialize = false)
    (hf : Filling c v .json [] f) :
    Follows (p.scope w call) f (putLinks p.constants p)
      (liftM (p.linkEntries w c v) : Outcome (Entries Value)) (Filling c v .json) := by
  unfold putLinks Plan.linkEntries
  cases hl : p.links with
  | none => exact Follows.nil hf
  | some t =>
    have ht := p.constantType_constantName w call
      (Plan.mem_helperUses_of_writing hs (Plan.linksProvider_mem_writingUses hl))
    have heval : (Expr.links (constantName p.constants t) .value .requestContext).eval
        (p.scope w call) f =
        (liftM (do (← w.linksProvider t) v c) : Outcome (Entries Value)).map .map := by
      simp only [Expr.eval, ht, Frame.get_eq_ok hf.value, Frame.requestContext_eq_ok hf.context,
        lift_ok, ok_bind, lift_bind, map_eq_bind, bind_assoc]
      rfl
    refine Follows.of_eval (g := fun es => f.set .json (.map es)) ?_ ?_
    · rw [Stmt.exec_putAll hf.entries heval]
      simp only [lift_bind, bind_assoc]
      rfl
    · intro es _
      exact hf.set (by simp)

theorem follows_putPlain {es : Entries Value} {f : Frame}
    (hs : p.descriptor.skipSerialize = false) (hf : Filling c v .json es f) :
    Follows (p.scope w call) f (p.plainAttributes.map (putValue p.constants .json))
      (fill w call c v p.plainAttributes es) (Filling c v .json) := by
  refine (follows_putValues hs (List.filter_subset_self _) (by simp) hf).mono ?_
  rintro es' g ⟨hg, -⟩
  exact hg

/-- The container of the embedded fields is declared and filled. -/
theorem follows_fillEmbedded {es : Entries Value} {f : Frame}
    (hs : p.descriptor.skipSerialize = false) (hf : Filling c v .json es f) :
    Follows (p.scope w call) f
      (.declare .embeddedMap .container .newContainer ::
        p.embeddedAttributes.map (putValue p.constants .embeddedMap))
      (fill w call c v p.embeddedAttributes [])
      fun inner g => Filling c v .embeddedMap inner g ∧ g.vars .json = some (.map es) := by
  have hstart : Filling c v .embeddedMap [] (f.set .embeddedMap (.map [])) :=
    ⟨by simp [hf.value], hf.context, by simp⟩
  refine Follows.cons (g := f.set .embeddedMap (.map [])) rfl ?_
  refine (follows_putValues hs (List.filter_subset_self _) (by simp) hstart).mono ?_
  rintro inner g ⟨hg, hothers⟩
  refine ⟨hg, ?_⟩
  rw [hothers .json (by simp)]
  simp [hf.entries]

theorem follows_putEmbedded {es : Entries Value} {f : Frame}
    (hs : p.descriptor.skipSerialize = false) (hf : Filling c v .json es f) :
    Follows (p.scope w call) f (putEmbedded p.constants p) (p.fillEmbedded w call c v es)
      (Filling c v .json) := by
  unfold putEmbedded Plan.fillEmbedded
  split
  · refine (follows_fillEmbedded hs hf).append ?_
    rintro inner g ⟨hg, hjson⟩
    refine Follows.of_eval (g := fun es' => g.set .json (.map es')) ?_ ?_
    · rw [Stmt.exec_put hjson, Expr.eval_var hg.entries]
      rfl
    · intro es' _
      exact ⟨by simp [hg.value], hg.context, by simp⟩
  · exact Follows.nil hf

theorem eval_isInstance {s : Scope} {f : Frame} (h : f.vars .value = some v) (t : JavaType) :
    (Expr.isInstance .value t).eval s f =
      .ok (.bool (v.kind = .model t.qualifiedName)) := by
  simp [Expr.eval, Frame.get_eq_ok h]

/-- The fields that a variant adds, as an expression. -/
theorem eval_variantFields {a : PlannedVariant} {es : Entries Value} {f : Frame}
    (hf : Filling c v .json es f) :
    (Expr.callMapper a.mapper .toJson
      [.cast (.declared a.model) (.var .value), .var .requestContext]).eval (p.scope w call) f =
      a.fields call c v := by
  rw [Expr.eval_callMapper_context hf.context (by simp), PlannedVariant.fields]
  simp only [Expr.eval, Frame.get_eq_ok hf.value, lift_ok, ok_bind]
  rfl

/-- All entries of what an expression gives are put behind those that are there. -/
theorem exec_putAll_allEntries {s : Scope} {f : Frame} {x : Var} {es : Entries Value}
    (hv : f.vars x = some (.map es)) (e : Expr) :
    Stmt.exec s f (.putAll x e) = e.eval s f >>= fun value =>
      (liftM value.allEntries : Outcome (Entries Value)) >>= fun more =>
        .ok (.next (f.set x (.map (es.insertAll more)))) := by
  simp only [Stmt.exec]
  refine bind_congr_ok ?_
  intro value _
  cases value with
  | map more => simp [Value.allEntries, Frame.map_eq hv, Value.entries]
  | _ => rfl

theorem follows_putVariant {x : PlannedDispatch} {a : PlannedVariant} {es : Entries Value}
    {f : Frame} (hf : Filling c v .json es f) :
    Follows (p.scope w call) f [putVariant x a] (x.put call c v es a) (Filling c v .json) := by
  have hwhen := Stmt.exec_when (s := p.scope w call) (eval_isInstance hf.value a.model)
  unfold PlannedDispatch.put
  by_cases hkind : v.kind = .model a.model.qualifiedName
  · simp only [hkind, decide_true, if_true] at hwhen ⊢
    have hput : Filling c v .json (es.insert x.discriminator (.string a.id))
        (f.set .json (.map (es.insert x.discriminator (.string a.id)))) := hf.set (by simp)
    refine Follows.of_eval (g := fun es' =>
      (f.set .json (.map (es.insert x.discriminator (.string a.id)))).set .json (.map es')) ?_ ?_
    · refine (hwhen _).trans ?_
      rw [Stmt.execAll_cons_next ((Stmt.exec_put hf.entries _ _).trans rfl),
        Stmt.execAll_singleton]
      cases x.nestedAttribute with
      | some key =>
        refine (Stmt.exec_put hput.entries key _).trans ?_
        rw [eval_variantFields hput, bind_assoc]
        rfl
      | none =>
        refine (exec_putAll_allEntries hput.entries _).trans ?_
        rw [eval_variantFields hput, bind_assoc]
        refine bind_congr_ok ?_
        intro value _
        rw [bind_assoc]
        rfl
    · intro es' _
      exact hput.set (by simp)
  · simp only [hkind, decide_false, if_false] at hwhen ⊢
    refine Follows.of_eval (g := fun _ => f) (hwhen _) ?_
    intro es' hes
    obtain rfl := Except.ok.inj hes
    exact hf

theorem follows_putVariants {es : Entries Value} {f : Frame} (hf : Filling c v .json es f) :
    Follows (p.scope w call) f (putVariants p) (p.putVariants call c v es)
      (Filling c v .json) := by
  unfold putVariants Plan.putVariants
  cases p.dispatch with
  | none => exact Follows.nil hf
  | some x => exact Follows.loop (fun a _ es f hf => follows_putVariant hf) hf

/-! ## The method -/

theorem follows_toJsonBody (call : Caller) (hs : p.descriptor.skipSerialize = false) {f : Frame}
    (hvalue : f.vars .value = some v) (hcontext : f.context = some c) :
    Follows (p.scope w call) f
      (.declare .json .container .newContainer :: putLinks p.constants p ++
        p.plainAttributes.map (putValue p.constants .json) ++ putEmbedded p.constants p ++
        putVariants p)
      (p.entries w call c v) (Filling c v .json) := by
  have hstart : Filling c v .json [] (f.set .json (.map [])) :=
    ⟨by simp [hvalue], hcontext, by simp⟩
  have hlinks : Follows (p.scope w call) f
      (.declare .json .container .newContainer :: putLinks p.constants p)
      (liftM (p.linkEntries w c v) : Outcome (Entries Value)) (Filling c v .json) :=
    Follows.cons (g := f.set .json (.map [])) rfl (follows_putLinks hs hstart)
  have hplain := hlinks.append fun es g hg => follows_putPlain hs hg
  have hembedded := hplain.append fun es g hg => follows_putEmbedded hs hg
  have hvariants := hembedded.append fun es g hg => follows_putVariants hg
  unfold Plan.entries Plan.ownEntries
  simpa only [bind_assoc] using hvariants

/-- Run on a value, the body that writes makes the entries of its plan. -/
theorem run_toJsonMethod_eq_entries (hs : p.descriptor.skipSerialize = false) (w : World)
    (call : Caller) (c : RequestContext) (v : Value) :
    (toJsonMethod p.constants p).run (p.scope w call) [v] (some c) =
      (p.entries w call c v).map .map := by
  have hbody := (follows_toJsonBody (w := w) (v := v) (c := c) call hs
    (f := .ofCall [⟨.value, .declared p.descriptor.model⟩, ⟨.requestContext, .requestContext⟩]
      [v] (some c))
    rfl rfl).execAll_ret (e := .var .json) (r := .map) fun es g hg => Expr.eval_var hg.entries
  unfold Method.run
  refine (congrArg (· >>= _) hbody).trans ?_
  rw [bind_map, map_eq_bind]
  rfl

/-- A mapper that is found under a name writes what its plan makes, unless it skips writing. -/
theorem toJson_eq_entries {name : String} (hget : w.mappers.get? name = some p.toMapper)
    (hs : p.descriptor.skipSerialize = false) (v : Value) (c : RequestContext) :
    w.toJson name v c = (p.entries w (w.call (w.depthFor v)) c v).map .map := by
  unfold World.toJson World.run World.runWithin
  rw [World.mapper_eq_ok.mpr hget, lift_ok, ok_bind, Plan.runMethod_toMapper, Descriptor.skips, hs]
  exact run_toJsonMethod_eq_entries hs w _ c v

/-- What a mapper writes is what its plan makes. -/
theorem exists_entries_of_toJson {name : String} {out : Value}
    (hget : w.mappers.get? name = some p.toMapper) (hout : w.toJson name v c = .ok out) :
    ∃ es, out = .map es ∧ p.entries w (w.call (w.depthFor v)) c v = .ok es := by
  have hs : p.descriptor.skipSerialize = false := by
    by_contra hskip
    unfold World.toJson World.run World.runWithin at hout
    rw [World.mapper_eq_ok.mpr hget, lift_ok, ok_bind, Plan.runMethod_toMapper, Descriptor.skips,
      if_pos (by simpa using hskip)] at hout
    cases hout
  rw [toJson_eq_entries hget hs, map_eq_bind] at hout
  obtain ⟨es, hes, hout⟩ := bind_eq_ok.mp hout
  cases hout
  exact ⟨es, rfl, hes⟩

end Writing

end JsonMapping
