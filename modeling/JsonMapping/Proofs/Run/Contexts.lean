import Mathlib.Logic.Relation
import JsonMapping.Proofs.Run.Directions

/-! The request context is handed on and not looked at. Two runs whose contexts are related stay in
step: where the links providers do not tell related contexts apart, they end in the same way. The
main statement is `context_is_forwarded`. -/

namespace JsonMapping

/-- Both results are the same error, or values that are related. -/
inductive ExceptRel {ε α β : Type} (R : α → β → Prop) : Except ε α → Except ε β → Prop where
  | ok {a : α} {b : β} (h : R a b) : ExceptRel R (.ok a) (.ok b)
  | error (e : ε) : ExceptRel R (.error e) (.error e)

namespace ExceptRel

variable {ε α β γ δ : Type} {R : α → β → Prop} {Q : γ → δ → Prop}

theorem bind {x : Except ε α} {y : Except ε β} {k : α → Except ε γ} {l : β → Except ε δ}
    (h : ExceptRel R x y) (hk : ∀ a b, R a b → ExceptRel Q (k a) (l b)) :
    ExceptRel Q (x >>= k) (y >>= l) := by
  cases h with
  | ok h => exact hk _ _ h
  | error e => exact .error e

theorem map {x : Except ε α} {y : Except ε β} {F : α → γ} {G : β → δ} (h : ExceptRel R x y)
    (hk : ∀ a b, R a b → Q (F a) (G b)) : ExceptRel Q (F <$> x) (G <$> y) := by
  cases h with
  | ok h => exact .ok (hk _ _ h)
  | error e => exact .error e

/-- One result, and related runs after it. -/
theorem bind_same {x : Except ε α} {k : α → Except ε γ} {l : α → Except ε δ}
    (hk : ∀ a, ExceptRel Q (k a) (l a)) : ExceptRel Q (x >>= k) (x >>= l) := by
  cases x with
  | ok a => exact hk a
  | error e => exact .error e

theorem bind_eq {x : Except ε α} {y : Except ε β} {k : α → Except ε γ} {l : β → Except ε γ}
    (h : ExceptRel R x y) (hk : ∀ a b, R a b → l b = k a) : y >>= l = x >>= k := by
  cases h with
  | ok h => exact hk _ _ h
  | error e => rfl

theorem lift {x : Except RunError α} {y : Except RunError β} (h : ExceptRel R x y) :
    ExceptRel R (liftM x : Outcome α) (liftM y : Outcome β) := by
  cases h with
  | ok h => exact .ok h
  | error e => exact .error _

end ExceptRel

/-! ## Frames -/

section Frames

/-- The frames hold the same values, and related contexts. -/
structure Frame.Related (ρ : RequestContext → RequestContext → Prop) (f g : Frame) : Prop where
  vars : g.vars = f.vars
  context : Option.Rel ρ f.context g.context

variable {ρ : RequestContext → RequestContext → Prop} {f g : Frame}

namespace Frame.Related

theorem get_eq (h : f.Related ρ g) (v : Var) : g.get v = f.get v := by
  rw [get, get, h.vars]

theorem map_eq (h : f.Related ρ g) (v : Var) : g.map v = f.map v := by
  rw [map, map, h.get_eq]

theorem list_eq (h : f.Related ρ g) (v : Var) : g.list v = f.list v := by
  rw [list, list, h.get_eq]

theorem model_eq (h : f.Related ρ g) (v : Var) (use : NullUse) :
    g.model v use = f.model v use := by
  rw [model, model, h.get_eq]

theorem requestContext (h : f.Related ρ g) :
    ExceptRel ρ f.requestContext g.requestContext := by
  have hcontext := h.context
  unfold Frame.requestContext
  generalize f.context = x, g.context = y at hcontext
  cases hcontext with
  | some hrelated => exact .ok hrelated
  | none => exact .error _

theorem set (h : f.Related ρ g) (v : Var) (value : Value) :
    (f.set v value).Related ρ (g.set v value) where
  vars := by rw [Frame.set, Frame.set, h.vars]
  context := h.context

theorem bind (h : f.Related ρ g) (params : List Param) (args : List Value) :
    (f.bind params args).Related ρ (g.bind params args) := by
  induction params generalizing f g args with
  | nil => exact h
  | cons p rest ih =>
    unfold Frame.bind
    split
    · exact ih h args
    · exact ih (h.set _ _) args.tail

theorem ofCall {x y : Option RequestContext} (h : Option.Rel ρ x y) (params : List Param)
    (args : List Value) : (Frame.ofCall params args x).Related ρ (Frame.ofCall params args y) :=
  bind (f := ⟨fun _ => none, x⟩) (g := ⟨fun _ => none, y⟩) ⟨rfl, h⟩ params args

end Frame.Related

/-- Both statements end with related frames, or with one result. -/
inductive Flow.Related (ρ : RequestContext → RequestContext → Prop) : Flow → Flow → Prop where
  | next {f g : Frame} (h : f.Related ρ g) : Related ρ (.next f) (.next g)
  | done (result : Value) : Related ρ (.done result) (.done result)

end Frames

/-! ## Bodies -/

/-- The scopes answer a demand alike, as long as the contexts are related. -/
def Scope.Alike (ρ : RequestContext → RequestContext → Prop) (s s' : Scope) : Demand → Prop
  | .helper c => (s'.constantType c >>= s'.world.helper) = (s.constantType c >>= s.world.helper)
  | .links c => ExceptRel (fun p p' => ∀ v a b, ρ a b → p' v b = p v a)
      (s.constantType c >>= s.world.linksProvider) (s'.constantType c >>= s'.world.linksProvider)
  | .call t k _ => ∀ args x y, Option.Rel ρ x y → s'.call t k args y = s.call t k args x

section Bodies

variable {ρ : RequestContext → RequestContext → Prop} {s s' : Scope} {f g : Frame}

namespace Expr

mutual
theorem eval_related (hw : s'.world.defaults = s.world.defaults) (e : Expr) (hf : f.Related ρ g)
    (hd : ∀ d ∈ e.demands, s.Alike ρ s' d) : e.eval s' g = e.eval s f := by
  cases e with
  | null | text _ | newContainer | emptyList => simp only [eval]
  | newModel t => simp only [eval, World.instantiate, hw]
  | var v | isInstance v t => simp only [eval, hf.get_eq]
  | getAttribute v a => simp only [eval, hf.model_eq]
  | hasKey v key | lookup v key | subContainer v key => simp only [eval, hf.map_eq]
  | isNull e | cast t e =>
    simp only [demands] at hd
    simp only [eval, eval_related hw e hf hd]
  | apply c e =>
    obtain ⟨hc, hd⟩ := List.forall_mem_cons.mp hd
    have hc : (liftM (s'.constantType c >>= s'.world.helper) : Outcome Helper) =
        liftM (s.constantType c >>= s.world.helper) := congrArg _ hc
    rw [lift_bind, lift_bind] at hc
    simp only [eval, eval_related hw e hf hd, ← bind_assoc, hc]
  | links c v context =>
    have hc := (hd _ List.mem_cons_self).lift
    rw [lift_bind, lift_bind] at hc
    simp only [eval]
    split
    · rfl
    · simp only [hf.get_eq, ← bind_assoc]
      congr 1
      refine hc.bind_eq fun provider provider' hprovider => bind_congr fun value => ?_
      exact hf.requestContext.lift.bind_eq fun a b hab => by rw [hprovider value a b hab]
  | callMapper t k args =>
    obtain ⟨hcall, hd⟩ := List.forall_mem_cons.mp hd
    simp only [eval]
    refine (evalArgs_related hw args hf hd).bind_eq ?_
    rintro ⟨values, x⟩ ⟨values', y⟩ ⟨rfl, hcontext⟩
    exact hcall values x y hcontext
  | mapEach v t k context =>
    have hcall := hd _ List.mem_cons_self
    have hcontext : ExceptRel (Option.Rel ρ)
        (context.mapM fun _ => (liftM f.requestContext : Outcome RequestContext))
        (context.mapM fun _ => (liftM g.requestContext : Outcome RequestContext)) := by
      cases context with
      | none => exact .ok .none
      | some _ => exact hf.requestContext.lift.map fun _ _ h => .some h
    simp only [eval, hf.list_eq]
    refine hcontext.bind_eq fun x y hxy => ?_
    simp only [hcall _ x y hxy]
theorem evalArgs_related (hw : s'.world.defaults = s.world.defaults) (args : List Expr)
    (hf : f.Related ρ g) (hd : ∀ d ∈ argDemands args, s.Alike ρ s' d) :
    ExceptRel (fun x y => x.1 = y.1 ∧ Option.Rel ρ x.2 y.2) (evalArgs s f args)
      (evalArgs s' g args) := by
  cases args with
  | nil =>
    simp only [evalArgs]
    exact .ok ⟨rfl, .none⟩
  | cons e rest =>
    obtain ⟨hfirst, hrest⟩ := List.forall_mem_append.mp hd
    have ih := evalArgs_related hw rest hf hrest
    by_cases he : e = .var .requestContext
    · subst he
      simp only [evalArgs]
      refine hf.requestContext.lift.bind fun a b hab => ?_
      exact ih.bind fun x y hxy => .ok ⟨hxy.1, .some hab⟩
    · rw [evalArgs, evalArgs, eval_related hw e hf hfirst]
      · refine ExceptRel.bind_same fun value => ?_
        exact ih.bind fun x y hxy => .ok ⟨congrArg (value :: ·) hxy.1, hxy.2⟩
      · exact he
      · exact he
end

theorem test_related (hw : s'.world.defaults = s.world.defaults) (e : Expr) (hf : f.Related ρ g)
    (hd : ∀ d ∈ e.demands, s.Alike ρ s' d) : e.test s' g = e.test s f := by
  rw [test, test, eval_related hw e hf hd]

end Expr

namespace Stmt

mutual
theorem exec_related (hw : s'.world.defaults = s.world.defaults) (stmt : Stmt) {f g : Frame}
    (hf : f.Related ρ g) (hd : ∀ d ∈ stmt.demands, s.Alike ρ s' d) :
    ExceptRel (Flow.Related ρ) (exec s f stmt) (exec s' g stmt) := by
  cases stmt with
  | declare v t e | assign v e =>
    simp only [demands] at hd
    simp only [exec, Expr.eval_related hw e hf hd]
    exact .bind_same fun value => .ok (.next (hf.set v value))
  | put v key e =>
    simp only [demands] at hd
    simp only [exec, Expr.eval_related hw e hf hd, hf.map_eq]
    exact .bind_same fun value => .bind_same fun entries => .ok (.next (hf.set v _))
  | putAll v e =>
    simp only [demands] at hd
    simp only [exec, Expr.eval_related hw e hf hd, hf.map_eq]
    refine .bind_same fun value => ?_
    cases value with
    | map entries => exact .bind_same fun _ => .ok (.next (hf.set v _))
    | _ => exact .error _
  | setAttribute v a e =>
    simp only [demands] at hd
    simp only [exec, Expr.eval_related hw e hf hd, hf.model_eq]
    exact .bind_same fun value => .bind_same fun found => .ok (.next (hf.set v _))
  | ret e =>
    simp only [demands] at hd
    simp only [exec, Expr.eval_related hw e hf hd]
    exact .bind_same fun value => .ok (.done value)
  | when e body =>
    obtain ⟨htest, hbody⟩ := List.forall_mem_append.mp hd
    simp only [exec, Expr.test_related hw e hf htest]
    refine .bind_same fun b => ?_
    cases b with
    | true => exact execAll_related hw body hf hbody
    | false => exact .ok (.next hf)
  | select e arms =>
    obtain ⟨hscrutinee, harms⟩ := List.forall_mem_append.mp hd
    simp only [exec, Expr.eval_related hw e hf hscrutinee]
    exact .bind_same fun scrutinee => execArm_related hw arms hf scrutinee harms
theorem execAll_related (hw : s'.world.defaults = s.world.defaults) (stmts : List Stmt)
    {f g : Frame} (hf : f.Related ρ g) (hd : ∀ d ∈ demandsAll stmts, s.Alike ρ s' d) :
    ExceptRel (Flow.Related ρ) (execAll s f stmts) (execAll s' g stmts) := by
  cases stmts with
  | nil =>
    simp only [execAll]
    exact .ok (.next hf)
  | cons stmt rest =>
    obtain ⟨hfirst, hrest⟩ := List.forall_mem_append.mp hd
    simp only [execAll]
    refine (exec_related hw stmt hf hfirst).bind ?_
    rintro _ _ (hnext | result)
    · exact execAll_related hw rest hnext hrest
    · exact .ok (.done result)
theorem execArm_related (hw : s'.world.defaults = s.world.defaults)
    (arms : List (String × List Stmt)) {f g : Frame} (hf : f.Related ρ g) (scrutinee : Value)
    (hd : ∀ d ∈ armDemands arms, s.Alike ρ s' d) :
    ExceptRel (Flow.Related ρ) (execArm s f scrutinee arms) (execArm s' g scrutinee arms) := by
  match arms with
  | [] =>
    simp only [execArm]
    exact .ok (.next hf)
  | (text, body) :: rest =>
    obtain ⟨hfirst, hrest⟩ := List.forall_mem_append.mp hd
    simp only [execArm]
    split
    · exact execAll_related hw body hf hfirst
    · exact execArm_related hw rest hf scrutinee hrest
end

end Stmt

/-- A method gives one result under related contexts, in scopes that answer its demands alike. -/
theorem Method.run_related (hw : s'.world.defaults = s.world.defaults) (m : Method)
    (args : List Value) {x y : Option RequestContext} (hxy : Option.Rel ρ x y)
    (hd : ∀ d ∈ m.demands, s.Alike ρ s' d) : m.run s' args y = m.run s args x := by
  unfold run
  refine (Stmt.execAll_related hw m.body (Frame.Related.ofCall hxy m.params args) hd).bind_eq ?_
  rintro _ _ (hnext | result) <;> rfl

end Bodies

/-! ## Worlds -/

namespace World

/-- A method of the first mapper calls a method of the second. -/
def Calls (w : World) (m n : Mapper) : Prop :=
  ∃ method ∈ m.methods, ∃ t k context, .call t k context ∈ method.demands ∧
    w.mappers.get? t.qualifiedName = some n

/-- For the mappers under consideration, which only call each other, the worlds differ in nothing
but how the links providers take the contexts. -/
structure InStep (ρ : RequestContext → RequestContext → Prop) (here : Mapper → Prop)
    (w w' : World) : Prop where
  mappers : w'.mappers = w.mappers
  helpers : w'.helpers = w.helpers
  defaults : w'.defaults = w.defaults
  closed : ∀ m n, here m → w.Calls m n → here n
  links : ∀ m, here m → ∀ method ∈ m.methods, ∀ c, .links c ∈ method.demands → ∀ t,
    ExceptRel (fun p p' => ∀ v a b, ρ a b → p' v b = p v a) (w.linksProvider t)
      (w'.linksProvider t)

namespace InStep

variable {ρ : RequestContext → RequestContext → Prop} {here : Mapper → Prop} {w w' : World}
  {x y : Option RequestContext}

theorem runMethod_eq (h : w.InStep ρ here w') {call call' : Caller} {m : Mapper} (hm : here m)
    (hcall : ∀ t, (∀ n, w.mappers.get? t.qualifiedName = some n → here n) →
      ∀ k args x y, Option.Rel ρ x y → call' t k args y = call t k args x)
    (k : MethodKind) (args : List Value) (hxy : Option.Rel ρ x y) :
    w'.runMethod call' m k args y = w.runMethod call m k args x := by
  unfold runMethod
  cases hmethod : m.method? k with
  | none => rfl
  | some method =>
    have hmem : method ∈ m.methods := List.mem_of_find?_eq_some hmethod
    refine Method.run_related h.defaults method args hxy fun d hd => ?_
    cases d with
    | helper c =>
      refine bind_congr fun t => ?_
      rw [helper, helper, h.helpers]
    | links c => exact .bind_same (h.links m hm method hmem c hd)
    | call t k context =>
      exact hcall t (fun n hn => h.closed m n hm ⟨method, hmem, t, k, context, hd, hn⟩) k

/-- The names under which there are only mappers under consideration count. -/
theorem simulates (h : w.InStep ρ here w') :
    w.Simulates (fun name => ∀ m, w.mappers.get? name = some m → here m) (fun _ => True)
      (Option.Rel ρ) (fun m m' => m' = m ∧ here m) w' where
  mappers name hname := by
    rw [h.mappers]
    cases hm : w.mappers.get? name with
    | none => exact .none
    | some m => exact .some ⟨rfl, hname m hm⟩
  runMethod call call' hcall m m' hm k _ args x y hxy := by
    obtain ⟨rfl, hm⟩ := hm
    exact h.runMethod_eq hm (fun t ht k args x y => hcall t ht k trivial args x y) k args hxy

theorem runWithin_eq (h : w.InStep ρ here w') {name : String}
    (hname : ∀ m, w.mappers.get? name = some m → here m) (depth : Nat) (k : MethodKind)
    (v : Value) (hxy : Option.Rel ρ x y) :
    w'.runWithin depth name k v y = w.runWithin depth name k v x :=
  h.simulates.runWithin_eq depth hname trivial v hxy

theorem run_eq (h : w.InStep ρ here w') {name : String}
    (hname : ∀ m, w.mappers.get? name = some m → here m) (k : MethodKind) (v : Value)
    (hxy : Option.Rel ρ x y) : w'.run name k v y = w.run name k v x :=
  h.simulates.run_eq (congrArg List.length h.mappers) hname trivial v hxy

end InStep

/-- The worlds hold the same mappers, helpers and defaults, and links providers for the same types:
those of the first make of `c` what those of the second make of `c'`. -/
structure Forwards (c c' : RequestContext) (w w' : World) : Prop where
  mappers : w'.mappers = w.mappers
  helpers : w'.helpers = w.helpers
  defaults : w'.defaults = w.defaults
  linksProviders : ∀ type, Option.Rel (fun p p' => ∀ v, p' v c' = p v c)
    (w.linksProviders.get? type) (w'.linksProviders.get? type)

theorem Forwards.inStep {c c' : RequestContext} {w w' : World} (h : w.Forwards c c' w') :
    w.InStep (fun a b => a = c ∧ b = c') (fun _ => True) w' where
  mappers := h.mappers
  helpers := h.helpers
  defaults := h.defaults
  closed _ _ _ _ := trivial
  links _ _ _ _ _ _ t := by
    have hproviders := h.linksProviders t.qualifiedName
    unfold linksProvider
    generalize w.linksProviders.get? t.qualifiedName = p,
      w'.linksProviders.get? t.qualifiedName = p' at hproviders
    cases hproviders with
    | none => exact .error _
    | some hsame =>
      refine .ok ?_
      rintro v _ _ ⟨rfl, rfl⟩
      exact hsame v

end World

/-! ## Mappers without links -/

namespace Derive

open Stmt

variable {p : Plan} {table : List Constant} {c : String}

theorem links_not_mem_writeValue (a : PlannedAttribute) :
    .links c ∉ (writeValue table a).demands := by
  unfold writeValue
  split <;> simp [Expr.demands, Expr.argDemands]

theorem links_not_mem_readValue (a : PlannedAttribute) (v : Var) (key : String) :
    .links c ∉ (readValue table a (.lookup v key)).demands := by
  have hcast : ∀ t : Option JavaType, (castTo t (.lookup v key)).demands = [] := by
    intro t
    cases t <;> simp [castTo, Expr.demands]
  unfold readValue
  split <;> simp [Expr.demands, Expr.argDemands, hcast]

theorem links_not_mem_toJsonBody (h : p.links = none) :
    .links c ∉ demandsAll (toJsonBody table p) := by
  have hput : ∀ target (as : List PlannedAttribute),
      .links c ∉ demandsAll (as.map (putValue table target)) := by
    simp [mem_demandsAll, putValue, demands, links_not_mem_writeValue]
  have hembedded : .links c ∉ demandsAll (putEmbedded table p) := by
    unfold putEmbedded
    split <;> simp [demandsAll, demandsAll_append, demands, Expr.demands, hput]
  have hvariant : ∀ x v, .links c ∉ (putVariant x v).demands := by
    intro x v
    cases hx : x.nestedAttribute <;>
      simp [putVariant, hx, demands, demandsAll, Expr.demands, Expr.argDemands]
  have hvariants : .links c ∉ demandsAll (putVariants p) := by
    unfold putVariants
    split <;> simp [mem_demandsAll, demandsAll, hvariant]
  simp [toJsonBody, putLinks, h, demandsAll, demandsAll_append, demands, Expr.demands, hput,
    hembedded, hvariants]

theorem links_not_mem_fromJsonBody : .links c ∉ demandsAll (fromJsonBody table p) := by
  have hset : .links c ∉ demandsAll (p.attributes.map (setValue table)) := by
    simp [mem_demandsAll, setValue, demands, demandsAll, Expr.demands, links_not_mem_readValue]
  have hfind : .links c ∉ demandsAll (findEmbedded p) := by
    unfold findEmbedded
    split <;> simp [demandsAll, demands, Expr.demands]
  have hvariant : ∀ x v, .links c ∉ demandsAll (readVariant x v).2 := by
    intro x v
    cases hx : x.nestedAttribute <;>
      simp [readVariant, variantSource, hx, demands, demandsAll, Expr.demands, Expr.argDemands]
  have hmake : .links c ∉ demandsAll (makeModel p) := by
    unfold makeModel constructVariant
    split <;> simp [demandsAll, demands, Expr.demands, mem_armDemands, hvariant]
  unfold fromJsonBody readModel
  split <;> simp [demandsAll, demandsAll_append, demands, Expr.demands, hset, hfind, hmake]

/-- Only the method that writes one model asks for links, and only where the plan has them. -/
theorem exists_links_of_mem_demands {k : MethodKind} (h : .links c ∈ (p.method k).demands) :
    k = .toJson ∧ ∃ t, p.links = some t := by
  cases k with
  | toJson =>
    refine ⟨rfl, Option.ne_none_iff_exists'.mp fun hnone => ?_⟩
    exact links_not_mem_toJsonBody hnone h
  | fromJson => exact absurd h links_not_mem_fromJsonBody
  | toJsonCollection | fromJsonCollection =>
    simp [Method.demands, Plan.method, toJsonCollectionMethod, listWritingMethod,
      fromJsonCollectionMethod, listReadingMethod, demandsAll, demands, Expr.demands] at h

/-- The links provider is the first helper, so its constant has no other role. -/
theorem exists_linksProvider_constant {t : JavaType} (hs : p.descriptor.skipSerialize = false)
    (ht : p.links = some t) : ∃ constant ∈ p.constants, constant.role = .linksProvider := by
  have huses : p.helperUses = (t, .linksProvider) :: p.helperUses.tail := by
    simp [Plan.helperUses, Plan.writingUses, hs, ht]
  rw [Plan.constants, constantsFor, huses, List.foldl_cons]
  exact ⟨_, mem_foldl_declareHelper_of_mem _ (List.mem_singleton_self _), rfl⟩

end Derive

namespace World

open Derive in
theorem IsDerived.exists_linksProvider {w : World} (hw : w.IsDerived) {name : String} {m : Mapper}
    (hm : w.mappers.get? name = some m) {method : Method} (hmethod : method ∈ m.methods)
    {c : String} (h : .links c ∈ method.demands) :
    ∃ constant ∈ m.constants, constant.role = .linksProvider := by
  obtain ⟨reg, g, d, hderive⟩ := hw name m hm
  obtain ⟨rfl, -⟩ := derive_ok hderive
  obtain ⟨k, hs, rfl⟩ := Plan.mem_methods_iff.mp hmethod
  obtain ⟨rfl, t, ht⟩ := exists_links_of_mem_demands h
  exact exists_linksProvider_constant hs ht

/-- The mapper is the one of the name, or calls lead from that one to it. -/
def Reaches (w : World) (name : String) (n : Mapper) : Prop :=
  ∃ m, w.mappers.get? name = some m ∧ Relation.ReflTransGen w.Calls m n

variable {w : World} {name : String}

theorem Reaches.exists_get? {n : Mapper} (h : w.Reaches name n) :
    ∃ type, w.mappers.get? type = some n := by
  obtain ⟨m, hm, hcalls⟩ := h
  cases hcalls with
  | refl => exact ⟨name, hm⟩
  | tail _ hlast =>
    obtain ⟨_, _, t, _, _, _, hn⟩ := hlast
    exact ⟨t.qualifiedName, hn⟩

/-- Where no mapper within reach has a links provider, any two contexts are related. -/
theorem IsDerived.inStep (hw : w.IsDerived)
    (h : ∀ n, w.Reaches name n → ∀ constant ∈ n.constants, constant.role ≠ .linksProvider) :
    w.InStep (fun _ _ => True) (w.Reaches name) w where
  mappers := rfl
  helpers := rfl
  defaults := rfl
  closed := by
    rintro m n ⟨first, hfirst, hcalls⟩ hlast
    exact ⟨first, hfirst, hcalls.tail hlast⟩
  links m hm method hmethod c hc _ := by
    obtain ⟨type, hget⟩ := hm.exists_get?
    obtain ⟨constant, hmem, hrole⟩ := hw.exists_linksProvider hget hmethod hc
    exact absurd hrole (h m hm constant hmem)

end World

/-- Whatever mappers there are, two runs under two contexts give the same result or the same error
where the links providers of the one make of its context what those of the other make of theirs. And
where no mapper within reach of calls has a links provider, what a derived mapper writes does not
depend on the context. -/
theorem context_is_forwarded :
    (∀ (c c' : RequestContext) (w w' : World), w.Forwards c c' w' → ∀ name v,
      w'.toJson name v c' = w.toJson name v c ∧
      w'.toJsonList name v c' = w.toJsonList name v c ∧
      ∀ depth k, w'.runWithin depth name k v (some c') = w.runWithin depth name k v (some c)) ∧
    ∀ (w : World) (name : String), w.IsDerived →
      (∀ n, w.Reaches name n → ∀ constant ∈ n.constants, constant.role ≠ .linksProvider) →
      ∀ c c' v,
        w.toJson name v c' = w.toJson name v c ∧
        w.toJsonList name v c' = w.toJsonList name v c ∧
        ∀ depth k, w.runWithin depth name k v (some c') = w.runWithin depth name k v (some c) := by
  constructor
  · intro c c' w w' h name v
    have hrelated : Option.Rel (fun a b => a = c ∧ b = c') (some c) (some c') := .some ⟨rfl, rfl⟩
    have hname : ∀ m, w.mappers.get? name = some m → True := fun _ _ => trivial
    exact ⟨h.inStep.run_eq hname .toJson v hrelated,
      h.inStep.run_eq hname .toJsonCollection v hrelated,
      fun depth k => h.inStep.runWithin_eq hname depth k v hrelated⟩
  · intro w name hw h c c' v
    have hstep := hw.inStep h
    have hrelated : Option.Rel (fun _ _ => True) (some c) (some c') := .some trivial
    have hname : ∀ m, w.mappers.get? name = some m → w.Reaches name m :=
      fun m hm => ⟨m, hm, .refl⟩
    exact ⟨hstep.run_eq hname .toJson v hrelated, hstep.run_eq hname .toJsonCollection v hrelated,
      fun depth k => hstep.runWithin_eq hname depth k v hrelated⟩

namespace Sample

open Derive

def linker : JavaType := typeNamed ⟨"TeamLinks", by decide⟩

def linkedTeam : Descriptor := { team with linksProvider := some linker }

def linkedMapper : Mapper := (planned teams {} linkedTeam).toMapper

/-- A team with the links that come of its context. -/
def linkedWorld (links : RequestContext → String) : World where
  mappers := [("gen.com.TeamMapper", linkedMapper)]
  linksProviders :=
    [(linker.qualifiedName, fun _ context => .ok [("self", .string (links context))])]

def home : RequestContext := { baseUrl := "http://home/" }

def away : RequestContext := { baseUrl := "http://away" }

theorem urlFor_home : home.urlFor "team" = "http://home/team" := by decide +kernel

theorem forwards_linkedWorld :
    (linkedWorld (·.urlFor "team")).Forwards home away
      (linkedWorld fun _ => "http://home/team") where
  mappers := by simp only [linkedWorld]
  helpers := by simp only [linkedWorld]
  defaults := by simp only [linkedWorld]
  linksProviders type := by
    simp only [linkedWorld, Entries.get?]
    split
    · exact .some fun v => by rw [urlFor_home]
    · exact .none

/-- The world of all teams. -/
def teamsWorld : World := World.loadAll {} (mappersOf teams)

theorem isDerived_teamsWorld : teamsWorld.IsDerived := by
  intro name m hm
  obtain ⟨hmem, -⟩ := World.holdsOnly_loadAll rfl (mappersOf teams) name m hm
  have hms : teams.deriveAll {} = .ok (mappersOf teams) := rfl
  obtain ⟨d, -, hderive⟩ := exists_of_mem_of_mapM_eq_ok hms hmem
  exact ⟨_, _, d, hderive⟩

theorem unlinked_teamsWorld (name : String) (n : Mapper) (h : teamsWorld.Reaches name n) :
    ∀ constant ∈ n.constants, constant.role ≠ .linksProvider := by
  obtain ⟨type, hget⟩ := h.exists_get?
  obtain ⟨hmem, -⟩ := World.holdsOnly_loadAll rfl (mappersOf teams) type n hget
  have hnone : ∀ m ∈ mappersOf teams, m.constants = [] := by decide
  simp [hnone n hmem]

/-- Links that are made of one context or written out for another, and teams without links. -/
theorem context_is_forwarded_teams :
    ((linkedWorld (·.urlFor "team")).Forwards home away
        (linkedWorld fun _ => "http://home/team") ∧
      ∀ v, (linkedWorld fun _ => "http://home/team").toJson "gen.com.TeamMapper" v away =
        (linkedWorld (·.urlFor "team")).toJson "gen.com.TeamMapper" v home) ∧
    teamsWorld.IsDerived ∧
    (∀ n, teamsWorld.Reaches "gen.com.TeamMapper" n →
      ∀ constant ∈ n.constants, constant.role ≠ .linksProvider) ∧
    ∀ v, teamsWorld.toJson "gen.com.TeamMapper" v away =
      teamsWorld.toJson "gen.com.TeamMapper" v home := by
  obtain ⟨hforwards, hfree⟩ := context_is_forwarded
  have hunlinked := unlinked_teamsWorld "gen.com.TeamMapper"
  have hlinked := fun v => (hforwards _ _ _ _ forwards_linkedWorld "gen.com.TeamMapper" v).1
  have hteams := fun v => (hfree _ _ isDerived_teamsWorld hunlinked home away v).1
  exact ⟨⟨forwards_linkedWorld, hlinked⟩, isDerived_teamsWorld, hunlinked, hteams⟩

end Sample

end JsonMapping
