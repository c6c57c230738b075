import JsonMapping.Proofs.Outcome
import JsonMapping.Proofs.Scope.Basic
import JsonMapping.Run.Call

/-! Runs find what they look for. A run looks for variables, helpers, mappers and methods by name.
What is said here is said of any selection of these: where each body keeps to its scopes and the
world provides what the bodies demand of it, no run ends because something selected is missing,
whatever the arguments are and however deep the calls nest. -/

namespace JsonMapping

/-- What a run may look for by name. -/
inductive Lookup where
  | variable
  | helper
  | mapper
  | method
deriving DecidableEq

/-- What was looked for where an error says that nothing was found. -/
def RunError.lookup? : RunError → Option Lookup
  | .unboundVar _ => some .variable
  | .unboundHelper _ => some .helper
  | .unknownMapper _ => some .mapper
  | .missingMethod _ _ => some .method
  | .typeMismatch _ _ | .nullDereference _ | .notSerializable _ => none

/-- The run ends because nothing was found where it looked for a thing of the kind. -/
def Misses {α : Type} (kind : Lookup) : Outcome α → Prop
  | .error (.fault e) => e.lookup? = some kind
  | .error .tooDeep | .ok _ => False

instance {α : Type} (kind : Lookup) (x : Outcome α) : Decidable (Misses kind x) :=
  match x with
  | .error (.fault e) => inferInstanceAs (Decidable (e.lookup? = some kind))
  | .error .tooDeep | .ok _ => isFalse id

/-- The run gives a result with the property, or ends otherwise than by missing a thing of the given
kinds. -/
def Finds {α : Type} (kinds : List Lookup) (P : α → Prop) : Outcome α → Prop
  | .ok a => P a
  | .error (.fault e) => ∀ k ∈ e.lookup?, k ∉ kinds
  | .error .tooDeep => True

/-- Any result will do. -/
abbrev FindsAll {α : Type} (kinds : List Lookup) (x : Outcome α) : Prop :=
  Finds kinds (fun _ => True) x

section Finds

variable {α β : Type} {kinds : List Lookup} {P : α → Prop} {Q : β → Prop}

namespace Finds

theorem mono {x : Outcome α} {P' : α → Prop} (h : Finds kinds P x) (hP : ∀ a, P a → P' a) :
    Finds kinds P' x := by
  cases x with
  | ok a => exact hP a h
  | error e => cases e <;> exact h

theorem bind {x : Outcome α} {k : α → Outcome β} (hx : Finds kinds P x)
    (hk : ∀ a, P a → Finds kinds Q (k a)) : Finds kinds Q (x >>= k) := by
  cases x with
  | ok a => exact hk a hx
  | error e => cases e <;> exact hx

theorem mapM {f : α → Outcome β} {as : List α} (h : ∀ a, FindsAll kinds (f a)) :
    FindsAll kinds (as.mapM f) := by
  induction as with
  | nil => trivial
  | cons a rest ih =>
    rw [List.mapM_cons]
    refine (h a).bind ?_
    intro b _
    exact ih.bind fun _ _ => trivial

theorem not_misses {x : Outcome α} {kind : Lookup} (h : Finds kinds P x) (hkind : kind ∈ kinds) :
    ¬ Misses kind x := by
  intro hmisses
  cases x with
  | ok a => exact hmisses
  | error halt =>
    cases halt with
    | tooDeep => exact hmisses
    | fault e => exact h kind hmisses hkind

/-- An error that is about no name. -/
theorem fault {e : RunError} (h : e.lookup? = none) : Finds kinds P (.error (.fault e)) := by
  intro k hk
  rw [h] at hk
  cases hk

end Finds

end Finds

/-! ## Variables -/

namespace Frame

/-- What is read is there. -/
def Has (f : Frame) : Read → Prop
  | .value v => ∃ value, f.vars v = some value
  | .context v => v = .requestContext ∧ ∃ c, f.context = some c

/-- All that is in scope is there. -/
def Covers (f : Frame) (scope : List Read) : Prop := ∀ r ∈ scope, f.Has r

variable {f : Frame} {scope scope' : List Read} {kinds : List Lookup} {v : Var}

theorem Covers.mono (h : f.Covers scope) (hsub : scope' ⊆ scope) : f.Covers scope' :=
  fun r hr => h r (hsub hr)

theorem Has.set {r : Read} (h : f.Has r) (v : Var) (value : Value) : (f.set v value).Has r := by
  cases r with
  | context u => exact h
  | value u =>
    by_cases hu : u = v
    · exact ⟨value, by simp [hu]⟩
    · simpa [Has, hu] using h

theorem Covers.set (h : f.Covers scope) (v : Var) (value : Value) :
    (f.set v value).Covers (.value v :: scope) := by
  intro r hr
  rcases List.mem_cons.mp hr with rfl | hr
  · exact ⟨value, by simp⟩
  · exact (h r hr).set v value

/-- A call covers what the parameters let the body read. -/
theorem Covers.bind {params : List Param} (args : List Value) (h : f.Covers scope)
    (hcontext : ∀ p ∈ params, p.type = .requestContext →
      p.var = .requestContext ∧ ∃ c, f.context = some c) :
    (f.bind params args).Covers (params.map Param.read ++ scope) := by
  -- along the parameters, with what the earlier ones let the body read in the scope
  induction params generalizing f scope args with
  | nil => exact h
  | cons p rest ih =>
    have hsub : (p :: rest).map Param.read ++ scope ⊆
        rest.map Param.read ++ (p.read :: scope) := by
      rw [List.map_cons, List.cons_append]
      exact List.perm_middle.symm.subset
    refine Covers.mono ?_ hsub
    unfold Frame.bind
    split
    · rename_i htype
      have hread : p.read = .context p.var := if_pos htype
      refine ih args ?_ fun q hq => hcontext q (List.mem_cons_of_mem _ hq)
      intro r hr
      rcases List.mem_cons.mp hr with rfl | hr
      · rw [hread]
        exact hcontext p List.mem_cons_self htype
      · exact h r hr
    · rename_i htype
      have hread : p.read = .value p.var := if_neg htype
      rw [hread]
      exact ih args.tail (h.set _ _) fun q hq => hcontext q (List.mem_cons_of_mem _ hq)

theorem finds_get (h : f.Has (.value v)) : FindsAll kinds (liftM (f.get v)) := by
  obtain ⟨value, hv⟩ := h
  simp [get, hv, Finds]

theorem finds_map (h : f.Has (.value v)) : FindsAll kinds (liftM (f.map v)) := by
  unfold map
  rw [lift_bind]
  refine (finds_get h).bind ?_
  intro value _
  cases value with
  | map entries => trivial
  | _ => exact .fault rfl

theorem finds_list (h : f.Has (.value v)) : FindsAll kinds (liftM (f.list v)) := by
  unfold list
  rw [lift_bind]
  refine (finds_get h).bind ?_
  intro value _
  cases value with
  | list items => trivial
  | _ => exact .fault rfl

theorem finds_model (h : f.Has (.value v)) (use : NullUse) :
    FindsAll kinds (liftM (f.model v use)) := by
  unfold model
  rw [lift_bind]
  refine (finds_get h).bind ?_
  intro value _
  cases value with
  | model type fields => trivial
  | _ => exact .fault rfl

end Frame

theorem Value.finds_cast {kinds : List Lookup} (v : Value) (t : ValueType) :
    FindsAll kinds (liftM (v.cast t)) := by
  unfold cast
  split
  · trivial
  · exact .fault rfl

/-! ## Demands -/

/-- What a body asks of the world around it. -/
inductive Demand where
  | helper (constant : String)
  | links (constant : String)
  /-- A method of a mapper, called with the request context or without. -/
  | call (mapper : JavaType) (method : MethodKind) (context : Bool)
deriving DecidableEq

namespace Expr

/-- The request context is among the arguments. -/
def givesContext : List Expr → Bool
  | [] => false
  | .var .requestContext :: _ => true
  | _ :: rest => givesContext rest

mutual
def demands : Expr → List Demand
  | .isNull e | .cast _ e => demands e
  | .apply c e => .helper c :: demands e
  | .links c _ _ => [.links c]
  | .callMapper t k args => .call t k (givesContext args) :: argDemands args
  | .mapEach _ t k context => [.call t k context.isSome]
  | .var _ | .null | .text _ | .newContainer | .newModel _ | .emptyList | .getAttribute _ _
  | .hasKey _ _ | .lookup _ _ | .subContainer _ _ | .isInstance _ _ => []
def argDemands : List Expr → List Demand
  | [] => []
  | e :: rest => demands e ++ argDemands rest
end

end Expr

namespace Stmt

mutual
def demands : Stmt → List Demand
  | .declare _ _ e | .assign _ e | .put _ _ e | .putAll _ e | .setAttribute _ _ e | .ret e =>
    e.demands
  | .when e body => e.demands ++ demandsAll body
  | .select e arms => e.demands ++ armDemands arms
def demandsAll : List Stmt → List Demand
  | [] => []
  | s :: rest => demands s ++ demandsAll rest
def armDemands : List (String × List Stmt) → List Demand
  | [] => []
  | (_, body) :: rest => demandsAll body ++ armDemands rest
end

end Stmt

def Method.demands (m : Method) : List Demand := Stmt.demandsAll m.body

/-- Within the scope, a demand is met without missing anything of the given kinds. -/
def Scope.Meets (s : Scope) (kinds : List Lookup) : Demand → Prop
  | .helper c => ∀ v, FindsAll kinds
      (liftM (do (← s.world.helper (← s.constantType c)) v) : Outcome Value)
  | .links c => ∀ v context, FindsAll kinds
      (liftM (do (← s.world.linksProvider (← s.constantType c)) v context) :
        Outcome (Entries Value))
  | .call t k context => ∀ args given, (context = true → ∃ c, given = some c) →
      FindsAll kinds (s.call t k args given)

/-! ## Bodies -/

section Bodies

variable {s : Scope} {f : Frame} {scope : List Read} {kinds : List Lookup}

namespace Expr

mutual
theorem finds_eval (e : Expr) (hf : f.Covers e.reads)
    (hd : ∀ d ∈ e.demands, s.Meets kinds d) : FindsAll kinds (e.eval s f) := by
  cases e with
  | null | text _ | newContainer | newModel _ | emptyList =>
    simp only [eval]
    trivial
  | var v =>
    simp only [eval]
    exact Frame.finds_get (hf _ (by simp [reads]))
  | getAttribute v a =>
    simp only [eval]
    exact (Frame.finds_model (hf _ (by simp [reads])) _).bind fun _ _ => trivial
  | hasKey v key | lookup v key =>
    simp only [eval]
    exact (Frame.finds_map (hf _ (by simp [reads]))).bind fun _ _ => trivial
  | subContainer v key =>
    simp only [eval]
    refine (Frame.finds_map (hf _ (by simp [reads]))).bind ?_
    intro entries _
    split
    · trivial
    · exact Value.finds_cast _ _
  | isInstance v t =>
    simp only [eval]
    exact (Frame.finds_get (hf _ (by simp [reads]))).bind fun _ _ => trivial
  | isNull e =>
    simp only [reads, demands] at hf hd
    simp only [eval]
    exact (finds_eval e hf hd).bind fun _ _ => trivial
  | cast t e =>
    simp only [reads, demands] at hf hd
    simp only [eval]
    exact (finds_eval e hf hd).bind fun value _ => Value.finds_cast value t
  | apply c e =>
    simp only [reads, demands] at hf hd
    simp only [eval]
    refine (finds_eval e hf fun d hmem => hd d (List.mem_cons_of_mem _ hmem)).bind ?_
    intro value _
    simpa only [lift_bind] using hd _ List.mem_cons_self value
  | links c v context =>
    obtain ⟨rfl, given, hgiven⟩ := hf (.context context) (by simp [reads])
    obtain ⟨value, hv⟩ := hf (.value v) (by simp [reads])
    have hlinks := hd (.links c) (by simp [demands]) value given
    have heval : eval s f (.links c v .requestContext) =
        (liftM (do (← s.world.linksProvider (← s.constantType c)) value given) :
          Outcome (Entries Value)) >>= fun entries => .ok (.map entries) := by
      simp only [eval, ne_eq, not_true, if_false, Frame.get, hv, Frame.requestContext, hgiven,
        lift_ok, ok_bind, lift_bind, bind_assoc, pure_eq_ok]
    rw [heval]
    exact hlinks.bind fun _ _ => trivial
  | callMapper t k args =>
    simp only [reads, demands] at hf hd
    simp only [eval]
    refine (finds_evalArgs args hf fun d hmem => hd d (List.mem_cons_of_mem _ hmem)).bind ?_
    rintro ⟨values, given⟩ hgiven
    exact hd _ List.mem_cons_self values given hgiven
  | mapEach v t k context =>
    have hcall := hd (.call t k context.isSome) (by simp [demands])
    have hlist : FindsAll kinds (liftM (f.list v)) := Frame.finds_list (hf _ (by simp [reads]))
    have hgiven : Finds kinds (fun given => context.isSome = true → ∃ c, given = some c)
        (context.mapM fun _ => (liftM f.requestContext : Outcome RequestContext)) := by
      cases context with
      | none => simp [Finds]
      | some u =>
        obtain ⟨-, c, hc⟩ := hf (.context u) (by simp [reads])
        simp only [Frame.requestContext, hc, Option.mapM_some, lift_ok]
        exact fun _ => ⟨c, rfl⟩
    simp only [eval]
    refine hgiven.bind ?_
    intro given hgiven
    refine hlist.bind ?_
    intro items _
    exact (Finds.mapM fun item => hcall [item] given hgiven).bind fun _ _ => trivial
theorem finds_evalArgs (args : List Expr) (hf : f.Covers (argReads args))
    (hd : ∀ d ∈ argDemands args, s.Meets kinds d) :
    Finds kinds (fun result : List Value × Option RequestContext =>
      givesContext args = true → ∃ c, result.2 = some c) (evalArgs s f args) := by
  cases args with
  | nil => simp [Finds, givesContext]
  | cons e rest =>
    by_cases he : e = .var .requestContext
    · subst he
      simp only [argReads, argDemands, List.mem_append] at hf hd
      obtain ⟨-, c, hc⟩ := hf (.context .requestContext) List.mem_cons_self
      have hrest := finds_evalArgs rest (hf.mono (List.subset_cons_self _ _))
        fun d hmem => hd d (.inr hmem)
      simp only [evalArgs, Frame.requestContext, hc, lift_ok, ok_bind]
      exact hrest.bind fun _ _ _ => ⟨c, rfl⟩
    · rw [argReads] at hf
      · have hfirst := finds_eval e (hf.mono (List.subset_append_left _ _))
          fun d hmem => hd d (List.mem_append_left _ hmem)
        have hrest := finds_evalArgs rest (hf.mono (List.subset_append_right _ _))
          fun d hmem => hd d (List.mem_append_right _ hmem)
        rw [evalArgs, givesContext]
        · refine hfirst.bind ?_
          intro value _
          exact hrest.bind fun _ hgiven => hgiven
        · exact he
        · exact he
      · exact he
end

end Expr

/-- The next statement starts with all that is in scope. -/
def Flow.Covers (scope : List Read) : Flow → Prop
  | .next g => g.Covers scope
  | .done _ => True

theorem Flow.Covers.mono {flow : Flow} {scope' : List Read} (h : flow.Covers scope)
    (hsub : scope' ⊆ scope) : flow.Covers scope' := by
  cases flow with
  | next g => exact Frame.Covers.mono h hsub
  | done result => trivial

namespace Expr

theorem finds_test (e : Expr) (hf : f.Covers e.reads) (hd : ∀ d ∈ e.demands, s.Meets kinds d) :
    FindsAll kinds (e.test s f) := by
  unfold test
  refine (finds_eval e hf hd).bind ?_
  intro value _
  cases value with
  | bool b => trivial
  | _ => exact .fault rfl

end Expr

namespace Stmt

mutual
/-- A statement leaves what was in scope before it and what it declares. -/
theorem finds_exec {f : Frame} {scope : List Read} (stmt : Stmt) (hs : stmt.Scoped scope)
    (hf : f.Covers scope) (hd : ∀ d ∈ stmt.demands, s.Meets kinds d) :
    Finds kinds (Flow.Covers (stmt.declares.map .value ++ scope)) (exec s f stmt) := by
  cases stmt with
  | declare v t e =>
    simp only [Scoped, demands] at hs hd
    simp only [exec]
    exact (e.finds_eval (hf.mono hs) hd).bind fun value _ => hf.set v value
  | assign v e =>
    simp only [Scoped, demands] at hs hd
    simp only [exec]
    exact (e.finds_eval (hf.mono hs.2) hd).bind fun value _ =>
      (hf.set v value).mono (List.subset_cons_self _ _)
  | put v key e =>
    simp only [Scoped, demands] at hs hd
    simp only [exec]
    refine (e.finds_eval (hf.mono hs.2) hd).bind ?_
    intro value _
    refine (Frame.finds_map (hf _ hs.1)).bind ?_
    intro entries _
    exact (hf.set v _).mono (List.subset_cons_self _ _)
  | putAll v e =>
    simp only [Scoped, demands] at hs hd
    simp only [exec]
    refine (e.finds_eval (hf.mono hs.2) hd).bind ?_
    intro value _
    cases value with
    | map more =>
      refine (Frame.finds_map (hf _ hs.1)).bind ?_
      intro entries _
      exact (hf.set v _).mono (List.subset_cons_self _ _)
    | _ => exact .fault rfl
  | setAttribute v a e =>
    simp only [Scoped, demands] at hs hd
    simp only [exec]
    refine (e.finds_eval (hf.mono hs.2) hd).bind ?_
    intro value _
    refine (Frame.finds_model (hf _ hs.1) _).bind ?_
    rintro ⟨type, fields⟩ _
    exact (hf.set v _).mono (List.subset_cons_self _ _)
  | when e body =>
    simp only [Scoped, demands, List.mem_append] at hs hd
    simp only [exec]
    refine (e.finds_test (hf.mono hs.1) fun d hmem => hd d (.inl hmem)).bind ?_
    intro b _
    split
    · exact finds_execAll body hs.2 hf fun d hmem => hd d (.inr hmem)
    · exact hf
  | select e arms =>
    simp only [Scoped, demands, List.mem_append] at hs hd
    simp only [exec]
    refine (e.finds_eval (hf.mono hs.1) fun d hmem => hd d (.inl hmem)).bind ?_
    intro scrutinee _
    exact finds_execArm arms scrutinee hs.2 hf fun d hmem => hd d (.inr hmem)
  | ret e =>
    simp only [Scoped, demands] at hs hd
    simp only [exec]
    exact (e.finds_eval (hf.mono hs) hd).bind fun _ _ => trivial
theorem finds_execAll {f : Frame} {scope : List Read} (stmts : List Stmt)
    (hs : ScopedAll scope stmts) (hf : f.Covers scope)
    (hd : ∀ d ∈ demandsAll stmts, s.Meets kinds d) :
    Finds kinds (Flow.Covers scope) (execAll s f stmts) := by
  cases stmts with
  | nil => exact hf
  | cons stmt rest =>
    simp only [ScopedAll, demandsAll, List.mem_append] at hs hd
    simp only [execAll]
    refine (finds_exec stmt hs.1 hf fun d hmem => hd d (.inl hmem)).bind ?_
    intro flow hflow
    cases flow with
    | next g =>
      exact (finds_execAll rest hs.2 hflow fun d hmem => hd d (.inr hmem)).mono fun _ h =>
        h.mono (List.subset_append_right _ _)
    | done result => trivial
theorem finds_execArm {f : Frame} {scope : List Read} (arms : List (String × List Stmt))
    (scrutinee : Value) (hs : ScopedArms scope arms) (hf : f.Covers scope)
    (hd : ∀ d ∈ armDemands arms, s.Meets kinds d) :
    Finds kinds (Flow.Covers scope) (execArm s f scrutinee arms) := by
  match arms with
  | [] => exact hf
  | (text, body) :: rest =>
    simp only [ScopedArms, armDemands, List.mem_append] at hs hd
    simp only [execArm]
    split
    · exact finds_execAll body hs.1 hf fun d hmem => hd d (.inl hmem)
    · exact finds_execArm rest scrutinee hs.2 hf fun d hmem => hd d (.inr hmem)
end

end Stmt

/-- A method that keeps to its scopes finds all that it looks for, where its demands are met. -/
theorem Method.finds_run {m : Method} (hm : m.WellScoped)
    (hd : ∀ d ∈ m.demands, s.Meets kinds d) (args : List Value) {given : Option RequestContext}
    (hgiven : m.kind.writes = true → ∃ c, given = some c) :
    FindsAll kinds (m.run s args given) := by
  have hstart : (Frame.ofCall m.params args given).Covers (m.params.map Param.read ++ []) := by
    have hempty : Frame.Covers { vars := fun _ => none, context := given } [] := by
      intro r hr
      cases hr
    refine hempty.bind args ?_
    intro p hp htype
    obtain ⟨hvar, hwrites⟩ := hm.context p hp htype
    exact ⟨hvar, hgiven hwrites⟩
  rw [List.append_nil] at hstart
  unfold Method.run
  refine (Stmt.finds_execAll m.body hm.uses hstart hd).bind ?_
  intro flow _
  cases flow <;> trivial

end Bodies

/-! ## Worlds -/

/-- What the world has for a demand of a mapper: a helper or a provider that misses nothing of the
given kinds, or one of the mappers, with the method if methods are looked for. Methods that write
are called with the request context. -/
def World.Provides (w : World) (kinds : List Lookup) (ms : List Mapper) (m : Mapper) :
    Demand → Prop
  | .helper name => ∃ c, m.constant? name = some c ∧ ∀ v, FindsAll kinds
      (liftM (do (← w.helper c.type) v) : Outcome Value)
  | .links name => ∃ c, m.constant? name = some c ∧ ∀ v context, FindsAll kinds
      (liftM (do (← w.linksProvider c.type) v context) : Outcome (Entries Value))
  | .call t k context => (k.writes = true → context = true) ∧ ∃ m' ∈ ms,
      w.mappers.get? t.qualifiedName = some m' ∧ (.method ∈ kinds → (m'.method? k).isSome)

/-- The mappers keep to their scopes, and the world provides what they demand. -/
structure World.Supports (w : World) (kinds : List Lookup) (ms : List Mapper) : Prop where
  wellScoped : ∀ m ∈ ms, ∀ method ∈ m.methods, method.WellScoped
  provides : ∀ m ∈ ms, ∀ method ∈ m.methods, ∀ d ∈ method.demands, w.Provides kinds ms m d

namespace World

variable {w : World} {kinds : List Lookup} {ms : List Mapper}

/-- A mapper's method finds all that it looks for if the calls inside do. -/
theorem Supports.finds_runMethod (h : w.Supports kinds ms) {call : Caller}
    (hcall : ∀ (t : JavaType) (k : MethodKind) (m' : Mapper) (args : List Value)
      (given : Option RequestContext), m' ∈ ms → w.mappers.get? t.qualifiedName = some m' →
      (.method ∈ kinds → (m'.method? k).isSome) → (k.writes = true → ∃ c, given = some c) →
      FindsAll kinds (call t k args given))
    {m : Mapper} {k : MethodKind} (hm : m ∈ ms) (hk : .method ∈ kinds → (m.method? k).isSome)
    (args : List Value) {given : Option RequestContext}
    (hgiven : k.writes = true → ∃ c, given = some c) :
    FindsAll kinds (w.runMethod call m k args given) := by
  unfold runMethod
  cases hfind : m.method? k with
  | none =>
    intro kind hkind hmem
    cases hkind
    have := hk hmem
    rw [hfind] at this
    cases this
  | some method =>
    have hmethod : method ∈ m.methods := List.mem_of_find?_eq_some hfind
    have hkind : method.kind = k := by simpa using List.find?_some hfind
    refine Method.finds_run (h.wellScoped m hm method hmethod) ?_ args (hkind ▸ hgiven)
    intro d hd
    have hprovides := h.provides m hm method hmethod d hd
    cases d with
    | helper name =>
      obtain ⟨c, hc, hfinds⟩ := hprovides
      simpa only [Scope.Meets, Scope.constantType, hc, ok_bind] using hfinds
    | links name =>
      obtain ⟨c, hc, hfinds⟩ := hprovides
      simpa only [Scope.Meets, Scope.constantType, hc, ok_bind] using hfinds
    | call t k' context =>
      obtain ⟨hwrites, m', hm', hget, hmethod'⟩ := hprovides
      intro args' given' hcontext
      exact hcall t k' m' args' given' hm' hget hmethod' fun hw => hcontext (hwrites hw)

/-- However deep calls may nest, a call to one of the mappers finds all that it looks for. -/
theorem Supports.finds_call (h : w.Supports kinds ms) (depth : Nat) {t : JavaType}
    {k : MethodKind} {m : Mapper} (args : List Value) {given : Option RequestContext} (hm : m ∈ ms)
    (hget : w.mappers.get? t.qualifiedName = some m)
    (hk : .method ∈ kinds → (m.method? k).isSome)
    (hgiven : k.writes = true → ∃ c, given = some c) :
    FindsAll kinds (w.call depth t k args given) := by
  induction depth generalizing t k m args given with
  | zero => trivial -- the bound is used up, which is no miss
  | succ depth ih =>
    unfold call callee
    rw [hget, lift_ok, ok_bind]
    exact h.finds_runMethod (fun t k m' args given hm' hget' hk' => ih args hm' hget' hk') hm hk
      args hgiven

/-- So does a run that starts with one of the mappers. -/
theorem Supports.finds_runWithin (h : w.Supports kinds ms) (depth : Nat) {name : String}
    {k : MethodKind} {m : Mapper} (hm : m ∈ ms) (hget : w.mappers.get? name = some m)
    (hk : .method ∈ kinds → (m.method? k).isSome) (v : Value) {given : Option RequestContext}
    (hgiven : k.writes = true → ∃ c, given = some c) :
    FindsAll kinds (w.runWithin depth name k v given) := by
  unfold runWithin mapper
  rw [hget, lift_ok, ok_bind]
  exact h.finds_runMethod (fun t k m' args given hm' hget' hk' hgiven' =>
    h.finds_call depth args hm' hget' hk' hgiven') hm hk [v] hgiven

/-- The ways into a mapper from outside, each with any argument. -/
inductive Runs (w : World) (name : String) : MethodKind → Outcome Value → Prop where
  | toJson (v : Value) (c : RequestContext) : Runs w name .toJson (w.toJson name v c)
  | toJsonList (v : Value) (c : RequestContext) :
      Runs w name .toJsonCollection (w.toJsonList name v c)
  | fromJson (v : Value) : Runs w name .fromJson (w.fromJson name v)
  | fromJsonList (v : Value) : Runs w name .fromJsonCollection (w.fromJsonList name v)

theorem Supports.finds_of_runs (h : w.Supports kinds ms) {name : String} {k : MethodKind}
    {m : Mapper} {x : Outcome Value} (hx : w.Runs name k x) (hm : m ∈ ms)
    (hget : w.mappers.get? name = some m) (hk : .method ∈ kinds → (m.method? k).isSome) :
    FindsAll kinds x := by
  cases hx with
  | toJson v c | toJsonList v c =>
    exact h.finds_runWithin (w.depthFor v) hm hget hk v fun _ => ⟨c, rfl⟩
  | fromJson v | fromJsonList v =>
    exact h.finds_runWithin (w.depthFor v) hm hget hk v fun hw => nomatch hw

end World

end JsonMapping
