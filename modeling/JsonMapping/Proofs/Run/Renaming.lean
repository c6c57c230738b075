import JsonMapping.Proofs.Scope.Runs

/-! Other names for constants. A body whose constants are renamed runs as it did, in any scope where
the new names stand for what the old ones stood for and where the calls that it makes give the same.
What else the scopes hold does not count. The main statement is `Method.run_rename`. -/

namespace JsonMapping

/-! ## Renaming -/

namespace Expr

mutual
def rename (names : String → String) : Expr → Expr
  | .isNull e => .isNull (rename names e)
  | .cast t e => .cast t (rename names e)
  | .apply c e => .apply (names c) (rename names e)
  | .links c v context => .links (names c) v context
  | .callMapper t k args => .callMapper t k (renameAll names args)
  | e => e
def renameAll (names : String → String) : List Expr → List Expr
  | [] => []
  | e :: rest => rename names e :: renameAll names rest
end

end Expr

namespace Stmt

mutual
def rename (names : String → String) : Stmt → Stmt
  | .declare v t e => .declare v t (e.rename names)
  | .assign v e => .assign v (e.rename names)
  | .put v key e => .put v key (e.rename names)
  | .putAll v e => .putAll v (e.rename names)
  | .setAttribute v a e => .setAttribute v a (e.rename names)
  | .when e body => .when (e.rename names) (renameAll names body)
  | .select e arms => .select (e.rename names) (renameArms names arms)
  | .ret e => .ret (e.rename names)
def renameAll (names : String → String) : List Stmt → List Stmt
  | [] => []
  | s :: rest => rename names s :: renameAll names rest
def renameArms (names : String → String) : List (String × List Stmt) → List (String × List Stmt)
  | [] => []
  | (text, body) :: rest => (text, renameAll names body) :: renameArms names rest
end

theorem renameAll_eq_map (names : String → String) (stmts : List Stmt) :
    renameAll names stmts = stmts.map (rename names) := by
  induction stmts with
  | nil => rfl
  | cons s rest ih => rw [renameAll, ih, List.map_cons]

theorem renameArms_eq_map (names : String → String) (arms : List (String × List Stmt)) :
    renameArms names arms = arms.map fun (text, body) => (text, body.map (rename names)) := by
  induction arms with
  | nil => rfl
  | cons arm rest ih => rw [renameArms, ih, List.map_cons, renameAll_eq_map]

end Stmt

def Method.rename (names : String → String) (m : Method) : Method :=
  { m with body := m.body.map (Stmt.rename names) }

/-! ## Scopes that answer alike -/

/-- The worlds differ in their mappers only. -/
structure World.SameBindings (w w' : World) : Prop where
  helpers : w'.helpers = w.helpers
  linksProviders : w'.linksProviders = w.linksProviders
  defaults : w'.defaults = w.defaults

namespace World.SameBindings

variable {w w' : World} (h : w.SameBindings w') (t : JavaType)
include h

theorem helper_eq : w'.helper t = w.helper t := by rw [helper, helper, h.helpers]

theorem linksProvider_eq : w'.linksProvider t = w.linksProvider t := by
  rw [linksProvider, linksProvider, h.linksProviders]

theorem instantiate_eq : w'.instantiate t = w.instantiate t := by
  rw [instantiate, instantiate, h.defaults]

end World.SameBindings

/-- What is demanded under an old name in one scope is there under the new name in the other. -/
def Scope.Answers (names : String → String) (s s' : Scope) : Demand → Prop
  | .helper c | .links c => s'.constantType (names c) = s.constantType c
  | .call t k _ => s'.call t k = s.call t k

/-! ## Runs -/

section Runs

variable {names : String → String} {s s' : Scope}

namespace Expr

theorem rename_eq_requestContext {e : Expr} :
    e.rename names = .var .requestContext ↔ e = .var .requestContext := by
  cases e <;> simp [rename]

mutual
theorem eval_rename (hw : s.world.SameBindings s'.world) (e : Expr) (f : Frame)
    (hd : ∀ d ∈ e.demands, s.Answers names s' d) :
    (e.rename names).eval s' f = e.eval s f := by
  cases e with
  | var _ | null | text _ | newContainer | emptyList | getAttribute _ _ | hasKey _ _ | lookup _ _
  | subContainer _ _ | isInstance _ _ => simp only [rename, eval]
  | newModel t => simp only [rename, eval, hw.instantiate_eq]
  | isNull e | cast t e =>
    simp only [demands] at hd
    simp only [rename, eval, eval_rename hw e f hd]
  | apply c e =>
    obtain ⟨hc, hd⟩ := List.forall_mem_cons.mp hd
    have hc : s'.constantType (names c) = s.constantType c := hc
    simp only [rename, eval, eval_rename hw e f hd, hc, hw.helper_eq]
  | links c v context =>
    have hc : s'.constantType (names c) = s.constantType c := hd _ List.mem_cons_self
    simp only [rename, eval, hc, hw.linksProvider_eq]
  | callMapper t k args =>
    obtain ⟨hcall, hd⟩ := List.forall_mem_cons.mp hd
    have hcall : s'.call t k = s.call t k := hcall
    simp only [rename, eval, evalArgs_renameAll hw args f hd, hcall]
  | mapEach v t k context =>
    have hcall : s'.call t k = s.call t k := hd _ List.mem_cons_self
    simp only [rename, eval, hcall]
theorem evalArgs_renameAll (hw : s.world.SameBindings s'.world) (args : List Expr) (f : Frame)
    (hd : ∀ d ∈ argDemands args, s.Answers names s' d) :
    evalArgs s' f (renameAll names args) = evalArgs s f args := by
  cases args with
  | nil => simp only [renameAll, evalArgs]
  | cons e rest =>
    obtain ⟨hfirst, hrest⟩ := List.forall_mem_append.mp hd
    have ih := evalArgs_renameAll hw rest f hrest
    -- the request context is handed on, not evaluated, so it has to stay what it is
    by_cases he : e = .var .requestContext
    · subst he
      simp only [renameAll, rename, evalArgs, ih]
    · have he' : e.rename names ≠ .var .requestContext := rename_eq_requestContext.not.mpr he
      rw [renameAll, evalArgs, evalArgs, eval_rename hw e f hfirst, ih]
      · exact he
      · exact he'
end

theorem test_rename (hw : s.world.SameBindings s'.world) (e : Expr) (f : Frame)
    (hd : ∀ d ∈ e.demands, s.Answers names s' d) :
    (e.rename names).test s' f = e.test s f := by
  rw [test, test, eval_rename hw e f hd]

end Expr

namespace Stmt

mutual
theorem exec_rename (hw : s.world.SameBindings s'.world) (stmt : Stmt) (f : Frame)
    (hd : ∀ d ∈ stmt.demands, s.Answers names s' d) :
    exec s' f (stmt.rename names) = exec s f stmt := by
  cases stmt with
  | declare v t e | assign v e | put v key e | putAll v e | setAttribute v a e | ret e =>
    simp only [demands] at hd
    simp only [rename, exec, Expr.eval_rename hw e f hd]
  | when e body =>
    obtain ⟨htest, hbody⟩ := List.forall_mem_append.mp hd
    simp only [rename, exec, Expr.test_rename hw e f htest, execAll_renameAll hw body f hbody]
  | select e arms =>
    obtain ⟨hscrutinee, harms⟩ := List.forall_mem_append.mp hd
    simp only [rename, exec, Expr.eval_rename hw e f hscrutinee,
      execArm_renameArms hw arms f _ harms]
theorem execAll_renameAll (hw : s.world.SameBindings s'.world) (stmts : List Stmt) (f : Frame)
    (hd : ∀ d ∈ demandsAll stmts, s.Answers names s' d) :
    execAll s' f (renameAll names stmts) = execAll s f stmts := by
  cases stmts with
  | nil => simp only [renameAll, execAll]
  | cons stmt rest =>
    obtain ⟨hfirst, hrest⟩ := List.forall_mem_append.mp hd
    simp only [renameAll, execAll, exec_rename hw stmt f hfirst]
    refine bind_congr_ok ?_
    intro flow _
    cases flow with
    | next g => exact execAll_renameAll hw rest g hrest
    | done result => rfl
theorem execArm_renameArms (hw : s.world.SameBindings s'.world) (arms : List (String × List Stmt))
    (f : Frame) (scrutinee : Value) (hd : ∀ d ∈ armDemands arms, s.Answers names s' d) :
    execArm s' f scrutinee (renameArms names arms) = execArm s f scrutinee arms := by
  match arms with
  | [] => simp only [renameArms, execArm]
  | (text, body) :: rest =>
    obtain ⟨hfirst, hrest⟩ := List.forall_mem_append.mp hd
    simp only [renameArms, execArm, execAll_renameAll hw body f hfirst,
      execArm_renameArms hw rest f scrutinee hrest]
end

end Stmt

theorem Method.run_rename (hw : s.world.SameBindings s'.world) (m : Method) (args : List Value)
    (context : Option RequestContext) (hd : ∀ d ∈ m.demands, s.Answers names s' d) :
    (m.rename names).run s' args context = m.run s args context := by
  have hbody := Stmt.execAll_renameAll hw m.body (.ofCall m.params args context) hd
  rw [Stmt.renameAll_eq_map] at hbody
  unfold Method.run
  exact congrArg (· >>= _) hbody

end Runs

end JsonMapping
