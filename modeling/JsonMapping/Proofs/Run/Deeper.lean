import JsonMapping.Proofs.Outcome
import JsonMapping.Run.Call

/-! Runs with more depth. A run that comes to an end gives the same however much deeper calls may
nest, for all mappers, derived or not. The main statement is `World.runWithin_persists`. -/

namespace JsonMapping

/-- If the first run comes to an end, the second ends in the same way. -/
def Persists {α : Type} (x y : Outcome α) : Prop := x ≠ .error .tooDeep → y = x

namespace Persists

variable {α β : Type}

theorem refl (x : Outcome α) : Persists x x := fun _ => rfl

theorem of_tooDeep (y : Outcome α) : Persists (.error .tooDeep) y := fun h => absurd rfl h

theorem trans {x y z : Outcome α} (hxy : Persists x y) (hyz : Persists y z) : Persists x z := by
  intro hends
  have heq := hxy hends
  exact (hyz (heq ▸ hends)).trans heq

theorem bind {x y : Outcome α} {k l : α → Outcome β} (hx : Persists x y)
    (hk : ∀ a, Persists (k a) (l a)) : Persists (x >>= k) (y >>= l) := by
  intro hends
  have hfirst : x ≠ .error .tooDeep := by
    rintro rfl
    exact hends rfl
  rw [hx hfirst]
  cases x with
  | ok a => exact hk a hends
  | error e => rfl

theorem bind_same {x : Outcome α} {k l : α → Outcome β} (hk : ∀ a, Persists (k a) (l a)) :
    Persists (x >>= k) (x >>= l) :=
  (refl x).bind hk

theorem mapM {f g : α → Outcome β} (h : ∀ a, Persists (f a) (g a)) (as : List α) :
    Persists (as.mapM f) (as.mapM g) := by
  induction as with
  | nil => exact refl _
  | cons a rest ih =>
    rw [List.mapM_cons, List.mapM_cons]
    exact (h a).bind fun b => ih.bind fun bs => refl _

end Persists

/-! ## Bodies -/

/-- The second scope answers all calls that come to an end in the first. -/
structure Scope.Deepens (s s' : Scope) : Prop where
  world : s'.world = s.world
  mapper : s'.mapper = s.mapper
  call : ∀ t k args context, Persists (s.call t k args context) (s'.call t k args context)

section Bodies

variable {s s' : Scope}

theorem Scope.Deepens.constantType_eq (h : s.Deepens s') (name : String) :
    s'.constantType name = s.constantType name := by
  rw [constantType, constantType, h.mapper]

namespace Expr

mutual
theorem eval_persists (h : s.Deepens s') (f : Frame) (e : Expr) :
    Persists (e.eval s f) (e.eval s' f) := by
  cases e with
  | null | text _ | newContainer | emptyList | var _ | isInstance _ _ | getAttribute _ _
  | hasKey _ _ | lookup _ _ | subContainer _ _ =>
    simp only [eval]
    exact .refl _
  | newModel t =>
    simp only [eval, h.world]
    exact .refl _
  | links c v context =>
    simp only [eval, h.world, h.constantType_eq]
    exact .refl _
  | isNull e | cast t e =>
    simp only [eval]
    exact (eval_persists h f e).bind fun _ => .refl _
  | apply c e =>
    simp only [eval, h.world, h.constantType_eq]
    exact (eval_persists h f e).bind fun _ => .refl _
  | callMapper t k args =>
    simp only [eval]
    exact (evalArgs_persists h f args).bind fun found => h.call t k found.1 found.2
  | mapEach v t k context =>
    simp only [eval]
    refine .bind_same fun c => .bind_same fun items => ?_
    exact (Persists.mapM (fun item => h.call t k [item] c) items).bind fun _ => .refl _
theorem evalArgs_persists (h : s.Deepens s') (f : Frame) (args : List Expr) :
    Persists (evalArgs s f args) (evalArgs s' f args) := by
  cases args with
  | nil => exact .refl _
  | cons e rest =>
    have hrest := evalArgs_persists h f rest
    by_cases he : e = .var .requestContext
    · subst he
      simp only [evalArgs]
      exact .bind_same fun _ => hrest.bind fun _ => .refl _
    · rw [evalArgs, evalArgs]
      · exact (eval_persists h f e).bind fun _ => hrest.bind fun _ => .refl _
      · exact he
      · exact he
end

theorem test_persists (h : s.Deepens s') (f : Frame) (e : Expr) :
    Persists (e.test s f) (e.test s' f) :=
  (eval_persists h f e).bind fun _ => .refl _

end Expr

namespace Stmt

mutual
theorem exec_persists (h : s.Deepens s') (f : Frame) (stmt : Stmt) :
    Persists (exec s f stmt) (exec s' f stmt) := by
  cases stmt with
  | declare v t e | assign v e | put v key e | putAll v e | setAttribute v a e | ret e =>
    simp only [exec]
    exact (Expr.eval_persists h f e).bind fun _ => .refl _
  | when e body =>
    simp only [exec]
    refine (Expr.test_persists h f e).bind fun b => ?_
    cases b with
    | true => exact execAll_persists h f body
    | false => exact .refl _
  | select e arms =>
    simp only [exec]
    exact (Expr.eval_persists h f e).bind fun scrutinee => execArm_persists h f scrutinee arms
theorem execAll_persists (h : s.Deepens s') (f : Frame) (stmts : List Stmt) :
    Persists (execAll s f stmts) (execAll s' f stmts) := by
  cases stmts with
  | nil => exact .refl _
  | cons stmt rest =>
    simp only [execAll]
    refine (exec_persists h f stmt).bind fun flow => ?_
    cases flow with
    | next g => exact execAll_persists h g rest
    | done result => exact .refl _
theorem execArm_persists (h : s.Deepens s') (f : Frame) (scrutinee : Value)
    (arms : List (String × List Stmt)) :
    Persists (execArm s f scrutinee arms) (execArm s' f scrutinee arms) := by
  match arms with
  | [] => exact .refl _
  | (text, body) :: rest =>
    simp only [execArm]
    split
    · exact execAll_persists h f body
    · exact execArm_persists h f scrutinee rest
end

end Stmt

theorem Method.run_persists (h : s.Deepens s') (m : Method) (args : List Value)
    (context : Option RequestContext) : Persists (m.run s args context) (m.run s' args context) :=
  (Stmt.execAll_persists h _ m.body).bind fun _ => .refl _

end Bodies

/-! ## Calls -/

namespace World

variable {w : World} {call call' : Caller}

theorem runMethod_persists
    (h : ∀ t k args context, Persists (call t k args context) (call' t k args context)) (m : Mapper)
    (k : MethodKind) (args : List Value) (context : Option RequestContext) :
    Persists (w.runMethod call m k args context) (w.runMethod call' m k args context) := by
  unfold runMethod
  cases m.method? k with
  | none => exact .refl _
  | some method =>
    have hscope : Scope.Deepens ⟨w, m, call⟩ ⟨w, m, call'⟩ := ⟨rfl, rfl, h⟩
    exact Method.run_persists hscope method args context

theorem call_persists {depth depth' : Nat} (h : depth ≤ depth') (t : JavaType) (k : MethodKind)
    (args : List Value) (context : Option RequestContext) :
    Persists (w.call depth t k args context) (w.call depth' t k args context) := by
  induction depth generalizing depth' t k args context with
  | zero => exact .of_tooDeep _
  | succ depth ih =>
    obtain ⟨depth', rfl⟩ : ∃ n, depth' = n + 1 := ⟨depth' - 1, by omega⟩
    refine .bind_same fun m => runMethod_persists (fun t k args context => ?_) m k args context
    exact ih (by omega) t k args context

/-- A run that comes to an end gives the same with more depth. -/
theorem runWithin_persists {depth depth' : Nat} (h : depth ≤ depth') (name : String)
    (k : MethodKind) (v : Value) (context : Option RequestContext) :
    Persists (w.runWithin depth name k v context) (w.runWithin depth' name k v context) :=
  .bind_same fun m => runMethod_persists (call_persists h) m k [v] context

end World

end JsonMapping
