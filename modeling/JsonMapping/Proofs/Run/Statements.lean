import JsonMapping.Proofs.Graph.Reading

/-! Bodies that follow a computation. Statements follow a computation if they end as it does: with
its error, or with variables that hold what it gives. Sequences of statements follow sequences of
computations, and a statement for each element of a list follows a loop over the list. -/

namespace JsonMapping

namespace Frame

theorem get_eq_ok {f : Frame} {v : Var} {value : Value} (h : f.vars v = some value) :
    f.get v = .ok value := by
  simp [get, h]

theorem requestContext_eq_ok {f : Frame} {c : RequestContext} (h : f.context = some c) :
    f.requestContext = .ok c := by
  simp [requestContext, h]

theorem map_eq {f : Frame} {v : Var} {value : Value} (h : f.vars v = some value) :
    f.map v = value.entries v := by
  simp only [map, get_eq_ok h, ok_bind]
  cases value <;> rfl

theorem list_eq {f : Frame} {v : Var} {value : Value} (h : f.vars v = some value) :
    f.list v = value.elements v := by
  simp only [list, get_eq_ok h, ok_bind]
  cases value <;> rfl

end Frame

/-! ## Expressions -/

namespace Expr

variable {s : Scope} {f : Frame} {v : Var} {value : Value}

theorem eval_var (h : f.vars v = some value) : eval s f (.var v) = .ok value := by
  simp [eval, Frame.get_eq_ok h]

theorem eval_getAttribute (h : f.vars v = some value) (a : Attribute) :
    eval s f (.getAttribute v a) = liftM (value.attribute a.name) := by
  simp only [eval, Frame.model, Frame.get_eq_ok h, ok_bind]
  cases value <;> rfl

theorem eval_lookup (h : f.vars v = some value) (key : String) :
    eval s f (.lookup v key) =
      (do return .ofEntry (← value.entries v) key : Outcome Value) := by
  simp only [eval, Frame.map_eq h]

theorem eval_apply {k : String} {e : Expr} {t : JavaType} (ht : s.constantType k = .ok t) :
    eval s f (.apply k e) =
      eval s f e >>= fun u => liftM (s.world.helper t >>= fun helper => helper u) := by
  simp only [eval, ht, lift_ok, ok_bind, lift_bind]

/-- A call with a value and the request context. -/
theorem eval_callMapper_context {c : RequestContext} {e : Expr} {t : JavaType} {kind : MethodKind}
    (hc : f.context = some c) (he : e ≠ .var .requestContext) :
    eval s f (.callMapper t kind [e, .var .requestContext]) =
      eval s f e >>= fun u => s.call t kind [u] (some c) := by
  have hargs : evalArgs s f [e, .var .requestContext] =
      eval s f e >>= fun u => .ok ([u], some c) := by
    rw [evalArgs]
    · simp [evalArgs, Frame.requestContext_eq_ok hc]
    · exact he
  simp only [eval, hargs, bind_assoc, ok_bind]

/-- A call with a value alone. -/
theorem eval_callMapper {e : Expr} {t : JavaType} {kind : MethodKind}
    (he : e ≠ .var .requestContext) :
    eval s f (.callMapper t kind [e]) = eval s f e >>= fun u => s.call t kind [u] none := by
  have hargs : evalArgs s f [e] = eval s f e >>= fun u => .ok ([u], none) := by
    rw [evalArgs]
    · simp [evalArgs]
    · exact he
  simp only [eval, hargs, bind_assoc, ok_bind]

theorem test_eq {e : Expr} {b : Bool} (h : eval s f e = .ok (.bool b)) : test s f e = .ok b := by
  simp [test, h]

end Expr

/-! ## Statements -/

namespace Stmt

variable {s : Scope} {f : Frame}

theorem execAll_cons_next {g : Frame} {stmt : Stmt} {rest : List Stmt}
    (h : exec s f stmt = .ok (.next g)) : execAll s f (stmt :: rest) = execAll s g rest := by
  simp [execAll, h]

theorem execAll_cons_done {result : Value} {stmt : Stmt} {rest : List Stmt}
    (h : exec s f stmt = .ok (.done result)) :
    execAll s f (stmt :: rest) = .ok (.done result) := by
  simp [execAll, h]

theorem execAll_singleton (stmt : Stmt) : execAll s f [stmt] = exec s f stmt := by
  simp only [execAll]
  cases exec s f stmt with
  | error e => rfl
  | ok flow => cases flow <;> rfl

theorem execAll_append (xs ys : List Stmt) :
    execAll s f (xs ++ ys) = execAll s f xs >>= fun flow => match flow with
      | .next g => execAll s g ys
      | .done result => .ok (.done result) := by
  induction xs generalizing f with
  | nil => rfl
  | cons stmt rest ih =>
    simp only [List.cons_append, execAll]
    cases exec s f stmt with
    | error e => rfl
    | ok flow =>
      cases flow with
      | next g => exact ih
      | done result => rfl

/-- An expression that ends as a computation does puts what the computation gives. -/
theorem exec_put {v : Var} {es : Entries Value} (hv : f.vars v = some (.map es)) (key : String)
    (e : Expr) :
    exec s f (.put v key e) =
      e.eval s f >>= fun value => .ok (.next (f.set v (.map (es.insert key value)))) := by
  simp only [exec, Frame.map_eq hv, Value.entries, lift_ok, ok_bind, pure_eq_ok]

theorem exec_putAll {v : Var} {es : Entries Value} (hv : f.vars v = some (.map es)) {e : Expr}
    {x : Outcome (Entries Value)} (he : e.eval s f = x.map .map) :
    exec s f (.putAll v e) =
      x >>= fun more => .ok (.next (f.set v (.map (es.insertAll more)))) := by
  simp only [exec, he, bind_map, Frame.map_eq hv, Value.entries, lift_ok, ok_bind, pure_eq_ok]

theorem exec_setAttribute {v : Var} {model : Value} (hv : f.vars v = some model) (a : Attribute)
    {e : Expr} {x : Outcome Value} (he : e.eval s f = x) :
    exec s f (.setAttribute v a e) =
      (x >>= fun value => liftM (model.setAttribute a.name value)) >>= fun model' : Value =>
        .ok (.next (f.set v model')) := by
  simp only [exec, he, Frame.model, Frame.get_eq_ok hv, ok_bind, bind_assoc]
  refine bind_congr_ok ?_
  intro value _
  cases model <;> rfl

theorem exec_when {e : Expr} {b : Bool} (h : e.eval s f = .ok (.bool b)) (body : List Stmt) :
    exec s f (.when e body) = if b then execAll s f body else .ok (.next f) := by
  simp [exec, Expr.test_eq h]

/-- A body that returns early if a variable holds null. -/
theorem execAll_unlessNull {v : Var} {value result : Value} {e : Expr}
    (hv : f.vars v = some value) (he : e.eval s f = .ok result) (rest : List Stmt) :
    execAll s f (.when (.isNull (.var v)) [.ret e] :: rest) =
      if value.isNull then .ok (.done result) else execAll s f rest := by
  have hwhen := exec_when (s := s) (f := f) (e := .isNull (.var v)) (b := value.isNull)
    (by simp [Expr.eval, Frame.get_eq_ok hv]) [.ret e]
  cases hnull : value.isNull with
  | true =>
    have hret : exec s f (.ret e) = .ok (.done result) := by simp [exec, he]
    rw [hnull, if_pos rfl, execAll_singleton, hret] at hwhen
    exact execAll_cons_done hwhen
  | false =>
    rw [hnull, if_neg (by simp)] at hwhen
    exact execAll_cons_next hwhen

/-- The first arm that the scrutinee names is run, if there is one. -/
theorem exec_select {α : Type} {e : Expr} {x : Outcome Value} (he : e.eval s f = x)
    (name : α → String) (body : α → List Stmt) (as : List α) :
    exec s f (.select e (as.map fun a => (name a, body a))) =
      x >>= fun scrutinee => match as.find? fun a => scrutinee.string? = some (name a) with
        | some a => execAll s f (body a)
        | none => .ok (.next f) := by
  simp only [exec, he]
  refine bind_congr_ok ?_
  intro scrutinee _
  induction as with
  | nil => rfl
  | cons a rest ih =>
    by_cases h : scrutinee.string? = some (name a) <;> simp [execArm, List.find?, h, ih]

end Stmt

/-! ## Following -/

/-- The statements end as the computation does; `F` tells what the variables hold then. -/
def Follows {α : Type} (s : Scope) (f : Frame) (stmts : List Stmt) (x : Outcome α)
    (F : α → Frame → Prop) : Prop :=
  match x with
  | .ok a => ∃ g, Stmt.execAll s f stmts = .ok (.next g) ∧ F a g
  | .error e => Stmt.execAll s f stmts = .error e

namespace Follows

variable {α β : Type} {s : Scope} {f : Frame} {F : α → Frame → Prop} {H : β → Frame → Prop}

theorem nil {a : α} (h : F a f) : Follows s f [] (.ok a) F := ⟨f, rfl, h⟩

/-- A statement that only goes on to the next one. -/
theorem cons {stmt : Stmt} {rest : List Stmt} {g : Frame} {x : Outcome α}
    (h : Stmt.exec s f stmt = .ok (.next g)) (hrest : Follows s g rest x F) :
    Follows s f (stmt :: rest) x F := by
  have heq : Stmt.execAll s f (stmt :: rest) = Stmt.execAll s g rest :=
    Stmt.execAll_cons_next h
  cases x with
  | error e => exact heq.trans hrest
  | ok a =>
    obtain ⟨g', hg, ha⟩ := hrest
    exact ⟨g', heq.trans hg, ha⟩

theorem append {p q : List Stmt} {x : Outcome α} {k : α → Outcome β}
    (hx : Follows s f p x F) (hk : ∀ a g, F a g → Follows s g q (k a) H) :
    Follows s f (p ++ q) (x >>= k) H := by
  cases x with
  | error e =>
    change Stmt.execAll s f (p ++ q) = .error e
    rw [Stmt.execAll_append, show Stmt.execAll s f p = .error e from hx, error_bind]
  | ok a =>
    obtain ⟨g, hg, ha⟩ := hx
    have hrest := hk a g ha
    have heq : Stmt.execAll s f (p ++ q) = Stmt.execAll s g q := by
      rw [Stmt.execAll_append, hg, ok_bind]
    rw [ok_bind]
    unfold Follows at hrest ⊢
    rw [heq]
    exact hrest

/-- A statement that goes on with the value of an expression. -/
theorem of_eval {stmt : Stmt} {x : Outcome α} {g : α → Frame}
    (h : Stmt.exec s f stmt = x >>= fun a => .ok (.next (g a)))
    (hF : ∀ a, x = .ok a → F a (g a)) : Follows s f [stmt] x F := by
  cases x with
  | error e =>
    change Stmt.execAll s f [stmt] = .error e
    rw [Stmt.execAll_singleton, h, error_bind]
  | ok a =>
    refine ⟨g a, ?_, hF a rfl⟩
    rw [Stmt.execAll_singleton, h, ok_bind]

theorem mono {stmts : List Stmt} {x : Outcome α} {F' : α → Frame → Prop}
    (h : Follows s f stmts x F) (hF : ∀ a g, F a g → F' a g) : Follows s f stmts x F' := by
  cases x with
  | error e => exact h
  | ok a =>
    obtain ⟨g, hg, ha⟩ := h
    exact ⟨g, hg, hF a g ha⟩

/-- One statement for each element of a list follows the loop over the list. -/
theorem loop {as : List β} {stmt : β → Stmt} {step : α → β → Outcome α} {a : α}
    (h : ∀ b ∈ as, ∀ a f, F a f → Follows s f [stmt b] (step a b) F) (ha : F a f) :
    Follows s f (as.map stmt) (as.foldlM step a) F := by
  induction as generalizing a f with
  | nil => exact nil ha
  | cons b rest ih =>
    rw [List.foldlM_cons, List.map_cons, ← List.singleton_append]
    exact (h b (by simp) a f ha).append fun a' g hg => ih (fun b' hb => h b' (by simp [hb])) hg

/-- What comes after statements that follow a computation starts from what it gives. -/
theorem execAll_append {p q : List Stmt} {x : Outcome α} {r : α → Outcome Flow}
    (h : Follows s f p x F) (hr : ∀ a g, F a g → Stmt.execAll s g q = r a) :
    Stmt.execAll s f (p ++ q) = x >>= r := by
  rw [Stmt.execAll_append]
  cases x with
  | error err =>
    rw [show Stmt.execAll s f p = .error err from h]
    rfl
  | ok a =>
    obtain ⟨g, hg, ha⟩ := h
    rw [hg, ok_bind]
    exact hr a g ha

/-- A body that follows a computation and then returns. -/
theorem execAll_ret {stmts : List Stmt} {x : Outcome α} {e : Expr} {r : α → Value}
    (h : Follows s f stmts x F) (he : ∀ a g, F a g → e.eval s g = .ok (r a)) :
    Stmt.execAll s f (stmts ++ [.ret e]) = x.map fun a => .done (r a) := by
  rw [map_eq_bind]
  refine h.execAll_append ?_
  intro a g hg
  rw [Stmt.execAll_singleton, Stmt.exec, he a g hg]
  rfl

end Follows

end JsonMapping
