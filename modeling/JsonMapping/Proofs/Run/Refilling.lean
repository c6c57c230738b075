import JsonMapping.Proofs.Entries
import JsonMapping.Proofs.Run.Bodies

/-! Filling a container once more. Statements that put entries into what one variable holds, and
make these entries of other variables only, give the same when they are run twice: the second time
each key is there and gets its last value again. -/

namespace JsonMapping

/-! ## Frames -/

namespace Value

/-- The value with more entries, where it has entries. -/
def fill (more : Entries Value) : Value → Value
  | .map es => .map (Entries.insertAll es more)
  | .model type fields => .model type (Entries.insertAll fields more)
  | v => v

/-- The value with none of its entries. -/
def emptied : Value → Value
  | .map _ => .map []
  | .model type _ => .model type []
  | v => v

theorem emptied_fill (v : Value) (more : Entries Value) : (v.fill more).emptied = v.emptied := by
  cases v <;> rfl

theorem fill_nil (v : Value) : v.fill [] = v := by
  cases v <;> rfl

theorem fill_fill (v : Value) (xs ys : Entries Value) :
    (v.fill xs).fill ys = v.fill (xs ++ ys) := by
  cases v <;> simp [fill, Entries.insertAll_append]

theorem fill_fill_self (v : Value) (more : Entries Value) :
    (v.fill more).fill more = v.fill more := by
  cases v <;> simp [fill, Entries.insertAll_insertAll_self]

end Value

namespace Frame

/-- The frame with something else in a variable, if there is anything in it. -/
def modify (f : Frame) (t : Var) (change : Value → Value) : Frame :=
  { f with vars := fun u => if u = t then (f.vars u).map change else f.vars u }

variable {f g : Frame} {t : Var}

theorem modify_modify (f : Frame) (t : Var) (first second : Value → Value) :
    (f.modify t first).modify t second = f.modify t fun v => second (first v) := by
  unfold modify
  congr 1
  funext u
  by_cases hu : u = t
  · simp [hu, Function.comp_def]
  · simp [hu]

theorem modify_id (f : Frame) (t : Var) : f.modify t (fun v => v) = f := by
  unfold modify
  congr 1
  funext u
  split
  · exact Option.map_id'
  · rfl

theorem modify_eq_set {v : Value} (hv : f.vars t = some v) (change : Value → Value) :
    f.modify t change = f.set t (change v) := by
  unfold modify set
  congr 1
  funext u
  by_cases hu : u = t
  · simp [hu, hv]
  · simp [hu]

/-- The frames differ at most in the entries of what the variable holds. -/
def AlikeBut (f : Frame) (t : Var) (g : Frame) : Prop :=
  g.modify t Value.emptied = f.modify t Value.emptied

theorem modify_fill_emptied (f : Frame) (t : Var) (more : Entries Value) :
    (f.modify t (Value.fill more)).modify t Value.emptied = f.modify t Value.emptied := by
  simp only [modify_modify, Value.emptied_fill]

theorem alikeBut_fill (f : Frame) (t : Var) (more : Entries Value) :
    f.AlikeBut t (f.modify t (Value.fill more)) :=
  modify_fill_emptied f t more

theorem AlikeBut.fill (h : f.AlikeBut t g) (xs ys : Entries Value) :
    (f.modify t (Value.fill xs)).AlikeBut t (g.modify t (Value.fill ys)) :=
  (modify_fill_emptied g t ys).trans (h.trans (modify_fill_emptied f t xs).symm)

theorem AlikeBut.context_eq (h : f.AlikeBut t g) : g.context = f.context := by
  have hcontext := congrArg Frame.context h
  exact hcontext

theorem AlikeBut.vars_eq (h : f.AlikeBut t g) {u : Var} (hu : u ≠ t) : g.vars u = f.vars u := by
  have hvars := congrFun (congrArg Frame.vars h) u
  simpa [modify, hu] using hvars

theorem AlikeBut.emptied_eq (h : f.AlikeBut t g) :
    (g.vars t).map Value.emptied = (f.vars t).map Value.emptied := by
  have hvars := congrFun (congrArg Frame.vars h) t
  simpa [modify] using hvars

theorem AlikeBut.exists_map (h : f.AlikeBut t g) {es : Entries Value}
    (hf : f.vars t = some (.map es)) : ∃ es', g.vars t = some (.map es') := by
  have hemptied := h.emptied_eq
  rw [hf] at hemptied
  cases hg : g.vars t with
  | none => simp [hg] at hemptied
  | some v =>
    cases v with
    | map es' => exact ⟨es', rfl⟩
    | _ => simp [hg, Value.emptied] at hemptied

theorem AlikeBut.exists_model (h : f.AlikeBut t g) {type : String} {fields : Entries Value}
    (hf : f.vars t = some (.model type fields)) :
    ∃ fields', g.vars t = some (.model type fields') := by
  have hemptied := h.emptied_eq
  rw [hf] at hemptied
  cases hg : g.vars t with
  | none => simp [hg] at hemptied
  | some v =>
    cases v with
    | model type' fields' =>
      have htype : type' = type := by simpa [hg, Value.emptied] using hemptied
      exact ⟨fields', by rw [htype]⟩
    | _ => simp [hg, Value.emptied] at hemptied

theorem vars_of_map_eq_ok {es : Entries Value} (h : f.map t = .ok es) :
    f.vars t = some (.map es) := by
  unfold map get at h
  split at h
  · rename_i v hv
    cases v with
    | map found =>
      obtain rfl := Except.ok.inj h
      exact hv
    | _ => cases h
  · cases h

theorem vars_of_model_eq_ok {use : NullUse} {found : String × Entries Value}
    (h : f.model t use = .ok found) : f.vars t = some (.model found.1 found.2) := by
  unfold model get at h
  split at h
  · rename_i v hv
    cases v with
    | model type fields =>
      obtain rfl := Except.ok.inj h
      exact hv
    | _ => cases h
  · cases h

end Frame

/-! ## Statements -/

/-- Where the statements run to their end, they put certain entries into what the variable holds,
the same ones whatever entries it has. -/
def Stmt.Fills (s : Scope) (t : Var) (stmts : List Stmt) : Prop :=
  ∀ f flow, execAll s f stmts = .ok flow → ∃ more, ∀ g, f.AlikeBut t g →
    execAll s g stmts = .ok (.next (g.modify t (Value.fill more)))

namespace Stmt.Fills

variable {s : Scope} {t : Var} {stmts : List Stmt}

theorem nil : Fills s t [] := by
  intro f flow _
  refine ⟨[], fun g _ => ?_⟩
  rw [execAll_nil, funext Value.fill_nil, Frame.modify_id]

theorem append {xs ys : List Stmt} (hx : Fills s t xs) (hy : Fills s t ys) :
    Fills s t (xs ++ ys) := by
  intro f flow hflow
  rw [execAll_append] at hflow
  obtain ⟨first, hfirst, hrest⟩ := bind_eq_ok.mp hflow
  obtain ⟨more, hmore⟩ := hx f first hfirst
  obtain rfl := Except.ok.inj (hfirst.symm.trans (hmore f rfl))
  obtain ⟨last, hlast⟩ := hy _ flow hrest
  refine ⟨more ++ last, fun g hg => ?_⟩
  rw [execAll_append, hmore g hg, ok_bind]
  refine (hlast _ (hg.fill more more)).trans ?_
  simp only [Frame.modify_modify, Value.fill_fill]

theorem put {key : String} {e : Expr}
    (he : ∀ f g : Frame, f.AlikeBut t g → e.eval s g = e.eval s f) : Fills s t [.put t key e] := by
  intro f flow hflow
  rw [execAll_singleton, exec] at hflow
  obtain ⟨value, hvalue, hflow⟩ := bind_eq_ok.mp hflow
  obtain ⟨es, hes, -⟩ := bind_eq_ok.mp hflow
  refine ⟨[(key, value)], fun g hg => ?_⟩
  obtain ⟨es', hes'⟩ := hg.exists_map (Frame.vars_of_map_eq_ok (lift_eq_ok.mp hes))
  rw [execAll_singleton, exec_put hes', he f g hg, hvalue, Frame.modify_eq_set hes']
  rfl

theorem setAttribute {a : Attribute} {e : Expr}
    (he : ∀ f g : Frame, f.AlikeBut t g → e.eval s g = e.eval s f) :
    Fills s t [.setAttribute t a e] := by
  intro f flow hflow
  rw [execAll_singleton, exec] at hflow
  obtain ⟨value, hvalue, hflow⟩ := bind_eq_ok.mp hflow
  obtain ⟨found, hfound, -⟩ := bind_eq_ok.mp hflow
  refine ⟨[(a.name.text, value)], fun g hg => ?_⟩
  obtain ⟨fields, hfields⟩ := hg.exists_model (Frame.vars_of_model_eq_ok (lift_eq_ok.mp hfound))
  rw [execAll_singleton, exec_setAttribute hfields a rfl, he f g hg, hvalue,
    Frame.modify_eq_set hfields]
  rfl

theorem when {e : Expr} {body : List Stmt}
    (he : ∀ f g : Frame, f.AlikeBut t g → e.eval s g = e.eval s f) (hbody : Fills s t body) :
    Fills s t [.when e body] := by
  intro f flow hflow
  have htest : ∀ g, f.AlikeBut t g → e.test s g = e.test s f := by
    intro g hg
    rw [Expr.test, Expr.test, he f g hg]
  rw [execAll_singleton, exec] at hflow
  obtain ⟨b, hb, hflow⟩ := bind_eq_ok.mp hflow
  cases b with
  | true =>
    obtain ⟨more, hmore⟩ := hbody f flow hflow
    refine ⟨more, fun g hg => ?_⟩
    rw [execAll_singleton, exec, htest g hg, hb]
    exact hmore g hg
  | false =>
    refine ⟨[], fun g hg => ?_⟩
    rw [execAll_singleton, exec, htest g hg, hb, funext Value.fill_nil, Frame.modify_id]
    rfl

theorem map {α : Type} {as : List α} {stmt : α → Stmt} (h : ∀ a ∈ as, Fills s t [stmt a]) :
    Fills s t (as.map stmt) := by
  induction as with
  | nil => exact nil
  | cons a rest ih =>
    rw [List.forall_mem_cons] at h
    exact append h.1 (ih h.2)

/-- Statements that fill a variable may be run once more. -/
theorem execAll_twice (h : Fills s t stmts) (f : Frame) :
    execAll s f (stmts ++ stmts) = execAll s f stmts := by
  rw [execAll_append]
  cases hflow : execAll s f stmts with
  | error e => rfl
  | ok flow =>
    obtain ⟨more, hmore⟩ := h f flow hflow
    obtain rfl := Except.ok.inj (hflow.symm.trans (hmore f rfl))
    refine (hmore _ (f.alikeBut_fill t more)).trans ?_
    simp only [Frame.modify_modify, Value.fill_fill_self]

end Stmt.Fills

/-! ## Fields of a plan -/

namespace Derive

open Stmt

variable {s : Scope} {f g : Frame} {table : List Constant} {a : PlannedAttribute}

/-- What is written for an attribute is made of the value and the request context. -/
theorem eval_writeValue_congr (hvalue : g.vars .value = f.vars .value)
    (hcontext : g.context = f.context) :
    (writeValue table a).eval s g = (writeValue table a).eval s f := by
  unfold writeValue
  split <;> simp only [Expr.eval, Expr.evalArgs, Frame.model, Frame.get, Frame.requestContext,
    hvalue, hcontext]

/-- What is read for an attribute is made of what the container holds. -/
theorem eval_readValue_congr {v : Var} (hv : g.vars v = f.vars v) (key : String) :
    (readValue table a (.lookup v key)).eval s g =
      (readValue table a (.lookup v key)).eval s f := by
  have hmap : g.map v = f.map v := by rw [Frame.map, Frame.map, Frame.get, Frame.get, hv]
  have hcast : ∀ t : Option JavaType,
      (castTo t (.lookup v key)).eval s g = (castTo t (.lookup v key)).eval s f := by
    intro t
    cases t <;> simp only [castTo, Expr.eval, hmap]
  unfold readValue
  split <;> simp only [Expr.eval, Expr.evalArgs, hcast, hmap]

theorem fills_putValues {target : Var} (ht : target ≠ .value) (as : List PlannedAttribute) :
    Fills s target (as.map (putValue table target)) := by
  refine Fills.map fun a _ => Fills.put fun f g hg => ?_
  exact eval_writeValue_congr (hg.vars_eq ht.symm) hg.context_eq

theorem fills_setValues (as : List PlannedAttribute) :
    Fills s .model (as.map (setValue table)) := by
  refine Fills.map fun a _ => ?_
  have hsource : sourceOf a ≠ .model := by
    unfold sourceOf
    split <;> simp
  refine Fills.when (fun f g hg => ?_) (Fills.setAttribute fun f g hg => ?_)
  · simp only [Expr.eval, Frame.map, Frame.get, hg.vars_eq hsource]
  · exact eval_readValue_congr (hg.vars_eq hsource) _

end Derive

end JsonMapping
