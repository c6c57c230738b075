import JsonMapping.Run.Call
import Mathlib.Data.Option.Basic

/-! Worlds side by side. Where methods of corresponding mappers run alike, provided that the calls
in them do, all runs are alike: the depth of calls is inducted on here, once for all. -/

namespace JsonMapping.World

/-- The mappers under the names correspond, and methods of the kinds run alike in corresponding
mappers wherever calls of such methods under such names do. The request contexts may differ. -/
structure Simulates (names : String → Prop) (kinds : MethodKind → Prop)
    (contexts : Option RequestContext → Option RequestContext → Prop)
    (corresponds : Mapper → Mapper → Prop) (w w' : World) : Prop where
  mappers : ∀ name, names name →
    Option.Rel corresponds (w.mappers.get? name) (w'.mappers.get? name)
  runMethod : ∀ call call' : Caller,
    (∀ t, names t.qualifiedName → ∀ k, kinds k → ∀ args x y, contexts x y →
      call' t k args y = call t k args x) →
    ∀ m m', corresponds m m' → ∀ k, kinds k → ∀ args x y, contexts x y →
      w'.runMethod call' m' k args y = w.runMethod call m k args x

namespace Simulates

variable {names : String → Prop} {kinds : MethodKind → Prop}
  {contexts : Option RequestContext → Option RequestContext → Prop}
  {corresponds : Mapper → Mapper → Prop} {w w' : World} {k : MethodKind}
  {x y : Option RequestContext}

theorem call_eq (h : w.Simulates names kinds contexts corresponds w') (depth : Nat)
    {t : JavaType} (ht : names t.qualifiedName) (hk : kinds k) (args : List Value)
    (hxy : contexts x y) : w'.call depth t k args y = w.call depth t k args x := by
  induction depth generalizing t k args x y with
  | zero => rfl
  | succ depth ih =>
    have hmappers := h.mappers t.qualifiedName ht
    unfold call callee
    generalize w.mappers.get? t.qualifiedName = m, w'.mappers.get? t.qualifiedName = m' at hmappers
    cases hmappers with
    | none => rfl
    | some hm =>
      exact h.runMethod _ _ (fun t ht k hk args _ _ => ih ht hk args) _ _ hm k hk args x y hxy

theorem runWithin_eq (h : w.Simulates names kinds contexts corresponds w') (depth : Nat)
    {name : String} (hname : names name) (hk : kinds k) (v : Value) (hxy : contexts x y) :
    w'.runWithin depth name k v y = w.runWithin depth name k v x := by
  have hmappers := h.mappers name hname
  unfold runWithin mapper
  generalize w.mappers.get? name = m, w'.mappers.get? name = m' at hmappers
  cases hmappers with
  | none => rfl
  | some hm =>
    exact h.runMethod _ _ (fun t ht k hk args _ _ => h.call_eq depth ht hk args) _ _ hm k hk [v]
      x y hxy

/-- Runs without a given depth are as deep as the number of mappers asks for. -/
theorem run_eq (h : w.Simulates names kinds contexts corresponds w')
    (hlength : w'.mappers.length = w.mappers.length) {name : String} (hname : names name)
    (hk : kinds k) (v : Value) (hxy : contexts x y) : w'.run name k v y = w.run name k v x := by
  rw [run, run, depthFor, depthFor, hlength, h.runWithin_eq _ hname hk v hxy]

end Simulates

end JsonMapping.World
