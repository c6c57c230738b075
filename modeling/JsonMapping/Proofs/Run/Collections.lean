import JsonMapping.Proofs.Derive.Emitted
import JsonMapping.Proofs.Run.Statements

/-! The methods on lists. They call the method on single values for every element, in order, by the
name of their own mapper. On null the method that reads gives an empty list, and the one that
writes stops. -/

namespace JsonMapping.Derive

theorem run_toJsonCollectionMethod (s : Scope) (p : Plan) (v : Value) (c : RequestContext) :
    (toJsonCollectionMethod p).run s [v] (some c) =
      (do
        let items ← v.elements .values
        return .list (← items.mapM fun item => s.call p.mapper .toJson [item] (some c))) := by
  have hlist : (Frame.ofCall
      [⟨.values, .declaredList p.descriptor.model⟩, ⟨.requestContext, .requestContext⟩] [v]
        (some c)).list .values = v.elements .values := Frame.list_eq rfl
  have heval : (Expr.mapEach .values p.mapper .toJson (some .requestContext)).eval s
      (Frame.ofCall [⟨.values, .declaredList p.descriptor.model⟩,
        ⟨.requestContext, .requestContext⟩] [v] (some c)) =
      (do
        let items ← v.elements .values
        return .list (← items.mapM fun item =>
          s.call p.mapper .toJson [item] (some c)) : Outcome Value) := by
    simp only [Expr.eval, hlist]
    rfl
  unfold Method.run toJsonCollectionMethod listWritingMethod
  simp only [Stmt.execAll_singleton, Stmt.exec]
  rw [heval]
  simp only [bind_assoc]
  rfl

theorem run_fromJsonCollectionMethod (s : Scope) (p : Plan) (v : Value) :
    (fromJsonCollectionMethod p).run s [v] none =
      (do
        if v.isNull then return .list []
        let items ← v.elements .jsonArray
        return .list (← items.mapM fun item => s.call p.mapper .fromJson [item] none)) := by
  have hstart : (Frame.ofCall [⟨.jsonArray, .containerList⟩] [v] none).vars .jsonArray =
    some v := rfl
  unfold Method.run fromJsonCollectionMethod listReadingMethod
  dsimp only
  rw [Stmt.execAll_unlessNull hstart rfl]
  cases v.isNull with
  | true => rfl
  | false =>
    have heval : (Expr.mapEach .jsonArray p.mapper .fromJson none).eval s
        (Frame.ofCall [⟨.jsonArray, .containerList⟩] [v] none) =
        (do
          let items ← v.elements .jsonArray
          return .list (← items.mapM fun item =>
            s.call p.mapper .fromJson [item] none) : Outcome Value) := by
      simp only [Expr.eval, Frame.list_eq hstart]
      rfl
    rw [if_neg (by simp), Stmt.execAll_singleton, Stmt.exec, heval]
    simp only [bind_assoc]
    rfl

end JsonMapping.Derive
