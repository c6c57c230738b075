import JsonMapping.Run.Frame
import JsonMapping.Value.Cast

/-! Running a method body. Calls of mappers are left to a function, so that a body is run by
recursion on its own text. -/

namespace JsonMapping

/-- Why a run ends without a result: by a fault, or because calls nest deeper than allowed. -/
inductive Halt where
  | fault (error : RunError)
  | tooDeep
deriving DecidableEq

abbrev Outcome (α : Type) := Except Halt α

instance : MonadLift (Except RunError) (Except Halt) := ⟨fun found => found.mapError .fault⟩

/-- What a call of a mapper's method gives, for the arguments and the request context. -/
abbrev Caller := JavaType → MethodKind → List Value → Option RequestContext → Outcome Value

/-- What stays the same while a body runs. -/
structure Scope where
  world : World
  mapper : Mapper
  call : Caller

/-- The type of a constant of the mapper. -/
def Scope.constantType (s : Scope) (name : String) : Except RunError JavaType :=
  match s.mapper.constant? name with
  | some c => .ok c.type
  | none => .error (.unboundHelper name)

namespace Expr

mutual
def eval (s : Scope) (f : Frame) : Expr → Outcome Value
  | .var v => f.get v
  | .null => .ok .null
  | .text value => .ok (.string value)
  | .newContainer => .ok (.map [])
  | .newModel t => .ok (s.world.instantiate t)
  | .emptyList => .ok (.list [])
  | .getAttribute v a => do
    let (_, fields) ← f.model v (.getter a.name)
    return .ofEntry fields a.name.text
  | .hasKey v key => do return .bool ((← f.map v).get? key).isSome
  | .lookup v key => do return .ofEntry (← f.map v) key
  | .subContainer v key => do
    match (← f.map v).get? key with
    | none => return .map []
    | some value => value.cast .container
  | .isNull e => do return .bool (← eval s f e).isNull
  | .isInstance v t => do
    let value ← f.get v
    return .bool (value.kind = .model t.qualifiedName)
  | .cast t e => do (← eval s f e).cast t
  | .apply c e => do
    let argument ← eval s f e
    let helper ← s.world.helper (← s.constantType c)
    helper argument
  | .links c v context => do
    if context ≠ .requestContext then throw (.fault (.unboundVar context))
    let provider ← s.world.linksProvider (← s.constantType c)
    return .map (← provider (← f.get v) (← f.requestContext))
  | .callMapper t k args => do
    let (values, context) ← evalArgs s f args
    s.call t k values context
  | .mapEach v t k context => do
    let context ← context.mapM fun _ => f.requestContext
    return .list (← (← f.list v).mapM fun item => s.call t k [item] context)
/-- The arguments that are values, and the request context if it is among them. -/
def evalArgs (s : Scope) (f : Frame) : List Expr → Outcome (List Value × Option RequestContext)
  | [] => .ok ([], none)
  | .var .requestContext :: rest => do
    let context ← f.requestContext
    let (values, _) ← evalArgs s f rest
    return (values, some context)
  | e :: rest => do
    let value ← eval s f e
    let (values, context) ← evalArgs s f rest
    return (value :: values, context)
end

@[simp] theorem eval_null (s : Scope) (f : Frame) : eval s f .null = .ok .null := by
  simp only [eval]

@[simp] theorem evalArgs_nil (s : Scope) (f : Frame) : evalArgs s f [] = .ok ([], none) := by
  simp only [evalArgs]

/-- A condition; null is none. -/
def test (s : Scope) (f : Frame) (e : Expr) : Outcome Bool := do
  match ← e.eval s f with
  | .bool b => return b
  | found => throw (.fault (.typeMismatch .boolean found.kind))

end Expr

/-- How a statement ends: with the variables for the next one, or with the result of the method. -/
inductive Flow where
  | next (f : Frame)
  | done (result : Value)

namespace Stmt

mutual
def exec (s : Scope) (f : Frame) : Stmt → Outcome Flow
  | .declare v _ e => do return .next (f.set v (← e.eval s f))
  | .assign v e => do return .next (f.set v (← e.eval s f))
  | .put v key e => do
    let value ← e.eval s f
    return .next (f.set v (.map ((← f.map v).insert key value)))
  | .putAll v e => do
    match ← e.eval s f with
    | .map entries => return .next (f.set v (.map ((← f.map v).insertAll entries)))
    | .null => throw (.fault (.nullDereference .entries))
    | found => throw (.fault (.typeMismatch .map found.kind))
  | .setAttribute v a e => do
    let value ← e.eval s f
    let (type, fields) ← f.model v (.setter a.name)
    return .next (f.set v (.model type (fields.insert a.name.text value)))
  | .when e body => do
    if ← e.test s f then execAll s f body else return .next f
  | .select e arms => do
    let scrutinee ← e.eval s f
    execArm s f scrutinee arms
  | .ret e => do return .done (← e.eval s f)
/-- One statement after the other, up to one that returns. -/
def execAll (s : Scope) (f : Frame) : List Stmt → Outcome Flow
  | [] => .ok (.next f)
  | stmt :: rest => do
    match ← exec s f stmt with
    | .next f => execAll s f rest
    | .done result => return .done result
/-- The first arm with the text that the scrutinee is. -/
def execArm (s : Scope) (f : Frame) (scrutinee : Value) :
    List (String × List Stmt) → Outcome Flow
  | [] => .ok (.next f)
  | (text, body) :: rest =>
    if scrutinee.string? = some text then execAll s f body else execArm s f scrutinee rest
end

@[simp] theorem exec_ret (s : Scope) (f : Frame) (e : Expr) :
    exec s f (.ret e) = e.eval s f >>= fun result => .ok (.done result) := by
  simp only [exec, pure, Except.pure]

@[simp] theorem execAll_nil (s : Scope) (f : Frame) : execAll s f [] = .ok (.next f) := by
  simp only [execAll]

@[simp] theorem execArm_nil (s : Scope) (f : Frame) (scrutinee : Value) :
    execArm s f scrutinee [] = .ok (.next f) := by
  simp only [execArm]

end Stmt

end JsonMapping
