import JsonMapping.Run.World

/-! The variables of one call. The request context is apart from them: it is no value. -/

namespace JsonMapping

structure Frame where
  vars : Var → Option Value
  context : Option RequestContext

namespace Frame

def set (f : Frame) (v : Var) (value : Value) : Frame :=
  { f with vars := fun u => if u = v then some value else f.vars u }

@[simp] theorem vars_set (f : Frame) (v u : Var) (value : Value) :
    (f.set v value).vars u = if u = v then some value else f.vars u := rfl

@[simp] theorem context_set (f : Frame) (v : Var) (value : Value) :
    (f.set v value).context = f.context := rfl

def get (f : Frame) (v : Var) : Except RunError Value :=
  match f.vars v with
  | some value => .ok value
  | none => .error (.unboundVar v)

def requestContext (f : Frame) : Except RunError RequestContext :=
  match f.context with
  | some c => .ok c
  | none => .error (.unboundVar .requestContext)

/-- The map in a variable. -/
def map (f : Frame) (v : Var) : Except RunError (Entries Value) := do
  match ← f.get v with
  | .map entries => return entries
  | .null => throw (.nullDereference (.var v))
  | found => throw (.typeMismatch .map found.kind)

/-- The list in a variable. -/
def list (f : Frame) (v : Var) : Except RunError (List Value) := do
  match ← f.get v with
  | .list items => return items
  | .null => throw (.nullDereference (.var v))
  | found => throw (.typeMismatch .list found.kind)

/-- The type and fields of the model in a variable; `use` is what a null is reported with. -/
def model (f : Frame) (v : Var) (use : NullUse) : Except RunError (String × Entries Value) := do
  match ← f.get v with
  | .model type fields => return (type, fields)
  | .null => throw (.nullDereference use)
  | found => throw (.typeMismatch .model found.kind)

/-- The arguments in order, for the parameters that are values; null for those left over. -/
def bind (f : Frame) : List Param → List Value → Frame
  | [], _ => f
  | p :: rest, args =>
    if p.type = .requestContext then f.bind rest args
    else (f.set p.var (args.headD .null)).bind rest args.tail

/-- The variables at the start of a call. -/
def ofCall (params : List Param) (args : List Value) (context : Option RequestContext) : Frame :=
  ({ vars := fun _ => none, context } : Frame).bind params args

end Frame

end JsonMapping
