import JsonMapping.Run.Eval

/-! Calls of mappers, in one another as deep as a bound allows. -/

namespace JsonMapping

/-- A method on arguments that are not checked. A body that ends without returning gives null. -/
def Method.run (s : Scope) (m : Method) (args : List Value) (context : Option RequestContext) :
    Outcome Value := do
  match ← Stmt.execAll s (.ofCall m.params args context) m.body with
  | .next _ => return .null
  | .done result => return result

namespace World

/-- A method of a mapper, with the calls inside left to `call`. -/
def runMethod (w : World) (call : Caller) (m : Mapper) (kind : MethodKind) (args : List Value)
    (context : Option RequestContext) : Outcome Value :=
  match m.method? kind with
  | some method => method.run ⟨w, m, call⟩ args context
  | none => .error (.fault (.missingMethod m.type kind))

/-- A call where at most `depth` calls may be in one another. -/
def call (w : World) : Nat → Caller
  | 0, _, _, _, _ => .error .tooDeep
  | depth + 1, t, kind, args, context => do
    let m ← w.callee t
    w.runMethod (w.call depth) m kind args context

/-- A method of the mapper with the given name, on one argument. -/
def runWithin (w : World) (depth : Nat) (name : String) (kind : MethodKind) (argument : Value)
    (context : Option RequestContext) : Outcome Value := do
  let m ← w.mapper name
  w.runMethod (w.call depth) m kind [argument] context

/-- What is left for mappers from elsewhere, whose calls may go deeper than the value. -/
def spareDepth : Nat := 1000000

/-- A depth for the argument: every call of a derived mapper goes down in the value, or on to a
variant of the same value. -/
def depthFor (w : World) (argument : Value) : Nat :=
  (argument.height + 2) * (w.mappers.length + 2) + spareDepth

def run (w : World) (name : String) (kind : MethodKind) (argument : Value)
    (context : Option RequestContext) : Outcome Value :=
  w.runWithin (w.depthFor argument) name kind argument context

/-- The container that the mapper writes a model to. -/
def toJson (w : World) (name : String) (model : Value) (context : RequestContext) :
    Outcome Value :=
  w.run name .toJson model (some context)

def toJsonList (w : World) (name : String) (models : Value) (context : RequestContext) :
    Outcome Value :=
  w.run name .toJsonCollection models (some context)

/-- The model that the mapper reads from a container. -/
def fromJson (w : World) (name : String) (json : Value) : Outcome Value :=
  w.run name .fromJson json none

def fromJsonList (w : World) (name : String) (json : Value) : Outcome Value :=
  w.run name .fromJsonCollection json none

end World

end JsonMapping
