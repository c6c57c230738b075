import JsonMapping.Naming.Identifier

/-! Names of Java types: a package, a class that may sit in enclosing classes, and generic
arguments. Two names are the same type when they agree part by part. -/

namespace JsonMapping

inductive JavaType where
  | mk (package enclosing : List Identifier) (simple : Identifier) (args : List JavaType)

namespace JavaType

mutual
private def decideEq (s t : JavaType) : Decidable (s = t) :=
  match s, t with
  | .mk p e n as, .mk q f m bs =>
    haveI := decideEqAll as bs
    decidable_of_iff (p = q ∧ e = f ∧ n = m ∧ as = bs) (by simp)
private def decideEqAll (ss ts : List JavaType) : Decidable (ss = ts) :=
  match ss, ts with
  | [], [] => isTrue rfl
  | s :: ss, t :: ts =>
    haveI := decideEq s t
    haveI := decideEqAll ss ts
    decidable_of_iff (s = t ∧ ss = ts) (by simp)
  | [], _ :: _ | _ :: _, [] => isFalse (by simp)
end

instance : DecidableEq JavaType := decideEq

def package : JavaType → List Identifier
  | .mk p _ _ _ => p

def enclosing : JavaType → List Identifier
  | .mk _ e _ _ => e

/-- The innermost class. -/
def simple : JavaType → Identifier
  | .mk _ _ n _ => n

def args : JavaType → List JavaType
  | .mk _ _ _ as => as

def withArgs (t : JavaType) (as : List JavaType) : JavaType := .mk t.package t.enclosing t.simple as

/-- The type without its generic arguments. -/
def erased (t : JavaType) : JavaType := t.withArgs []

/-! ## Written forms -/

/-- Names with dots between them. -/
def dotted (names : List Identifier) : List Char :=
  List.intercalate ['.'] (names.map fun n => n.text.toList)

def packageName (t : JavaType) : String := String.ofList (dotted t.package)

/-- The class with its enclosing classes, `Outer.Inner`. -/
def className (t : JavaType) : String := String.ofList (dotted (t.enclosing ++ [t.simple]))

def simpleName (t : JavaType) : String := t.simple.text

/-- Package and class, without generic arguments. -/
def qualifiedName (t : JavaType) : String :=
  String.ofList (dotted (t.package ++ t.enclosing ++ [t.simple]))

mutual
/-- `java.util.Map<a.B, c.D>`: the form in documents and messages. -/
def chars : JavaType → List Char
  | .mk p e n as =>
    dotted (p ++ e ++ [n]) ++
      match as with
      | [] => []
      | a :: rest => '<' :: chars a ++ argChars rest
/-- The arguments after the first, and the closing bracket. -/
def argChars : List JavaType → List Char
  | [] => ['>']
  | a :: rest => ',' :: ' ' :: chars a ++ argChars rest
end

def text (t : JavaType) : String := String.ofList t.chars

instance : ToString JavaType := ⟨text⟩

/-! ## Order -/

mutual
/-- By package, then class, then arguments; texts by code points, lists by first difference. -/
def order : JavaType → JavaType → Ordering
  | .mk p e n as, .mk q f m bs =>
    (compare (p.map (·.text)) (q.map (·.text))).then <|
      (compare (dotted (e ++ [n])) (dotted (f ++ [m]))).then (orderAll as bs)
def orderAll : List JavaType → List JavaType → Ordering
  | [], [] => .eq
  | [], _ :: _ => .lt
  | _ :: _, [] => .gt
  | a :: as, b :: bs => (order a b).then (orderAll as bs)
end

/-- The types in order, repeated ones together. -/
def sorted (ts : List JavaType) : List JavaType := ts.mergeSort fun s t => (order s t).isLE

/-- One of each run of equal types. -/
def collapsed : List JavaType → List JavaType
  | [] => []
  | [t] => [t]
  | s :: t :: rest => if s = t then collapsed (t :: rest) else s :: collapsed (t :: rest)

end JavaType

/-- Identity of a representer: the name of its type. -/
structure RepresenterId where
  type : JavaType
deriving DecidableEq

instance : ToString RepresenterId := ⟨fun id => id.type.text⟩

end JsonMapping
