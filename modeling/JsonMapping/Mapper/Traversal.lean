import JsonMapping.Mapper.Basic

/-! What a mapper mentions, in the order of its text: each part before the parts it is made of. The
types that a source file imports and the mappers that a mapper needs are both read off this list. -/

namespace JsonMapping

/-- A part of a mapper. The mapper that a call names is a part of its own kind. -/
inductive Mention where
  | mapper (m : Mapper)
  | constant (c : Constant)
  | method (m : Method)
  | stmt (s : Stmt)
  | expr (e : Expr)
  | valueType (t : ValueType)
  | type (t : JavaType)
  | callee (t : JavaType)

namespace JavaType

mutual
/-- A type and its arguments, at all depths. -/
def withParts : JavaType → List JavaType
  | .mk p e n as => .mk p e n as :: partsOfAll as
def partsOfAll : List JavaType → List JavaType
  | [] => []
  | t :: rest => withParts t ++ partsOfAll rest
end

def mentions (t : JavaType) : List Mention := t.withParts.map .type

end JavaType

def ValueType.mentions (t : ValueType) : List Mention :=
  .valueType t :: match t with
    | .declared type | .declaredList type => type.mentions
    | .container | .containerList | .serializedList | .requestContext => []

namespace Expr

mutual
def mentions : Expr → List Mention
  | .newModel t => .expr (.newModel t) :: t.mentions
  | .isInstance v t => .expr (.isInstance v t) :: t.mentions
  | .isNull e => .expr (.isNull e) :: mentions e
  | .cast t e => .expr (.cast t e) :: (t.mentions ++ mentions e)
  | .apply c e => .expr (.apply c e) :: mentions e
  | .callMapper t k args => .expr (.callMapper t k args) :: .callee t :: mentionsAll args
  | .mapEach v t k c => [.expr (.mapEach v t k c), .callee t]
  | e => [.expr e]
def mentionsAll : List Expr → List Mention
  | [] => []
  | e :: rest => mentions e ++ mentionsAll rest
end

theorem mentionsAll_eq_flatMap (es : List Expr) : mentionsAll es = es.flatMap mentions := by
  induction es with
  | nil => rfl
  | cons e rest ih => rw [mentionsAll, ih, List.flatMap_cons]

end Expr

namespace Stmt

mutual
def mentions : Stmt → List Mention
  | .declare v t e => .stmt (.declare v t e) :: (t.mentions ++ e.mentions)
  | .assign v e => .stmt (.assign v e) :: e.mentions
  | .put v key e => .stmt (.put v key e) :: e.mentions
  | .putAll v e => .stmt (.putAll v e) :: e.mentions
  | .setAttribute v a e => .stmt (.setAttribute v a e) :: e.mentions
  | .when e body => .stmt (.when e body) :: (e.mentions ++ mentionsAll body)
  | .select e arms => .stmt (.select e arms) :: (e.mentions ++ armMentions arms)
  | .ret e => .stmt (.ret e) :: e.mentions
def mentionsAll : List Stmt → List Mention
  | [] => []
  | s :: rest => mentions s ++ mentionsAll rest
def armMentions : List (String × List Stmt) → List Mention
  | [] => []
  | (_, body) :: rest => mentionsAll body ++ armMentions rest
end

theorem mentionsAll_eq_flatMap (ss : List Stmt) : mentionsAll ss = ss.flatMap mentions := by
  induction ss with
  | nil => rfl
  | cons s rest ih => rw [mentionsAll, ih, List.flatMap_cons]

theorem armMentions_eq_flatMap (arms : List (String × List Stmt)) :
    armMentions arms = arms.flatMap fun arm => mentionsAll arm.2 := by
  induction arms with
  | nil => rfl
  | cons arm rest ih => rw [armMentions, ih, List.flatMap_cons]

end Stmt

def Constant.mentions (c : Constant) : List Mention := .constant c :: c.type.mentions

def Method.mentions (m : Method) : List Mention :=
  .method m :: (m.params.flatMap (fun p => p.type.mentions) ++ m.returns.mentions ++
    Stmt.mentionsAll m.body)

namespace Mapper

def mentions (m : Mapper) : List Mention :=
  .mapper m :: (m.constants.flatMap Constant.mentions ++ m.methods.flatMap Method.mentions)

/-- The mappers that calls name, in order and with repetitions. -/
def callees (m : Mapper) : List JavaType :=
  m.mentions.filterMap fun
    | .callee t => some t
    | _ => none

/-- Other mappers that this one calls, in order of first use. -/
def dependencies (m : Mapper) : List JavaType := (m.callees.filter (· ≠ m.type)).eraseDups

end Mapper

end JsonMapping
