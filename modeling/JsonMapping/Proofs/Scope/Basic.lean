import JsonMapping.Proofs.Derive.Methods

/-! Scopes of method bodies. What is read must be a parameter or declared before on every path, and
nothing is declared twice. The request context is kept apart from the variables: it is no value, and
a body can only hand it on. The main statement is `wellScoped_of_mem_methods`: every method that is
derived keeps to its scopes. -/

namespace JsonMapping

/-- What is read of the variables of a call: a value, or the request context. -/
inductive Read where
  | value (v : Var)
  | context (v : Var)
deriving DecidableEq

/-- What a body may read because of a parameter. -/
def Param.read (p : Param) : Read :=
  if p.type = .requestContext then .context p.var else .value p.var

/-- Methods that write get the request context. -/
def MethodKind.writes : MethodKind → Bool
  | .toJson | .toJsonCollection => true
  | .fromJson | .fromJsonCollection => false

namespace Expr

mutual
/-- All that an expression reads. The request context counts as such only as an argument. -/
def reads : Expr → List Read
  | .null | .text _ | .newContainer | .newModel _ | .emptyList => []
  | .var v | .getAttribute v _ | .hasKey v _ | .lookup v _ | .subContainer v _
  | .isInstance v _ => [.value v]
  | .isNull e | .cast _ e | .apply _ e => reads e
  | .links _ v context => [.value v, .context context]
  | .callMapper _ _ args => argReads args
  | .mapEach v _ _ context => .value v :: context.toList.map .context
def argReads : List Expr → List Read
  | [] => []
  | .var .requestContext :: rest => .context .requestContext :: argReads rest
  | e :: rest => reads e ++ argReads rest
end

end Expr

namespace Stmt

/-- The variables that a statement declares for those behind it. -/
def declares : Stmt → List Var
  | .declare v _ _ => [v]
  | _ => []

mutual
/-- All that is read or changed is in scope. What a nested body declares ends with it. -/
def Scoped : List Read → Stmt → Prop
  | scope, .declare _ _ e | scope, .ret e => e.reads ⊆ scope
  | scope, .assign v e | scope, .put v _ e | scope, .putAll v e | scope, .setAttribute v _ e =>
    .value v ∈ scope ∧ e.reads ⊆ scope
  | scope, .when e body => e.reads ⊆ scope ∧ ScopedAll scope body
  | scope, .select e arms => e.reads ⊆ scope ∧ ScopedArms scope arms
def ScopedAll : List Read → List Stmt → Prop
  | _, [] => True
  | scope, s :: rest => Scoped scope s ∧ ScopedAll (s.declares.map .value ++ scope) rest
def ScopedArms : List Read → List (String × List Stmt) → Prop
  | _, [] => True
  | scope, (_, body) :: rest => ScopedAll scope body ∧ ScopedArms scope rest
end

mutual
/-- All variables that are declared, also in nested bodies. -/
def declared : Stmt → List Var
  | .declare v _ _ => [v]
  | .when _ body => declaredAll body
  | .select _ arms => armsDeclared arms
  | .assign _ _ | .put _ _ _ | .putAll _ _ | .setAttribute _ _ _ | .ret _ => []
def declaredAll : List Stmt → List Var
  | [] => []
  | s :: rest => declared s ++ declaredAll rest
def armsDeclared : List (String × List Stmt) → List Var
  | [] => []
  | (_, body) :: rest => declaredAll body ++ armsDeclared rest
end

/-- What may be read behind some statements. -/
def scopeAfter (scope : List Read) (stmts : List Stmt) : List Read :=
  stmts.foldl (fun scope s => s.declares.map .value ++ scope) scope

end Stmt

/-- Each variable is a parameter or declared before it is used, and no name is declared twice. Only
methods that write have the request context, under its own name. -/
structure Method.WellScoped (m : Method) : Prop where
  uses : Stmt.ScopedAll (m.params.map Param.read) m.body
  fresh : (m.params.map (·.var) ++ Stmt.declaredAll m.body).Nodup
  context : ∀ p ∈ m.params, p.type = .requestContext →
    p.var = .requestContext ∧ m.kind.writes = true

/-! ## Sequences of statements -/

namespace Stmt

variable {scope scope' scope'' : List Read} {xs ys : List Stmt}

/-- The statements keep to their scope, and `scope'` is what may be read behind them. -/
structure Keeps (scope : List Read) (xs : List Stmt) (scope' : List Read) : Prop where
  uses : ScopedAll scope xs
  after : scopeAfter scope xs = scope'

theorem Keeps.single {s : Stmt} (h : s.Scoped scope) :
    Keeps scope [s] (s.declares.map .value ++ scope) := by
  refine ⟨?_, rfl⟩
  simp only [ScopedAll]
  exact ⟨h, trivial⟩

theorem Keeps.append (hx : Keeps scope xs scope') (hy : Keeps scope' ys scope'') :
    Keeps scope (xs ++ ys) scope'' := by
  obtain ⟨hx, rfl⟩ := hx
  obtain ⟨hy, rfl⟩ := hy
  refine ⟨?_, List.foldl_append⟩
  induction xs generalizing scope with
  | nil => exact hy
  | cons s rest ih =>
    simp only [List.cons_append, ScopedAll] at hx ⊢
    exact ⟨hx.1, ih hx.2 hy⟩

/-- Statements that declare nothing leave the scope as it is. -/
theorem Keeps.of_forall (h : ∀ s ∈ xs, s.declares = [] ∧ s.Scoped scope) :
    Keeps scope xs scope := by
  induction xs with
  | nil => exact ⟨trivial, rfl⟩
  | cons s rest ih =>
    obtain ⟨hnone, hs⟩ := h s (by simp)
    have hrest := ih fun s' hs' => h s' (by simp [hs'])
    have hfirst := Keeps.single hs
    rw [hnone] at hfirst
    exact hfirst.append hrest

theorem declaredAll_append (xs ys : List Stmt) :
    declaredAll (xs ++ ys) = declaredAll xs ++ declaredAll ys := by
  induction xs with
  | nil => rfl
  | cons s rest ih => simp only [List.cons_append, declaredAll, ih, List.append_assoc]

theorem declaredAll_eq_nil (h : ∀ s ∈ xs, s.declared = []) : declaredAll xs = [] := by
  induction xs with
  | nil => rfl
  | cons s rest ih =>
    have hrest := ih fun s' hs' => h s' (by simp [hs'])
    simp only [declaredAll, h s (by simp), hrest, List.append_nil]

end Stmt

/-! ## Derived methods -/

namespace Derive

open Stmt

variable (table : List Constant) (p : Plan)

/-- What may be read where a value is written. -/
def writingScope : List Read := [.value .value, .context .requestContext]

theorem reads_writeValue (a : PlannedAttribute) : (writeValue table a).reads ⊆ writingScope := by
  unfold writeValue
  rcases a.transfer with ⟨_ | serializer, deserializer⟩ | mapper | mapper <;>
    simp [Expr.reads, Expr.argReads, writingScope]

theorem scoped_putValue {scope : List Read} {target : Var} (a : PlannedAttribute)
    (htarget : .value target ∈ scope) (h : writingScope ⊆ scope) :
    (putValue table target a).declares = [] ∧ (putValue table target a).Scoped scope := by
  refine ⟨rfl, ?_⟩
  simp only [putValue, Scoped]
  exact ⟨htarget, List.Subset.trans (reads_writeValue table a) h⟩

theorem keeps_putLinks {scope : List Read} (hjson : .value .json ∈ scope)
    (h : writingScope ⊆ scope) : Keeps scope (putLinks table p) scope := by
  apply Keeps.of_forall
  intro s hs
  unfold putLinks at hs
  cases hl : p.links with
  | none => simp [hl] at hs
  | some t =>
    simp only [hl, List.mem_singleton] at hs
    subst hs
    refine ⟨rfl, ?_⟩
    simp only [Scoped, Expr.reads]
    exact ⟨hjson, h⟩

theorem keeps_putEmbedded {scope : List Read} (hjson : .value .json ∈ scope)
    (h : writingScope ⊆ scope) :
    ∃ scope', Keeps scope (putEmbedded table p) scope' ∧ scope ⊆ scope' := by
  unfold putEmbedded
  split
  · have hdeclare : Keeps scope [.declare .embeddedMap .container .newContainer]
        (.value .embeddedMap :: scope) := .single (by simp [Scoped, Expr.reads])
    have hsub : scope ⊆ .value .embeddedMap :: scope := List.subset_cons_self _ _
    have hfill : Keeps (.value .embeddedMap :: scope)
        (p.embeddedAttributes.map (putValue table .embeddedMap))
        (.value .embeddedMap :: scope) := by
      apply Keeps.of_forall
      intro s hs
      obtain ⟨a, -, rfl⟩ := List.mem_map.mp hs
      exact scoped_putValue table a List.mem_cons_self (List.Subset.trans h hsub)
    have hput : Keeps (.value .embeddedMap :: scope) [.put .json embeddedKey (.var .embeddedMap)]
        (.value .embeddedMap :: scope) := .single (by simp [Scoped, Expr.reads, hjson])
    exact ⟨_, (hdeclare.append hfill).append hput, hsub⟩
  · exact ⟨scope, ⟨trivial, rfl⟩, List.Subset.refl _⟩

theorem keeps_putVariants {scope : List Read} (hjson : .value .json ∈ scope)
    (h : writingScope ⊆ scope) : Keeps scope (putVariants p) scope := by
  have hvalue : .value .value ∈ scope := h (by simp [writingScope])
  have hcontext : .context .requestContext ∈ scope := h (by simp [writingScope])
  apply Keeps.of_forall
  intro s hs
  unfold putVariants at hs
  cases hx : p.dispatch with
  | none => simp [hx] at hs
  | some x =>
    simp only [hx, List.mem_map] at hs
    obtain ⟨a, -, rfl⟩ := hs
    refine ⟨rfl, ?_⟩
    unfold putVariant
    cases x.nestedAttribute <;>
      simp [Scoped, ScopedAll, declares, Expr.reads, Expr.argReads, hjson, hvalue, hcontext]

theorem scoped_toJsonBody : ScopedAll writingScope (toJsonBody table p) := by
  have hdeclare : Keeps writingScope [.declare .json .container .newContainer]
      (.value .json :: writingScope) := .single (by simp [Scoped, Expr.reads])
  have hjson : .value .json ∈ .value .json :: writingScope := List.mem_cons_self
  have hsub : writingScope ⊆ .value .json :: writingScope := List.subset_cons_self _ _
  have hplain : Keeps (.value .json :: writingScope)
      (p.plainAttributes.map (putValue table .json)) (.value .json :: writingScope) := by
    apply Keeps.of_forall
    intro s hs
    obtain ⟨a, -, rfl⟩ := List.mem_map.mp hs
    exact scoped_putValue table a hjson hsub
  obtain ⟨scope, hembedded, hle⟩ := keeps_putEmbedded table p hjson hsub
  have hvariants := keeps_putVariants p (hle hjson) (List.Subset.trans hsub hle)
  have hret : Keeps scope [.ret (.var .json)] scope :=
    .single (by simpa [Scoped, Expr.reads] using hle hjson)
  exact (((((hdeclare.append (keeps_putLinks table p hjson hsub)).append hplain).append
    hembedded).append hvariants).append hret).uses

theorem declared_toJsonBody :
    declaredAll (toJsonBody table p) =
      if p.hasEmbedded then [.json, .embeddedMap] else [.json] := by
  have hput : ∀ target, ∀ as : List PlannedAttribute,
      declaredAll (as.map (putValue table target)) = [] := by
    intro target as
    apply declaredAll_eq_nil
    intro s hs
    obtain ⟨a, -, rfl⟩ := List.mem_map.mp hs
    rfl
  have hlinks : declaredAll (putLinks table p) = [] := by
    unfold putLinks
    cases p.links <;> rfl
  have hvariants : declaredAll (putVariants p) = [] := by
    apply declaredAll_eq_nil
    intro s hs
    unfold putVariants at hs
    cases hx : p.dispatch with
    | none => simp [hx] at hs
    | some x =>
      simp only [hx, List.mem_map] at hs
      obtain ⟨a, -, rfl⟩ := hs
      unfold putVariant
      cases x.nestedAttribute <;> rfl
  have hembedded : declaredAll (putEmbedded table p) =
      if p.hasEmbedded then [.embeddedMap] else [] := by
    unfold putEmbedded
    cases p.hasEmbedded with
    | false => rfl
    | true => simp [declaredAll, declared, declaredAll_append, hput]
  simp only [toJsonBody, declaredAll_append, List.cons_append, declaredAll, declared, hlinks, hput,
    hembedded, hvariants, List.nil_append, List.append_nil]
  cases p.hasEmbedded <;> rfl

theorem wellScoped_toJsonMethod : (toJsonMethod table p).WellScoped where
  uses := scoped_toJsonBody table p
  fresh := by
    change ([Var.value, Var.requestContext] ++ declaredAll (toJsonBody table p)).Nodup
    rw [declared_toJsonBody]
    cases p.hasEmbedded <;> decide
  context := by simp [toJsonMethod, writingMethod, MethodKind.writes]

theorem wellScoped_toJsonCollectionMethod : (toJsonCollectionMethod p).WellScoped where
  uses := by
    simp [toJsonCollectionMethod, listWritingMethod, ScopedAll, Scoped, Expr.reads, Param.read]
  fresh := by
    simp [toJsonCollectionMethod, listWritingMethod, declaredAll, declared]
  context := by simp [toJsonCollectionMethod, listWritingMethod, MethodKind.writes]

/-! ### Methods that read -/

/-- What may be read before the model is made. -/
def readingScope : List Read := [.value .json]

theorem reads_readValue (a : PlannedAttribute) (v : Var) (key : String) :
    (readValue table a (.lookup v key)).reads = [.value v] := by
  unfold readValue
  rcases a.transfer with ⟨serializer, _ | deserializer⟩ | mapper | mapper
  · cases a.model.type <;> simp [castTo, Expr.reads]
  · cases a.wire.type <;> simp [castTo, Expr.reads]
  · simp [Expr.reads, Expr.argReads]
  · simp [Expr.reads, Expr.argReads]

theorem keeps_setValues {scope : List Read} {as : List PlannedAttribute}
    (hmodel : .value .model ∈ scope) (h : ∀ a ∈ as, .value (sourceOf a) ∈ scope) :
    Keeps scope (as.map (setValue table)) scope := by
  apply Keeps.of_forall
  intro s hs
  obtain ⟨a, ha, rfl⟩ := List.mem_map.mp hs
  have hsource := h a ha
  refine ⟨rfl, ?_⟩
  simp [setValue, Scoped, ScopedAll, Expr.reads, reads_readValue, hmodel, hsource]

theorem reads_variantSource (x : PlannedDispatch) :
    Expr.argReads [variantSource x] = [.value .json] := by
  unfold variantSource
  cases x.nestedAttribute <;> simp [Expr.reads, Expr.argReads]

theorem scoped_readVariants {scope : List Read} (x : PlannedDispatch)
    (hjson : .value .json ∈ scope) (hmodel : .value .model ∈ scope) (vs : List PlannedVariant) :
    ScopedArms scope (vs.map (readVariant x)) := by
  induction vs with
  | nil => trivial
  | cons v rest ih =>
    refine ⟨?_, ih⟩
    simp [Scoped, ScopedAll, Expr.reads, reads_variantSource, hjson, hmodel]

theorem keeps_makeModel :
    Keeps readingScope (makeModel p) (.value .model :: readingScope) := by
  have hmodel : .value .model ∈ .value .model :: readingScope := List.mem_cons_self
  have hjson : .value .json ∈ .value .model :: readingScope := by simp [readingScope]
  unfold makeModel constructVariant
  cases p.dispatch with
  | none => exact .single (by simp [Scoped, Expr.reads])
  | some x =>
    have hdeclare : Keeps readingScope
        [.declare .model (.declared p.descriptor.model) .null] (.value .model :: readingScope) :=
      .single (by simp [Scoped, Expr.reads])
    refine hdeclare.append (.of_forall ?_)
    simp only [List.mem_cons, List.not_mem_nil, or_false, forall_eq_or_imp, forall_eq]
    refine ⟨⟨rfl, ?_⟩, rfl, ?_⟩
    · simp only [Scoped]
      exact ⟨by simpa [Expr.reads] using hjson, scoped_readVariants x hjson hmodel _⟩
    · simp [Scoped, ScopedAll, Expr.reads]

/-- Behind the declaration of the embedded container, each attribute has its source in scope. -/
theorem keeps_findEmbedded {scope : List Read} (hjson : .value .json ∈ scope) :
    ∃ scope', Keeps scope (findEmbedded p) scope' ∧ scope ⊆ scope' ∧
      ∀ a ∈ p.attributes, .value (sourceOf a) ∈ scope' := by
  unfold findEmbedded
  cases he : p.hasEmbedded with
  | true =>
    have hdeclare : Keeps scope
        [.declare .embeddedMap .container (.subContainer .json embeddedKey)]
        (.value .embeddedMap :: scope) := .single (by simp [Scoped, Expr.reads, hjson])
    refine ⟨_, hdeclare, List.subset_cons_self _ _, ?_⟩
    intro a _
    unfold sourceOf
    cases a.embedded <;> simp [hjson]
  | false =>
    refine ⟨scope, ⟨trivial, rfl⟩, List.Subset.refl _, ?_⟩
    intro a ha
    have hplain : a.embedded = false := by
      have := List.any_eq_false.mp he a ha
      simpa using this
    simpa [sourceOf, hplain] using hjson

theorem scoped_readModel : ScopedAll readingScope (readModel table p) := by
  unfold readModel
  cases p.descriptor.customDeserializer with
  | some t => simp [Scoped, ScopedAll, Expr.reads, readingScope]
  | none =>
    have hmake := keeps_makeModel p
    obtain ⟨scope', hembedded, hsub, hsources⟩ :=
      keeps_findEmbedded p
        (show .value .json ∈ .value .model :: readingScope by simp [readingScope])
    have hmodel : .value .model ∈ scope' := hsub List.mem_cons_self
    have hset := keeps_setValues table hmodel hsources
    have hret : Keeps scope' [.ret (.var .model)] scope' :=
      .single (by simpa [Scoped, Expr.reads] using hmodel)
    exact (((hmake.append hembedded).append hset).append hret).uses

theorem declared_readModel :
    declaredAll (readModel table p) =
      if p.descriptor.customDeserializer.isSome then [] else
        .model :: if p.hasEmbedded then [.embeddedMap] else [] := by
  have hset : ∀ as : List PlannedAttribute, declaredAll (as.map (setValue table)) = [] := by
    intro as
    apply declaredAll_eq_nil
    intro s hs
    obtain ⟨a, -, rfl⟩ := List.mem_map.mp hs
    rfl
  have harms : ∀ (x : PlannedDispatch) (vs : List PlannedVariant),
      armsDeclared (vs.map (readVariant x)) = [] := by
    intro x vs
    induction vs with
    | nil => rfl
    | cons v rest ih => simp [armsDeclared, readVariant, declaredAll, declared, ih]
  have hmake : declaredAll (makeModel p) = [.model] := by
    unfold makeModel constructVariant
    cases p.dispatch with
    | none => rfl
    | some x => simp [declaredAll, declared, harms]
  have hembedded : declaredAll (findEmbedded p) =
      if p.hasEmbedded then [.embeddedMap] else [] := by
    unfold findEmbedded
    cases p.hasEmbedded <;> rfl
  unfold readModel
  cases p.descriptor.customDeserializer with
  | some t => rfl
  | none => simp [declaredAll_append, hset, hmake, hembedded, declaredAll, declared]

theorem wellScoped_fromJsonMethod : (fromJsonMethod table p).WellScoped where
  uses := by
    have hguard : Keeps readingScope [.when (.isNull (.var .json)) [.ret .null]] readingScope :=
      .single (by simp [Scoped, ScopedAll, Expr.reads, readingScope])
    exact (hguard.append ⟨scoped_readModel table p, rfl⟩).uses
  fresh := by
    change ([Var.json] ++ declaredAll (readModel table p)).Nodup
    rw [declared_readModel]
    cases p.descriptor.customDeserializer.isSome <;> cases p.hasEmbedded <;> decide
  context := by simp [fromJsonMethod, readingMethod]

theorem wellScoped_fromJsonCollectionMethod : (fromJsonCollectionMethod p).WellScoped where
  uses := by
    simp [fromJsonCollectionMethod, listReadingMethod, ScopedAll, Scoped, declares, Expr.reads,
      Param.read]
  fresh := by
    simp [fromJsonCollectionMethod, listReadingMethod, declaredAll, declared]
  context := by simp [fromJsonCollectionMethod, listReadingMethod]

/-- In every method of a plan, what is used is in scope and nothing is declared twice. -/
theorem wellScoped_of_mem_methods {m : Method} (h : m ∈ methods p) : m.WellScoped := by
  obtain ⟨k, -, rfl⟩ := Plan.mem_methods_iff.mp h
  cases k with
  | toJson => exact wellScoped_toJsonMethod _ p
  | toJsonCollection => exact wellScoped_toJsonCollectionMethod p
  | fromJson => exact wellScoped_fromJsonMethod _ p
  | fromJsonCollection => exact wellScoped_fromJsonCollectionMethod p

end Derive

end JsonMapping
