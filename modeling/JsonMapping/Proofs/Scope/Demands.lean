import JsonMapping.Mapper.Traversal
import JsonMapping.Proofs.Derive.Constants
import JsonMapping.Proofs.Scope.Runs

/-! What derived methods demand. A method asks for helpers that the plan has constants for, and
for methods of its own direction: of the mapper that it belongs to, and of the mappers that the
plan refers to. -/

namespace JsonMapping

namespace Stmt

theorem demandsAll_append (xs ys : List Stmt) :
    demandsAll (xs ++ ys) = demandsAll xs ++ demandsAll ys := by
  induction xs with
  | nil => rfl
  | cons s rest ih => simp only [List.cons_append, demandsAll, ih, List.append_assoc]

theorem mem_demandsAll {d : Demand} {stmts : List Stmt} :
    d ∈ demandsAll stmts ↔ ∃ s ∈ stmts, d ∈ s.demands := by
  induction stmts with
  | nil => simp [demandsAll]
  | cons s rest ih => simp [demandsAll, ih]

theorem mem_armDemands {d : Demand} {arms : List (String × List Stmt)} :
    d ∈ armDemands arms ↔ ∃ arm ∈ arms, d ∈ demandsAll arm.2 := by
  induction arms with
  | nil => simp [armDemands]
  | cons arm rest ih =>
    obtain ⟨text, body⟩ := arm
    simp [armDemands, ih]

end Stmt

/-! ## Calls

A call may stand anywhere in a body. Wherever it stands, it is one of the demands. -/

/-- The mapper and the method that an expression calls. -/
def Expr.callee? : Expr → Option (JavaType × MethodKind)
  | .callMapper t k _ | .mapEach _ t k _ => some (t, k)
  | _ => none

/-- An expression in the body of the method calls the method of the mapper. -/
def Method.Calls (m : Method) (t : JavaType) (k : MethodKind) : Prop :=
  ∃ e, .expr e ∈ Stmt.mentionsAll m.body ∧ e.callee? = some (t, k)

section Calls

variable {e : Expr} {t : JavaType} {k : MethodKind}

theorem JavaType.expr_not_mem_mentions (t : JavaType) : Mention.expr e ∉ t.mentions := by
  simp [JavaType.mentions]

theorem ValueType.expr_not_mem_mentions (t : ValueType) : Mention.expr e ∉ t.mentions := by
  cases t <;> simp [ValueType.mentions, JavaType.expr_not_mem_mentions]

namespace Expr

mutual
theorem call_mem_demands (outer : Expr) (h : Mention.expr e ∈ outer.mentions)
    (he : e.callee? = some (t, k)) : ∃ context, .call t k context ∈ outer.demands := by
  cases outer with
  | callMapper t' k' args =>
    simp only [mentions, List.mem_cons, Mention.expr.injEq, reduceCtorEq, false_or] at h
    rcases h with rfl | h
    · cases he
      exact ⟨givesContext args, by simp [demands]⟩
    · obtain ⟨context, hmem⟩ := call_mem_argDemands args h he
      exact ⟨context, by simp [demands, hmem]⟩
  | mapEach v t' k' c =>
    simp only [mentions, List.mem_cons, Mention.expr.injEq, reduceCtorEq, List.not_mem_nil,
      or_false] at h
    subst h
    cases he
    exact ⟨c.isSome, by simp [demands]⟩
  | isNull inner | cast _ inner | apply _ inner =>
    simp only [mentions, List.mem_cons, List.mem_append, Mention.expr.injEq,
      ValueType.expr_not_mem_mentions, false_or] at h
    rcases h with rfl | h
    · cases he
    · obtain ⟨context, hmem⟩ := call_mem_demands inner h he
      exact ⟨context, by simp [demands, hmem]⟩
  | newModel _ | isInstance _ _ =>
    simp only [mentions, List.mem_cons, Mention.expr.injEq, JavaType.expr_not_mem_mentions,
      or_false] at h
    subst h
    cases he
  | _ =>
    simp only [mentions, List.mem_cons, Mention.expr.injEq, List.not_mem_nil, or_false] at h
    subst h
    cases he
theorem call_mem_argDemands (args : List Expr) (h : Mention.expr e ∈ mentionsAll args)
    (he : e.callee? = some (t, k)) : ∃ context, .call t k context ∈ argDemands args := by
  cases args with
  | nil => simp [mentionsAll] at h
  | cons first rest =>
    simp only [mentionsAll, List.mem_append] at h
    rcases h with h | h
    · obtain ⟨context, hmem⟩ := call_mem_demands first h he
      exact ⟨context, by simp [argDemands, hmem]⟩
    · obtain ⟨context, hmem⟩ := call_mem_argDemands rest h he
      exact ⟨context, by simp [argDemands, hmem]⟩
end

end Expr

namespace Stmt

mutual
theorem call_mem_demands (s : Stmt) (h : Mention.expr e ∈ s.mentions)
    (he : e.callee? = some (t, k)) : ∃ context, .call t k context ∈ s.demands := by
  cases s with
  | declare _ _ inner | assign _ inner | put _ _ inner | putAll _ inner
  | setAttribute _ _ inner | ret inner =>
    simp only [mentions, List.mem_cons, List.mem_append, ValueType.expr_not_mem_mentions,
      reduceCtorEq, false_or] at h
    simpa only [demands] using Expr.call_mem_demands inner h he
  | when condition body =>
    simp only [mentions, List.mem_cons, List.mem_append, reduceCtorEq, false_or] at h
    rcases h with h | h
    · obtain ⟨context, hmem⟩ := Expr.call_mem_demands condition h he
      exact ⟨context, by simp [demands, hmem]⟩
    · obtain ⟨context, hmem⟩ := call_mem_demandsAll body h he
      exact ⟨context, by simp [demands, hmem]⟩
  | select scrutinee arms =>
    simp only [mentions, List.mem_cons, List.mem_append, reduceCtorEq, false_or] at h
    rcases h with h | h
    · obtain ⟨context, hmem⟩ := Expr.call_mem_demands scrutinee h he
      exact ⟨context, by simp [demands, hmem]⟩
    · obtain ⟨context, hmem⟩ := call_mem_armDemands arms h he
      exact ⟨context, by simp [demands, hmem]⟩
theorem call_mem_demandsAll (stmts : List Stmt) (h : Mention.expr e ∈ mentionsAll stmts)
    (he : e.callee? = some (t, k)) : ∃ context, .call t k context ∈ demandsAll stmts := by
  cases stmts with
  | nil => simp [mentionsAll] at h
  | cons s rest =>
    simp only [mentionsAll, List.mem_append] at h
    rcases h with h | h
    · obtain ⟨context, hmem⟩ := call_mem_demands s h he
      exact ⟨context, by simp [demandsAll, hmem]⟩
    · obtain ⟨context, hmem⟩ := call_mem_demandsAll rest h he
      exact ⟨context, by simp [demandsAll, hmem]⟩
theorem call_mem_armDemands (arms : List (String × List Stmt))
    (h : Mention.expr e ∈ armMentions arms) (he : e.callee? = some (t, k)) :
    ∃ context, .call t k context ∈ armDemands arms := by
  match arms with
  | [] => simp [armMentions] at h
  | (text, body) :: rest =>
    simp only [armMentions, List.mem_append] at h
    rcases h with h | h
    · obtain ⟨context, hmem⟩ := call_mem_demandsAll body h he
      exact ⟨context, by simp [armDemands, hmem]⟩
    · obtain ⟨context, hmem⟩ := call_mem_armDemands rest h he
      exact ⟨context, by simp [armDemands, hmem]⟩
end

end Stmt

end Calls

/-! ## Plans -/

namespace Derive

/-- The mapper that a value goes through. -/
def Transfer.mapper? : Transfer → Option JavaType
  | .plain _ _ => none
  | .single t | .collection t => some t

namespace Plan

def variants (p : Plan) : List PlannedVariant := (p.dispatch.map (·.variants)).getD []

/-- The mappers of all that the plan refers to. -/
def callees (p : Plan) : List JavaType :=
  p.attributes.filterMap (·.transfer.mapper?) ++ p.variants.map (·.mapper)

/-- What a method of a kind may demand: helpers that the plan uses, and methods of its own direction
of its own mapper and of those that the plan refers to. Methods that write hand on the request
context. Those that read call mappers of others only where there is no custom deserializer. -/
def Asks (p : Plan) (kind : MethodKind) : Demand → Prop
  | .helper name | .links name => ∃ use ∈ p.helperUses, name = constantName p.constants use.1
  | .call t k context => k.writes = kind.writes ∧ context = k.writes ∧
    (t = p.mapper ∨
      t ∈ p.callees ∧ (k.writes = false → p.descriptor.customDeserializer = none))

variable {p : Plan} {a : PlannedAttribute}

theorem Asks.helper {kind : MethodKind} {use : HelperUse} (h : use ∈ p.helperUses) :
    p.Asks kind (.helper (constantName p.constants use.1)) :=
  ⟨use, h, rfl⟩

theorem Asks.links {kind : MethodKind} {use : HelperUse} (h : use ∈ p.helperUses) :
    p.Asks kind (.links (constantName p.constants use.1)) :=
  ⟨use, h, rfl⟩

theorem Asks.self {kind : MethodKind} (k : MethodKind) (hk : k.writes = kind.writes) :
    p.Asks kind (.call p.mapper k k.writes) :=
  ⟨hk, rfl, .inl rfl⟩

theorem Asks.callee {kind : MethodKind} {t : JavaType} (k : MethodKind)
    (hk : k.writes = kind.writes) (ht : t ∈ p.callees)
    (hread : k.writes = false → p.descriptor.customDeserializer = none) :
    p.Asks kind (.call t k k.writes) :=
  ⟨hk, rfl, .inr ⟨ht, hread⟩⟩

theorem mem_callees_of_attribute {t : JavaType} (ha : a ∈ p.attributes)
    (ht : a.transfer.mapper? = some t) : t ∈ p.callees :=
  List.mem_append_left _ (List.mem_filterMap.mpr ⟨a, ha, ht⟩)

theorem mem_callees_of_variant {x : PlannedDispatch} {v : PlannedVariant}
    (hx : p.dispatch = some x) (hv : v ∈ x.variants) : v.mapper ∈ p.callees := by
  refine List.mem_append_right _ (List.mem_map_of_mem ?_)
  simpa [variants, hx] using hv

end Plan

open Stmt

variable {p : Plan} {a : PlannedAttribute} {d : Demand}

/-! ## Methods that write -/

theorem asks_writeValue (hs : p.descriptor.skipSerialize = false) (ha : a ∈ p.attributes)
    (hd : d ∈ (writeValue p.constants a).demands) : p.Asks .toJson d := by
  unfold writeValue at hd
  cases ht : a.transfer with
  | plain serializer deserializer =>
    cases serializer with
    | none => simp [ht, Expr.demands] at hd
    | some t =>
      have huse := Plan.mem_helperUses_of_writing hs (Plan.serializer_mem_writingUses ha ht)
      simp only [ht, Expr.demands, List.mem_singleton] at hd
      exact hd ▸ .helper huse
  | single t =>
    have hcallee := Plan.mem_callees_of_attribute ha (t := t) (by rw [ht]; rfl)
    simp only [ht, Expr.demands, Expr.argDemands, Expr.givesContext, List.append_nil,
      List.mem_singleton] at hd
    exact hd ▸ .callee .toJson rfl hcallee (fun h => nomatch h)
  | collection t =>
    have hcallee := Plan.mem_callees_of_attribute ha (t := t) (by rw [ht]; rfl)
    simp only [ht, Expr.demands, Expr.argDemands, Expr.givesContext, List.append_nil,
      List.mem_singleton] at hd
    exact hd ▸ .callee .toJsonCollection rfl hcallee (fun h => nomatch h)

theorem asks_putValues (hs : p.descriptor.skipSerialize = false) {as : List PlannedAttribute}
    (has : as ⊆ p.attributes) {target : Var}
    (hd : d ∈ demandsAll (as.map (putValue p.constants target))) : p.Asks .toJson d := by
  obtain ⟨s, hmem, hd⟩ := mem_demandsAll.mp hd
  obtain ⟨a, ha, rfl⟩ := List.mem_map.mp hmem
  exact asks_writeValue hs (has ha) hd

theorem asks_putLinks (hs : p.descriptor.skipSerialize = false)
    (hd : d ∈ demandsAll (putLinks p.constants p)) : p.Asks .toJson d := by
  unfold putLinks at hd
  cases hl : p.links with
  | none => simp [hl, demandsAll] at hd
  | some t =>
    have huse := Plan.mem_helperUses_of_writing hs (Plan.linksProvider_mem_writingUses hl)
    simp only [hl, demandsAll, demands, Expr.demands, List.append_nil, List.mem_singleton] at hd
    exact hd ▸ .links huse

theorem asks_putVariants (hd : d ∈ demandsAll (putVariants p)) : p.Asks .toJson d := by
  obtain ⟨s, hmem, hd⟩ := mem_demandsAll.mp hd
  unfold putVariants at hmem
  cases hx : p.dispatch with
  | none => simp [hx] at hmem
  | some x =>
    simp only [hx] at hmem
    obtain ⟨v, hv, rfl⟩ := List.mem_map.mp hmem
    have heq : d = .call v.mapper .toJson true := by
      unfold putVariant at hd
      cases hn : x.nestedAttribute <;>
        simpa [hn, demands, demandsAll, Expr.demands, Expr.argDemands, Expr.givesContext] using hd
    exact heq ▸ .callee .toJson rfl (Plan.mem_callees_of_variant hx hv) (fun h => nomatch h)

theorem asks_putEmbedded (hs : p.descriptor.skipSerialize = false)
    (hd : d ∈ demandsAll (putEmbedded p.constants p)) : p.Asks .toJson d := by
  unfold putEmbedded at hd
  split at hd
  · have hfill : d ∈ demandsAll (p.embeddedAttributes.map (putValue p.constants .embeddedMap)) := by
      simpa [demandsAll_append, demandsAll, demands, Expr.demands] using hd
    exact asks_putValues hs (List.filter_subset_self _) hfill
  · cases hd

theorem asks_toJsonBody (hs : p.descriptor.skipSerialize = false)
    (hd : d ∈ demandsAll (toJsonBody p.constants p)) : p.Asks .toJson d := by
  simp only [toJsonBody, List.cons_append, demandsAll, demandsAll_append, demands, Expr.demands,
    List.nil_append, List.append_nil, List.mem_append] at hd
  rcases hd with ((hlinks | hplain) | hembedded) | hvariants
  · exact asks_putLinks hs hlinks
  · exact asks_putValues hs (List.filter_subset_self _) hplain
  · exact asks_putEmbedded hs hembedded
  · exact asks_putVariants hvariants

/-! ## Methods that read -/

theorem asks_readValue (hs : p.descriptor.skipDeserialize = false)
    (hcustom : p.descriptor.customDeserializer = none) (ha : a ∈ p.attributes) {v : Var}
    {key : String} (hd : d ∈ (readValue p.constants a (.lookup v key)).demands) :
    p.Asks .fromJson d := by
  have hcast : ∀ t : Option JavaType, (castTo t (.lookup v key)).demands = [] := by
    intro t
    cases t <;> simp [castTo, Expr.demands]
  unfold readValue at hd
  cases ht : a.transfer with
  | plain serializer deserializer =>
    cases deserializer with
    | none => simp [ht, hcast] at hd
    | some t =>
      have huse := Plan.mem_helperUses_of_reading hs
        (Plan.deserializer_mem_readingUses hcustom ha ht)
      simp only [ht, Expr.demands, hcast, List.mem_singleton] at hd
      exact hd ▸ .helper huse
  | single t =>
    have hcallee := Plan.mem_callees_of_attribute ha (t := t) (by rw [ht]; rfl)
    simp only [ht, Expr.demands, Expr.argDemands, Expr.givesContext, List.append_nil,
      List.mem_singleton] at hd
    exact hd ▸ .callee .fromJson rfl hcallee fun _ => hcustom
  | collection t =>
    have hcallee := Plan.mem_callees_of_attribute ha (t := t) (by rw [ht]; rfl)
    simp only [ht, Expr.demands, Expr.argDemands, Expr.givesContext, List.append_nil,
      List.mem_singleton] at hd
    exact hd ▸ .callee .fromJsonCollection rfl hcallee fun _ => hcustom

theorem asks_makeModel (hcustom : p.descriptor.customDeserializer = none)
    (hd : d ∈ demandsAll (makeModel p)) : p.Asks .fromJson d := by
  unfold makeModel constructVariant at hd
  cases hx : p.dispatch with
  | none => simp [hx, demandsAll, demands, Expr.demands] at hd
  | some x =>
    have harms : d ∈ armDemands (x.variants.map (readVariant x)) := by
      simpa [hx, demandsAll, demands, Expr.demands] using hd
    obtain ⟨arm, hmem, hd⟩ := mem_armDemands.mp harms
    obtain ⟨v, hv, rfl⟩ := List.mem_map.mp hmem
    have heq : d = .call v.mapper .fromJson false := by
      unfold readVariant variantSource at hd
      cases hn : x.nestedAttribute <;>
        simpa [hn, demands, demandsAll, Expr.demands, Expr.argDemands, Expr.givesContext] using hd
    exact heq ▸ .callee .fromJson rfl (Plan.mem_callees_of_variant hx hv) fun _ => hcustom

theorem asks_readModel (hs : p.descriptor.skipDeserialize = false)
    (hd : d ∈ demandsAll (readModel p.constants p)) : p.Asks .fromJson d := by
  unfold readModel at hd
  cases hcustom : p.descriptor.customDeserializer with
  | some t =>
    have huse : (t, .customDeserializer) ∈ p.readingUses := by simp [Plan.readingUses, hcustom]
    simp only [hcustom, demandsAll, demands, Expr.demands, List.append_nil,
      List.mem_singleton] at hd
    exact hd ▸ .helper (Plan.mem_helperUses_of_reading hs huse)
  | none =>
    have hfind : demandsAll (findEmbedded p) = [] := by
      unfold findEmbedded
      split <;> rfl
    simp only [hcustom, demandsAll_append, hfind, demandsAll, demands, Expr.demands,
      List.append_nil, List.mem_append] at hd
    rcases hd with hmake | hset
    · exact asks_makeModel hcustom hmake
    · obtain ⟨s, hmem, hd⟩ := mem_demandsAll.mp hset
      obtain ⟨a, ha, rfl⟩ := List.mem_map.mp hmem
      simp only [setValue, demands, demandsAll, Expr.demands, List.nil_append,
        List.append_nil] at hd
      exact asks_readValue hs hcustom ha hd

/-! ## All methods -/

/-- Every demand of a method is one that its plan allows for. -/
theorem asks_of_mem_demands {k : MethodKind} (hs : p.descriptor.skips k = false)
    (hd : d ∈ (p.method k).demands) : p.Asks k d := by
  cases k with
  | toJson => exact asks_toJsonBody hs hd
  | toJsonCollection =>
    have heq : d = .call p.mapper .toJson true := by
      simpa [Method.demands, Plan.method, toJsonCollectionMethod, listWritingMethod, demandsAll,
        demands, Expr.demands] using hd
    exact heq ▸ .self .toJson rfl
  | fromJson =>
    have hbody : d ∈ demandsAll (readModel p.constants p) := by
      simpa [Method.demands, Plan.method, fromJsonMethod, readingMethod, fromJsonBody, demandsAll,
        demands, Expr.demands] using hd
    exact asks_readModel hs hbody
  | fromJsonCollection =>
    have heq : d = .call p.mapper .fromJson false := by
      simpa [Method.demands, Plan.method, fromJsonCollectionMethod, listReadingMethod, demandsAll,
        demands, Expr.demands] using hd
    exact heq ▸ .self .fromJson rfl

end Derive

end JsonMapping
