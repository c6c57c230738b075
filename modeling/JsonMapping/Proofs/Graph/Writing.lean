import JsonMapping.Proofs.Graph.Basic

/-! What a value is written as, read off the descriptors alone: no statement of a mapper is looked
at. A container gets the links, the plain fields, the container of the embedded fields, and what
the variants that the value is an instance of add, in this order. The main statement is `write_eq`:
writing a value is one such step, where the values inside are written in the same way. -/

namespace JsonMapping

/-- The value of an attribute; one that was never set is null. -/
def Value.attribute (v : Value) (field : Identifier) : Except RunError Value :=
  match v with
  | .model _ fields => .ok (.ofEntry fields field.text)
  | .null => .error (.nullDereference (.getter field))
  | found => .error (.typeMismatch .model found.kind)

/-- The elements of a list that a variable holds. -/
def Value.elements (v : Value) (holder : Var) : Except RunError (List Value) :=
  match v with
  | .list items => .ok items
  | .null => .error (.nullDereference (.var holder))
  | found => .error (.typeMismatch .list found.kind)

theorem Value.height_lt_of_attribute {v u : Value} {field : Identifier}
    (h : v.attribute field = .ok u) : u.height < v.height := by
  cases v <;> simp only [Value.attribute, reduceCtorEq] at h
  case model type fields =>
    cases h
    unfold Value.ofEntry
    cases hget : Entries.get? fields field.text with
    | none => simp [Value.height]
    | some u =>
      have := Value.height_le_of_get? hget
      simp only [Option.getD_some, Value.height]
      omega

theorem Value.height_lt_of_elements {v u : Value} {holder : Var} {items : List Value}
    (h : v.elements holder = .ok items) (hu : u ∈ items) : u.height < v.height := by
  cases v <;> simp only [Value.elements, reduceCtorEq] at h
  case list items' =>
    cases h
    exact Value.height_lt_of_mem_list hu

/-- A cast gives back the value that it is given. -/
theorem Value.eq_of_cast {v u : Value} {t : ValueType} (h : v.cast t = .ok u) : u = v := by
  unfold Value.cast at h
  split at h
  · exact (Except.ok.inj h).symm
  · cases h

/-- What a serializer makes of a value; without one it stays as it is. -/
def World.encode (w : World) (serializer : Option JavaType) (v : Value) : Except RunError Value :=
  match serializer with
  | some t => do (← w.helper t) v
  | none => .ok v

theorem World.mapper_eq_ok {w : World} {name : String} {m : Mapper} :
    w.mapper name = .ok m ↔ w.mappers.get? name = some m := by
  unfold World.mapper
  cases w.mappers.get? name <;> simp

theorem World.callee_eq_ok {w : World} {t : JavaType} {m : Mapper} :
    w.callee t = .ok m ↔ w.mappers.get? t.qualifiedName = some m := by
  unfold World.callee
  cases w.mappers.get? t.qualifiedName <;> simp

/-- Whether a descriptor has no methods of a kind. -/
def Descriptor.skips (d : Descriptor) : MethodKind → Bool
  | .toJson | .toJsonCollection => d.skipSerialize
  | .fromJson | .fromJsonCollection => d.skipDeserialize

namespace Graph

variable (G : Graph) (w : World)

/-- The member that a call to the mapper of a representer gets to. -/
def callee (kind : MethodKind) (r : RepresenterId) : Except RunError Descriptor :=
  match G.find? r with
  | none => .error (.unknownMapper (G.settings.mapperOf r).text)
  | some e =>
    if e.skips kind then .error (.missingMethod (G.settings.mapperOf e.representer) kind)
    else .ok e

/-- How the entries for a value are made, by the descriptor for it. -/
abbrev Writer := Descriptor → Value → Outcome (Entries Value)

section Step

variable (write : Writer)

def writeOne (r : RepresenterId) (v : Value) : Outcome (Entries Value) := do
  write (← G.callee .toJson r) v

/-- A list, element by element. -/
def writeAll (r : RepresenterId) (v : Value) : Outcome Value := do
  let e ← G.callee .toJsonCollection r
  let items ← v.elements .values
  return .list (← items.mapM fun item => return .map (← write e item))

/-- The wire value of an attribute of `v`. -/
def writeValue (v : Value) (m : AttributeMapping) : Outcome Value := do
  let current ← v.attribute m.model.name
  match m.conversion with
  | .plain serializer _ => w.encode serializer current
  | .single r => return .map (← G.writeOne write r current)
  | .collection r _ => G.writeAll write r current

/-- Entries with those for some attributes of `v` put into them. -/
def putValues (v : Value) (ms : List AttributeMapping) (es : Entries Value) :
    Outcome (Entries Value) :=
  ms.foldlM (fun es m => return es.insert m.wireKey (← G.writeValue w write v m)) es

/-- The entry for the embedded fields, if there are any. -/
def putEmbedded (d : Descriptor) (v : Value) (es : Entries Value) : Outcome (Entries Value) :=
  if G.hasEmbedded d then do
    return es.insert embeddedKey (.map (← G.putValues w write v (G.embeddedAttributes d) []))
  else .ok es

/-- The fields of a variant, for a value that is cast to the variant's model. -/
def variantFields (v : Value) (a : Variant) : Outcome (Entries Value) := do
  G.writeOne write a.representer (← v.cast (.declared (G.registry.modelOf a.representer)))

/-- The discriminator and the fields of a variant, if the value is an instance of its model. -/
def putVariant (x : Dispatch) (v : Value) (es : Entries Value) (a : Variant) :
    Outcome (Entries Value) :=
  if v.kind = .model (G.registry.modelOf a.representer).qualifiedName then do
    let es := es.insert x.discriminator (.string a.id)
    let fields ← G.variantFields write v a
    match x.nestedAttribute with
    | some key => return es.insert key (.map fields)
    | none => return es.insertAll fields
  else .ok es

def putVariants (d : Descriptor) (v : Value) (es : Entries Value) : Outcome (Entries Value) :=
  match d.dispatch with
  | some x => x.variants.foldlM (G.putVariant write x v) es
  | none => .ok es

/-- The links of a value, if there is a provider of them. -/
def linksOf (c : RequestContext) (d : Descriptor) (v : Value) : Except RunError (Entries Value) :=
  match G.links d with
  | some t => do return Entries.insertAll [] (← (← w.linksProvider t) v c)
  | none => .ok []

/-- All entries for a value, where `write` makes those for the values inside and for variants. -/
def writeWith (c : RequestContext) (d : Descriptor) (v : Value) : Outcome (Entries Value) := do
  let es ← G.linksOf w c d v
  let es ← G.putValues w write v (G.plainAttributes d) es
  let es ← G.putEmbedded w write d v es
  G.putVariants write d v es

end Step

/-- Writing with at most `depth` levels of values and variants. -/
def writeAt (c : RequestContext) : Nat → Writer
  | 0 => fun _ _ => .error .tooDeep
  | depth + 1 => G.writeWith w (writeAt c depth) c

/-- The entries that a value is written as, by the descriptor for it. -/
def write (c : RequestContext) (d : Descriptor) (v : Value) : Outcome (Entries Value) :=
  G.writeAt w c (G.bound v) d v

/-! ## The equation -/

variable {G w}

theorem callee_ok {kind : MethodKind} {r : RepresenterId} {e : Descriptor}
    (h : G.callee kind r = .ok e) : G.find? r = some e ∧ e.skips kind = false := by
  unfold callee at h
  split at h
  · cases h
  · rename_i e' he
    split at h
    · cases h
    · rename_i hs
      cases h
      exact ⟨he, by simpa using hs⟩

variable {W W' : Writer} {c : RequestContext} {d : Descriptor} {v : Value}

theorem writeOne_settles {r : RepresenterId} {u : Value}
    (h : ∀ e, G.find? r = some e → Settles (W e u) (W' e u)) :
    Settles (G.writeOne W r u) (G.writeOne W' r u) :=
  .lift_bind fun e he => h e (callee_ok he).1

theorem writeAll_settles {r : RepresenterId} {u : Value}
    (h : ∀ e, ∀ i : Value, i.height < u.height → Settles (W e i) (W' e i)) :
    Settles (G.writeAll W r u) (G.writeAll W' r u) := by
  refine .lift_bind ?_
  intro e _
  refine .lift_bind ?_
  intro items hu
  refine .bind (.mapM ?_) fun _ _ => .ok _
  intro i hi
  exact (h e i (Value.height_lt_of_elements hu hi)).bind fun _ _ => .ok _

theorem writeValue_settles {m : AttributeMapping}
    (h : ∀ e, ∀ u : Value, u.height < v.height → Settles (W e u) (W' e u)) :
    Settles (G.writeValue w W v m) (G.writeValue w W' v m) := by
  refine .lift_bind ?_
  intro u hu
  have hlt := Value.height_lt_of_attribute hu
  cases m.conversion with
  | plain serializer deserializer => exact .lift _
  | single r => exact (writeOne_settles fun e _ => h e u hlt).bind fun _ _ => .ok _
  | collection r element => exact writeAll_settles fun e i hi => h e i (hi.trans hlt)

theorem putValues_settles {ms : List AttributeMapping} {es : Entries Value}
    (h : ∀ e, ∀ u : Value, u.height < v.height → Settles (W e u) (W' e u)) :
    Settles (G.putValues w W v ms es) (G.putValues w W' v ms es) :=
  .foldlM fun _ _ _ => (writeValue_settles h).bind fun _ _ => .ok _

theorem putEmbedded_settles {es : Entries Value}
    (h : ∀ e, ∀ u : Value, u.height < v.height → Settles (W e u) (W' e u)) :
    Settles (G.putEmbedded w W d v es) (G.putEmbedded w W' d v es) := by
  unfold putEmbedded
  split
  · exact (putValues_settles h).bind fun _ _ => .ok _
  · exact .ok es

theorem putVariant_settles {x : Dispatch} {a : Variant} {es : Entries Value}
    (hx : d.dispatch = some x) (ha : a ∈ x.variants)
    (h : ∀ e u, G.weight e u < G.weight d v → Settles (W e u) (W' e u)) :
    Settles (G.putVariant W x v es a) (G.putVariant W' x v es a) := by
  have ha : a ∈ d.variants := by rwa [Descriptor.variants_eq hx]
  unfold putVariant
  split
  · refine .bind (.lift_bind ?_) ?_
    · intro u hu
      rw [Value.eq_of_cast hu]
      exact writeOne_settles fun e he => h e v (G.weight_lt_of_handsOn (G.handsOn_of_find? ha he) v)
    · intro fields _
      cases x.nestedAttribute <;> exact .ok _
  · exact .ok es

/-- A step only asks for values that weigh less. -/
theorem writeWith_settles (h : ∀ e u, G.weight e u < G.weight d v → Settles (W e u) (W' e u)) :
    Settles (G.writeWith w W c d v) (G.writeWith w W' c d v) := by
  have hinside : ∀ e, ∀ u : Value, u.height < v.height → Settles (W e u) (W' e u) := by
    intro e u hlt
    exact h e u (G.weight_lt_of_height_lt hlt e d)
  refine .lift_bind ?_
  intro es _
  refine .bind (putValues_settles hinside) ?_
  intro es _
  refine .bind (putEmbedded_settles hinside) ?_
  intro es _
  unfold putVariants
  split
  · rename_i x hx
    exact .foldlM fun es a ha => putVariant_settles hx ha h
  · exact .ok es

/-- Depth beyond the weight changes nothing, and it is enough. -/
theorem writeAt_settles {n n' : Nat} (hn : G.weight d v < n) (hn' : G.weight d v < n') :
    Settles (G.writeAt w c n d v) (G.writeAt w c n' d v) := by
  induction n generalizing d v n' with
  | zero => omega
  | succ n ih =>
    cases n' with
    | zero => omega
    | succ n' => exact writeWith_settles fun e u hlt => ih (by omega) (by omega)

/-- A value is written in one step from how the values inside and the variants are written. -/
theorem write_eq (w : World) (c : RequestContext) (d : Descriptor) (v : Value) :
    G.write w c d v = G.writeWith w (G.write w c) c d v := by
  have hd := G.weight_lt_bound d v
  unfold write
  rw [(writeAt_settles hd (Nat.lt_succ_of_lt hd)).eq]
  exact (writeWith_settles fun e u hlt =>
    writeAt_settles (by omega) (G.weight_lt_bound e u)).eq

/-- Writing always comes to an end. -/
theorem write_ends (w : World) (c : RequestContext) (d : Descriptor) (v : Value) :
    G.write w c d v ≠ .error .tooDeep :=
  (writeAt_settles (G.weight_lt_bound d v) (G.weight_lt_bound d v)).ends

end Graph

end JsonMapping
