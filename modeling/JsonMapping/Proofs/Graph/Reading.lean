import JsonMapping.Proofs.Graph.Writing

/-! What a value is read as, read off the descriptors alone. The model is made first, by its own
descriptor or by that of a variant; then every attribute whose field is there is set. The main
statement is `read_eq`: reading a value is one such step, where the values inside are read in the
same way. -/

namespace JsonMapping

namespace Value

/-- The entries of a map that a variable holds. -/
def entries (v : Value) (holder : Var) : Except RunError (Entries Value) :=
  match v with
  | .map es => .ok es
  | .null => .error (.nullDereference (.var holder))
  | found => .error (.typeMismatch .map found.kind)

/-- The model with a value for one of its attributes. -/
def setAttribute (v : Value) (field : Identifier) (value : Value) : Except RunError Value :=
  match v with
  | .model type fields => .ok (.model type (Entries.insert fields field.text value))
  | .null => .error (.nullDereference (.setter field))
  | found => .error (.typeMismatch .model found.kind)

/-- The value as the type that an attribute is declared with, if it is declared with one. -/
def castTo (v : Value) (type : Option JavaType) : Except RunError Value :=
  match type with
  | some t => v.cast (.declared t)
  | none => .ok v

theorem isNull_iff {v : Value} : v.isNull = true ↔ v = .null := by
  cases v <;> simp [isNull]

theorem eq_map_of_entries {v : Value} {holder : Var} {es : Entries Value}
    (h : v.entries holder = .ok es) : v = .map es := by
  cases v <;> simp only [entries, reduceCtorEq] at h
  cases h
  rfl

theorem height_lt_of_entries {v u : Value} {holder : Var} {es : Entries Value} {key : String}
    (h : v.entries holder = .ok es) (hu : es.get? key = some u) : u.height < v.height := by
  cases v <;> simp only [entries, reduceCtorEq] at h
  case map es' =>
    cases h
    have := height_le_of_get? hu
    simp only [height]
    omega

theorem height_ofEntry_lt {v : Value} {holder : Var} {es : Entries Value}
    (h : v.entries holder = .ok es) (key : String) : (ofEntry es key).height < v.height := by
  cases hget : es.get? key with
  | some u =>
    simp only [ofEntry, hget, Option.getD_some]
    exact height_lt_of_entries h hget
  | none =>
    cases v <;> simp only [entries, reduceCtorEq] at h
    case map es' => simp [ofEntry, hget, height]

end Value

/-- What a deserializer makes of a wire value that is cast first; without one the cast to the type
of the model's attribute is all. -/
def World.decode (w : World) (deserializer : Option JavaType) (m : AttributeMapping) (raw : Value) :
    Except RunError Value :=
  match deserializer with
  | some t => do
    let raw ← raw.castTo m.wire.type
    (← w.helper t) raw
  | none => raw.castTo m.model.type

namespace Graph

variable (G : Graph) (w : World)

/-- How the model of a value is made, by the descriptor for it. -/
abbrev Reader := Descriptor → Value → Outcome Value

section Step

variable (read : Reader)

def readOne (r : RepresenterId) (j : Value) : Outcome Value := do
  read (← G.callee .fromJson r) j

/-- A list, element by element; null is read as an empty one. -/
def readAll (r : RepresenterId) (j : Value) : Outcome Value := do
  let e ← G.callee .fromJsonCollection r
  if j.isNull then return .list []
  return .list (← (← j.elements .jsonArray).mapM (read e))

/-- The model's value of an attribute from its wire value. -/
def readValue (m : AttributeMapping) (raw : Value) : Outcome Value := do
  match m.conversion with
  | .plain _ deserializer => w.decode deserializer m raw
  | .single r => G.readOne read r (← raw.cast .container)
  | .collection r _ => G.readAll read r (← raw.cast .containerList)

/-- What a variant is read from: the value itself, or the container for the variant in it. -/
def variantSource (x : Dispatch) (j : Value) : Except RunError Value :=
  match x.nestedAttribute with
  | some key => do Value.cast (.ofEntry (← j.entries .json) key) .container
  | none => .ok j

/-- The variant that the discriminator names, read. None is named by anything but its own id. -/
def readVariant (x : Dispatch) (j : Value) : Outcome Value := do
  let chosen := Value.ofEntry (← j.entries .json) x.discriminator
  match x.variants.find? fun a => chosen.string? = some a.id with
  | some a => do G.readOne read a.representer (← variantSource x j)
  | none => return .null

def makeModel (d : Descriptor) (j : Value) : Outcome Value :=
  match d.dispatch with
  | some x => G.readVariant read x j
  | none => .ok (w.instantiate d.model)

/-- The container of the embedded fields, an empty one where it is absent. -/
def embeddedIn (d : Descriptor) (j : Value) : Except RunError Value := do
  if G.hasEmbedded d then
    match (← j.entries .json).get? embeddedKey with
    | some found => found.cast .container
    | none => return .map []
  else return .null

/-- The entries that the field of an attribute is looked up in. -/
def fieldsFor (j embedded : Value) (m : AttributeMapping) : Except RunError (Entries Value) :=
  if m.embedded then embedded.entries .embeddedMap else j.entries .json

/-- The model with the attribute set, if its field is there. -/
def readInto (j embedded model : Value) (m : AttributeMapping) : Outcome Value := do
  match (← fieldsFor j embedded m).get? m.wireKey with
  | some raw => do model.setAttribute m.model.name (← G.readValue w read m raw)
  | none => return model

/-- The model with all attributes set whose fields are there. -/
def readAttributes (d : Descriptor) (j model : Value) : Outcome Value := do
  let embedded ← G.embeddedIn d j
  (G.attributes d).foldlM (G.readInto w read j embedded) model

/-- The model of a value, where `read` makes those of the values inside and of variants. -/
def readWith (d : Descriptor) (j : Value) : Outcome Value := do
  if j.isNull then return .null
  match d.customDeserializer with
  | some t => do (← w.helper t) j
  | none => do
    let model ← G.makeModel w read d j
    if model.isNull then return .null
    G.readAttributes w read d j model

end Step

/-- Reading with at most `depth` levels of values and variants. -/
def readAt : Nat → Reader
  | 0 => fun _ _ => .error .tooDeep
  | depth + 1 => G.readWith w (readAt depth)

/-- The model that a value is read as, by the descriptor for it. -/
def read (d : Descriptor) (j : Value) : Outcome Value := G.readAt w (G.bound j) d j

/-! ## The equation -/

variable {G w} {R R' : Reader} {d : Descriptor} {j : Value}

theorem readOne_settles {r : RepresenterId} {u : Value}
    (h : ∀ e, G.find? r = some e → Settles (R e u) (R' e u)) :
    Settles (G.readOne R r u) (G.readOne R' r u) :=
  .lift_bind fun e he => h e (callee_ok he).1

theorem readAll_settles {r : RepresenterId} {u : Value}
    (h : ∀ e, ∀ i : Value, i.height < u.height → Settles (R e i) (R' e i)) :
    Settles (G.readAll R r u) (G.readAll R' r u) := by
  refine .lift_bind ?_
  intro e _
  cases u.isNull with
  | true => exact .ok _
  | false =>
    refine .lift_bind ?_
    intro items hu
    refine .bind (.mapM ?_) fun _ _ => .ok _
    intro i hi
    exact h e i (Value.height_lt_of_elements hu hi)

theorem readValue_settles {m : AttributeMapping} {raw : Value}
    (h : ∀ e, ∀ u : Value, u.height ≤ raw.height → Settles (R e u) (R' e u)) :
    Settles (G.readValue w R m raw) (G.readValue w R' m raw) := by
  unfold readValue
  cases m.conversion with
  | plain serializer deserializer => exact .lift _
  | single r =>
    refine .lift_bind ?_
    intro u hu
    rw [Value.eq_of_cast hu]
    exact readOne_settles fun e _ => h e raw (Nat.le_refl _)
  | collection r element =>
    refine .lift_bind ?_
    intro u hu
    rw [Value.eq_of_cast hu]
    exact readAll_settles fun e i hi => h e i (Nat.le_of_lt hi)

theorem readVariant_settles {x : Dispatch} (hx : d.dispatch = some x)
    (h : ∀ e u, G.weight e u < G.weight d j → Settles (R e u) (R' e u)) :
    Settles (G.readVariant R x j) (G.readVariant R' x j) := by
  refine .lift_bind ?_
  intro es hj
  dsimp only
  split
  · rename_i a ha
    have ha : a ∈ d.variants := by
      rw [Descriptor.variants_eq hx]
      exact List.mem_of_find?_eq_some ha
    refine .lift_bind fun u hu => readOne_settles fun e he => h e u ?_
    unfold variantSource at hu
    split at hu
    · rename_i key hkey
      rw [hj, ok_bind] at hu
      rw [Value.eq_of_cast hu]
      exact G.weight_lt_of_height_lt (Value.height_ofEntry_lt hj key) e d
    · cases hu
      exact G.weight_lt_of_handsOn (G.handsOn_of_find? ha he) j
  · exact .ok _

/-- The container of the embedded fields is not deeper than the value that it is in. -/
theorem height_embeddedIn_le {embedded : Value} (h : G.embeddedIn d j = .ok embedded) :
    embedded.height ≤ j.height := by
  unfold embeddedIn at h
  split at h
  · obtain ⟨es, hes, h⟩ := bind_eq_ok.mp h
    split at h
    · rename_i found hfound
      rw [Value.eq_of_cast h]
      exact Nat.le_of_lt (Value.height_lt_of_entries hes hfound)
    · cases h
      cases j <;> simp_all [Value.entries, Value.height, Value.heightEntries]
  · cases h
    exact Nat.zero_le _

theorem height_lt_of_fieldsFor {embedded raw : Value} {m : AttributeMapping} {es : Entries Value}
    (hembedded : embedded.height ≤ j.height) (h : fieldsFor j embedded m = .ok es)
    (hraw : es.get? m.wireKey = some raw) : raw.height < j.height := by
  unfold fieldsFor at h
  split at h
  · exact Nat.lt_of_lt_of_le (Value.height_lt_of_entries h hraw) hembedded
  · exact Value.height_lt_of_entries h hraw

theorem readAttributes_settles {model : Value}
    (h : ∀ e, ∀ u : Value, u.height < j.height → Settles (R e u) (R' e u)) :
    Settles (G.readAttributes w R d j model) (G.readAttributes w R' d j model) := by
  refine .lift_bind ?_
  intro embedded hembedded
  refine .foldlM ?_
  intro model m _
  refine .lift_bind ?_
  intro es hes
  split
  · rename_i raw hraw
    have hlt := height_lt_of_fieldsFor (height_embeddedIn_le hembedded) hes hraw
    exact (readValue_settles fun e u hu => h e u (by omega)).bind fun u _ => .lift _
  · exact .ok model

/-- A step only asks for values that weigh less. -/
theorem readWith_settles (h : ∀ e u, G.weight e u < G.weight d j → Settles (R e u) (R' e u)) :
    Settles (G.readWith w R d j) (G.readWith w R' d j) := by
  unfold readWith
  cases j.isNull with
  | true => exact .ok _
  | false =>
    cases d.customDeserializer with
    | some t => exact .lift_bind fun f _ => .lift (f j)
    | none =>
      refine .bind ?_ ?_
      · unfold makeModel
        split
        · rename_i x hx
          exact readVariant_settles hx h
        · exact .ok _
      · intro model _
        cases model.isNull with
        | true => exact .ok _
        | false =>
          exact readAttributes_settles fun e u hu => h e u (G.weight_lt_of_height_lt hu e d)

/-- Depth beyond the weight changes nothing, and it is enough. -/
theorem readAt_settles {n n' : Nat} (hn : G.weight d j < n) (hn' : G.weight d j < n') :
    Settles (G.readAt w n d j) (G.readAt w n' d j) := by
  induction n generalizing d j n' with
  | zero => omega
  | succ n ih =>
    cases n' with
    | zero => omega
    | succ n' => exact readWith_settles fun e u hlt => ih (by omega) (by omega)

/-- A value is read in one step from how the values inside and the variants are read. -/
theorem read_eq (w : World) (d : Descriptor) (j : Value) :
    G.read w d j = G.readWith w (G.read w) d j := by
  have hd := G.weight_lt_bound d j
  unfold read
  rw [(readAt_settles hd (Nat.lt_succ_of_lt hd)).eq]
  exact (readWith_settles fun e u hlt => readAt_settles (by omega) (G.weight_lt_bound e u)).eq

/-- Reading always comes to an end. -/
theorem read_ends (w : World) (d : Descriptor) (j : Value) : G.read w d j ≠ .error .tooDeep :=
  (readAt_settles (G.weight_lt_bound d j) (G.weight_lt_bound d j)).ends

end Graph

end JsonMapping
