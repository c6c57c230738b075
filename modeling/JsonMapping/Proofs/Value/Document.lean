import JsonMapping.Proofs.Nesting
import JsonMapping.Proofs.Outcome
import JsonMapping.Value.Document

/-! Documents as values. A document is a value that gives the document back, and no other value
does. What is no document holds a model; the error names the first one, where a model comes before
the models in its fields, and all that stands further left before what stands further right. The
main statement is `documents_correspond`. -/

namespace JsonMapping.Value

/-! ## Parts of values -/

/-- What maps, lists and models hold, from left to right. -/
def parts : Value → List Value
  | .map entries => entries.map Prod.snd
  | .list items => items
  | .model _ fields => fields.map Prod.snd
  | .null | .bool _ | .number _ | .string _ => []

/-- The type of a model. -/
def modelType? (v : Value) : Option String := v.model?.map Prod.fst

theorem height_le_of_mem_entries {entries : List (String × Value)} {v : Value}
    (h : v ∈ entries.map Prod.snd) : v.height ≤ heightEntries entries := by
  induction entries with
  | nil => cases h
  | cons e rest ih =>
    rw [heightEntries]
    rcases List.mem_cons.mp h with rfl | hrest
    · exact Nat.le_max_left _ _
    · exact (ih hrest).trans (Nat.le_max_right _ _)

theorem height_lt_of_mem_parts {u v : Value} (h : u ∈ v.parts) : u.height < v.height := by
  cases v with
  | null | bool _ | number _ | string _ => cases h
  | list items => exact height_lt_of_mem_list h
  | map entries | model type entries => exact Nat.lt_succ_of_le (height_le_of_mem_entries h)

def nesting : Nesting Value where
  parts := parts
  wellFounded := Subrelation.wf height_lt_of_mem_parts (measure height).wf

/-! ## There and back -/

mutual
theorem toJson_ofJson (j : Json) : (ofJson j).toJson = .ok j := by
  cases j with
  | null | bool _ | number _ | string _ => rfl
  | array items =>
    rw [ofJson, toJson, toJsonItems_ofJsonItems items]
    rfl
  | object fields =>
    rw [ofJson, toJson, toJsonEntries_ofJsonFields fields]
    rfl
theorem toJsonItems_ofJsonItems (items : List Json) :
    toJsonItems (ofJsonItems items) = .ok items := by
  cases items with
  | nil => rfl
  | cons j rest =>
    rw [ofJsonItems, toJsonItems, toJson_ofJson j, toJsonItems_ofJsonItems rest]
    rfl
theorem toJsonEntries_ofJsonFields (fields : List (String × Json)) :
    toJsonEntries (ofJsonFields fields) = .ok fields := by
  match fields with
  | [] => rfl
  | (key, j) :: rest =>
    rw [ofJsonFields, toJsonEntries, toJson_ofJson j, toJsonEntries_ofJsonFields rest]
    rfl
end

mutual
theorem ofJson_of_toJson {v : Value} {j : Json} (h : v.toJson = .ok j) : ofJson j = v := by
  cases v with
  | null | bool _ | number _ | string _ =>
    obtain rfl := Except.ok.inj h
    rfl
  | map entries =>
    rw [toJson, map_eq_bind] at h
    obtain ⟨fields, hfields, h⟩ := bind_eq_ok.mp h
    obtain rfl := Except.ok.inj h
    rw [ofJson, ofJsonFields_of_toJsonEntries hfields]
  | list items =>
    rw [toJson, map_eq_bind] at h
    obtain ⟨js, hjs, h⟩ := bind_eq_ok.mp h
    obtain rfl := Except.ok.inj h
    rw [ofJson, ofJsonItems_of_toJsonItems hjs]
  | model type fields => cases h
theorem ofJsonItems_of_toJsonItems {items : List Value} {js : List Json}
    (h : toJsonItems items = .ok js) : ofJsonItems js = items := by
  cases items with
  | nil =>
    obtain rfl := Except.ok.inj h
    rfl
  | cons v rest =>
    rw [toJsonItems] at h
    obtain ⟨j, hj, h⟩ := bind_eq_ok.mp h
    obtain ⟨more, hmore, h⟩ := bind_eq_ok.mp h
    obtain rfl := Except.ok.inj h
    rw [ofJsonItems, ofJson_of_toJson hj, ofJsonItems_of_toJsonItems hmore]
theorem ofJsonFields_of_toJsonEntries {entries : List (String × Value)}
    {fields : List (String × Json)} (h : toJsonEntries entries = .ok fields) :
    ofJsonFields fields = entries := by
  match entries with
  | [] =>
    obtain rfl := Except.ok.inj h
    rfl
  | (key, v) :: rest =>
    rw [toJsonEntries] at h
    obtain ⟨j, hj, h⟩ := bind_eq_ok.mp h
    obtain ⟨more, hmore, h⟩ := bind_eq_ok.mp h
    obtain rfl := Except.ok.inj h
    rw [ofJsonFields, ofJson_of_toJson hj, ofJsonFields_of_toJsonEntries hmore]
end

/-! ## Models in the way -/

theorem toJsonItems_eq_mapM (items : List Value) : toJsonItems items = items.mapM toJson := by
  induction items with
  | nil => rfl
  | cons v rest ih => rw [toJsonItems, List.mapM_cons, ih]

/-- Maps are converted as lists are; the keys stay with their values. -/
theorem toJsonEntries_eq (entries : List (String × Value)) :
    toJsonEntries entries =
      (toJsonItems (entries.map Prod.snd)).map ((entries.map Prod.fst).zip ·) := by
  induction entries with
  | nil => rfl
  | cons e rest ih =>
    rw [toJsonEntries, List.map_cons, List.map_cons, toJsonItems, ih]
    cases e.2.toJson with
    | error e' => rfl
    | ok j => cases toJsonItems (rest.map Prod.snd) <;> rfl

/-- What is no model fails as the first of its parts that fails. -/
theorem toJson_eq_error_iff {v : Value} {e : RunError} (h : v.modelType? = none) :
    v.toJson = .error e ↔ ∃ before u after, v.parts = before ++ u :: after ∧
      (∀ w ∈ before, ∃ j, w.toJson = .ok j) ∧ u.toJson = .error e := by
  rw [← mapM_eq_error_iff, ← toJsonItems_eq_mapM]
  cases v with
  | null | bool _ | number _ | string _ => simp [parts, toJson, toJsonItems]
  | map entries =>
    rw [toJson, toJsonEntries_eq, parts]
    cases toJsonItems (entries.map Prod.snd) <;> simp [Except.map]
  | list items =>
    rw [toJson, parts]
    cases toJsonItems items <;> simp [Except.map]
  | model type fields => cases h

theorem modelType?_of_toJson_eq_ok {v : Value} {j : Json} (h : v.toJson = .ok j) :
    v.modelType? = none := by
  cases v with
  | model type fields => cases h
  | _ => rfl

theorem exists_toJson_of_mem_parts {u v : Value} {j : Json} (h : v.toJson = .ok j)
    (hu : u ∈ v.parts) : ∃ i, u.toJson = .ok i := by
  cases hitems : v.parts.mapM toJson with
  | ok js =>
    obtain ⟨i, -, hi⟩ := exists_mem_of_mapM_eq_ok hitems hu
    exact ⟨i, hi⟩
  | error e =>
    have herror := (toJson_eq_error_iff (modelType?_of_toJson_eq_ok h)).mpr
      (mapM_eq_error_iff.mp hitems)
    exact absurd (h.symm.trans herror) nofun

/-- No model stands anywhere in a document. -/
theorem modelType?_of_at {v c : Value} {p : Place} {j : Json} (h : v.toJson = .ok j)
    (hc : nesting.At v p c) : c.modelType? = none := by
  induction hc generalizing j with
  | whole v => exact modelType?_of_toJson_eq_ok h
  | part hpart _ ih =>
    obtain ⟨i, hi⟩ := exists_toJson_of_mem_parts h (List.mem_of_getElem? hpart)
    exact ih hi

theorem exists_first_of_toJson_eq_error {v : Value} {e : RunError} (h : v.toJson = .error e) :
    ∃ type, nesting.First modelType? v type ∧ e = .notSerializable type := by
  induction v using nesting.induction with
  | h v ih =>
    cases hmodel : v.modelType? with
    | none =>
      obtain ⟨before, u, after, hparts, hbefore, hu⟩ := (toJson_eq_error_iff hmodel).mp h
      have hmem : u ∈ nesting.parts v := by
        change u ∈ v.parts
        simp [hparts]
      obtain ⟨type, hfirst, he⟩ := ih u hmem hu
      refine ⟨type, hfirst.of_part hparts hmodel fun w hw p d hd => ?_, he⟩
      obtain ⟨j, hj⟩ := hbefore w hw
      exact modelType?_of_at hj hd
    | some type =>
      refine ⟨type, Nesting.first_of_whole hmodel, ?_⟩
      cases v with
      | model t fields =>
        cases hmodel
        exact (Except.error.inj h).symm
      | _ => cases hmodel

/-- A document becomes a value that becomes the same document, keys in order and numbers as they
are. A value becomes a document unless a model is in it; the document then becomes the value, and
otherwise the error names the type of the first model. -/
theorem documents_correspond :
    (∀ j : Json, (ofJson j).toJson = .ok j) ∧
    ∀ v : Value,
      ((∃ e, v.toJson = .error e) ↔ ∃ p type fields, nesting.At v p (.model type fields)) ∧
      (∀ e, v.toJson = .error e ↔
        ∃ type, nesting.First modelType? v type ∧ e = .notSerializable type) ∧
      ∀ j, v.toJson = .ok j ↔ ofJson j = v := by
  refine ⟨toJson_ofJson, fun v => ⟨⟨?_, ?_⟩, fun e => ⟨exists_first_of_toJson_eq_error, ?_⟩,
    fun j => ⟨ofJson_of_toJson, ?_⟩⟩⟩
  · rintro ⟨e, he⟩
    obtain ⟨type, ⟨p, c, hc, htype, -⟩, -⟩ := exists_first_of_toJson_eq_error he
    cases c with
    | model t fields => exact ⟨p, t, fields, hc⟩
    | _ => cases htype
  · rintro ⟨p, type, fields, hmodel⟩
    cases hv : v.toJson with
    | error e => exact ⟨e, rfl⟩
    | ok j => cases modelType?_of_at hv hmodel
  · rintro ⟨type, hfirst, rfl⟩
    cases hv : v.toJson with
    | error e =>
      obtain ⟨type', hfirst', rfl⟩ := exists_first_of_toJson_eq_error hv
      rw [hfirst.unique hfirst']
    | ok j =>
      obtain ⟨p, c, hc, htype, -⟩ := hfirst
      rw [modelType?_of_at hv hc] at htype
      cases htype
  · rintro rfl
    exact toJson_ofJson j

/-- A model with a model in it, after a map without one and before another model. -/
example : (Value.list [.map [("a", .null)], .map [("b", .model "Outer" [("c", .model "Inner" [])])],
    .model "Last" []]).toJson = .error (.notSerializable "Outer") := by
  rfl

end JsonMapping.Value
