import JsonMapping.Json.Shape
import JsonMapping.Proofs.Naming.Written
import JsonMapping.Proofs.Outcome
import Mathlib.Data.List.Nodup

/-! Records in documents. Two things are said of a record: what it is read as from the object that
was written for it (`Finds`), and what holds of everything that it can be read as, from whatever
source (`Only`). Both are put together as records are, field by field. -/

namespace JsonMapping

open Json (Form)

variable {α β : Type}

namespace Shape

/-! ## Single values that are read back -/

theorem text_form (s : String) : text (Json.string s).form = .ok s := rfl

theorem bool_form (b : Bool) : bool (Json.bool b).form = .ok b := rfl

theorem identifier_form (name : Identifier) :
    identifier (Json.string name.text).form = .ok name := by
  simp [Json.form, identifier, text, named, Identifier.parse, Identifier.ofString?_text,
    Except.mapError]

theorem javaType_form {t : JavaType} (h : t.Canonical) :
    javaType (Json.string t.text).form = .ok t := by
  simp [Json.form, javaType, text, named, JavaType.parse_text_of_canonical h, Except.mapError]

theorem representerId_form {r : RepresenterId} (h : r.type.Canonical) :
    representerId (Json.string r.type.text).form = .ok r := by
  simp [representerId, javaType_form h]

theorem option_of_ok {value : Form → Except DocumentError α} {f : Form} {x : α}
    (h : value f = .ok x) (hnull : f ≠ .null) : option value f = .ok (some x) := by
  unfold option
  split
  · exact absurd rfl hnull
  · rw [h]
    rfl

/-- A list whose items are read back one by one. -/
theorem list_form {item : Form → Except DocumentError α} {write : α → Json} {xs : List α}
    (h : ∀ x ∈ xs, item (write x).form = .ok x) :
    list item (Json.array (xs.map write)).form = .ok xs := by
  have hitems : (Json.itemForms (xs.map write)).mapM item = .ok xs := by
    induction xs with
    | nil => rfl
    | cons x rest ih =>
      rw [List.map_cons, Json.itemForms, List.mapM_cons, h x List.mem_cons_self,
        ih fun y hy => h y (List.mem_cons_of_mem _ hy)]
      rfl
  simp only [Json.form, list]
  rw [hitems]
  rfl

/-- A value is read from a whole text that stands for it. -/
theorem ofText_of_form {value : Form → Except DocumentError α} {s : String} {j : Json} {x : α}
    (hs : Form.ofText s = (j.form, true)) (h : value j.form = .ok x) : ofText value s = .ok x := by
  simp [ofText, hs, h]

/-! ## What holds of every value that is read -/

/-- Nothing is read that does not have the property. -/
def Only (P : α → Prop) (value : Form → Except DocumentError α) : Prop :=
  ∀ f x, value f = .ok x → P x

theorem not_mismatch {f : Form} {expected : String} {x : α} : mismatch f expected ≠ .ok x := by
  unfold mismatch
  split <;> simp [fail]

theorem only_javaType : Only JavaType.Canonical javaType := by
  intro f t hread
  obtain ⟨s, -, hread⟩ := bind_eq_ok.mp hread
  unfold named at hread
  cases hparse : JavaType.parse s with
  | error e =>
    rw [hparse] at hread
    cases hread
  | ok u =>
    rw [hparse] at hread
    cases hread
    exact JavaType.canonical_of_parse hparse

theorem only_representerId : Only (fun r => r.type.Canonical) representerId := by
  intro f r hread
  obtain ⟨t, ht, hread⟩ := bind_eq_ok.mp hread
  cases hread
  exact only_javaType f t ht

theorem Only.option {P : α → Prop} {value : Form → Except DocumentError α} (h : Only P value) :
    Only (fun x? => ∀ x ∈ x?, P x) (option value) := by
  intro f x? hread
  unfold Shape.option at hread
  split at hread
  · cases hread
    simp
  · cases hvalue : value f with
    | error e =>
      rw [hvalue] at hread
      cases hread
    | ok x =>
      rw [hvalue] at hread
      cases hread
      simpa using h f x hvalue

theorem Only.list {P : α → Prop} {item : Form → Except DocumentError α} (h : Only P item) :
    Only (fun xs => ∀ x ∈ xs, P x) (list item) := by
  intro f xs hread
  unfold Shape.list at hread
  split at hread
  · rename_i items closed
    obtain ⟨ys, hitems, hread⟩ := bind_eq_ok.mp hread
    cases closed <;> cases hread
    intro x hx
    obtain ⟨g, -, hg⟩ := exists_of_mem_of_mapM_eq_ok hitems hx
    exact h g x hg
  · exact absurd hread not_mismatch

theorem Only.ofText {P : α → Prop} {value : Form → Except DocumentError α} (h : Only P value)
    {s : String} {x : α} (hread : Shape.ofText value s = .ok x) : P x := by
  unfold Shape.ofText at hread
  generalize Form.ofText s = found at hread
  obtain ⟨f, isWhole⟩ := found
  obtain ⟨y, hy, hread⟩ := bind_eq_ok.mp hread
  cases isWhole <;> cases hread
  exact h f x hy

end Shape

namespace Record

/-! ## Records that are read back -/

/-- From an object with these fields the record is read as the value. -/
def Finds (r : Record α) (fields : List (String × Json)) (x : α) : Prop :=
  ∀ i, r.read (.keyed (Json.fieldForms fields)) i = .ok x

section Finds

variable {fields : List (String × Json)} {name : String}

theorem map_snd_occurrences (forms : List (Option String × Form)) (name : String) :
    (occurrences forms name).map Prod.snd =
      forms.filterMap fun field => if field.1 = some name then some field.2 else none := by
  have hfrom : ∀ n, ((forms.zipIdx n).filterMap fun place =>
      if place.1.1 = some name then some (place.2, place.1.2) else none).map Prod.snd =
        forms.filterMap fun field => if field.1 = some name then some field.2 else none := by
    induction forms with
    | nil => simp
    | cons field rest ih =>
      intro n
      obtain ⟨key, f⟩ := field
      by_cases hkey : key = some name <;> simp [hkey, ih]
  exact hfrom 0

theorem map_snd_occurrences_fieldForms (hkeys : (fields.map Prod.fst).Nodup) (name : String) :
    (occurrences (Json.fieldForms fields) name).map Prod.snd =
      ((Entries.get? fields name).map Json.form).toList := by
  rw [map_snd_occurrences]
  induction fields with
  | nil => rfl
  | cons field rest ih =>
    obtain ⟨key, j⟩ := field
    obtain ⟨hkey, hrest⟩ := List.nodup_cons.mp hkeys
    have hih := ih hrest
    by_cases heq : key = name
    · subst heq
      have hnone : Entries.get? rest key = none := (Entries.get?_eq_none_iff rest key).mpr hkey
      rw [hnone] at hih
      simpa [Json.fieldForms, Entries.get?] using hih
    · simpa [Json.fieldForms, Entries.get?, heq] using hih

theorem Finds.field {value : Form → Except DocumentError α}
    {absent : ShapeError → Except DocumentError α} {j : Json} {x : α}
    (hkeys : (fields.map Prod.fst).Nodup) (hget : Entries.get? fields name = some j)
    (hvalue : value j.form = .ok x) : Finds (Record.field name value absent) fields x := by
  intro i
  have hforms := map_snd_occurrences_fieldForms hkeys name
  rw [hget] at hforms
  obtain ⟨⟨place, f⟩, hone, rfl⟩ := List.map_eq_singleton_iff.mp hforms
  simp only [Record.field, hone]
  rw [hvalue]
  rfl

theorem Finds.absent {value : Form → Except DocumentError α}
    {absent : ShapeError → Except DocumentError α} {x : α} (hkeys : (fields.map Prod.fst).Nodup)
    (hget : Entries.get? fields name = none) (habsent : absent (.missingField name) = .ok x) :
    Finds (Record.field name value absent) fields x := by
  intro i
  have hforms := map_snd_occurrences_fieldForms hkeys name
  rw [hget] at hforms
  have hnone := List.map_eq_nil_iff.mp hforms
  simp only [Record.field, hnone, habsent]
  rfl

theorem Finds.required {value : Form → Except DocumentError α} {j : Json} {x : α}
    (hkeys : (fields.map Prod.fst).Nodup) (hget : Entries.get? fields name = some j)
    (hvalue : value j.form = .ok x) : Finds (Record.required name value) fields x :=
  .field hkeys hget hvalue

theorem Finds.withDefault {value : Form → Except DocumentError α} {standard : α} {j : Json} {x : α}
    (hkeys : (fields.map Prod.fst).Nodup) (hget : Entries.get? fields name = some j)
    (hvalue : value j.form = .ok x) : Finds (Record.withDefault name value standard) fields x :=
  .field hkeys hget hvalue

/-- A value that may be left out, under a key of its own. -/
theorem Finds.optional {value : Form → Except DocumentError α} {write : α → Json} {x? : Option α}
    (hkeys : (fields.map Prod.fst).Nodup) (hget : Entries.get? fields name = x?.map write)
    (hvalue : ∀ x ∈ x?, value (write x).form = .ok x ∧ (write x).form ≠ .null) :
    Finds (Record.optional name value) fields x? := by
  cases x? with
  | none => exact .absent hkeys hget rfl
  | some x =>
    obtain ⟨hx, hnull⟩ := hvalue x rfl
    exact .field hkeys hget (Shape.option_of_ok hx hnull)

theorem Finds.seq {f : Record (α → β)} {a : Record α} {g : α → β} {x : α}
    (hf : Finds f fields g) (ha : Finds a fields x) : Finds (f <*> a) fields (g x) := by
  intro i
  change (combine (fun g x => g x) f a).read _ i = _
  simp only [combine, hf i, ha (i + f.names.length)]

theorem Finds.map {a : Record α} {x : α} (g : α → β) (ha : Finds a fields x) :
    Finds (g <$> a) fields (g x) :=
  Finds.seq (f := pure g) (fun _ => rfl) ha

theorem wrongPlace?_fieldForms (isKept : String → Bool) (fields : List (String × Json)) :
    wrongPlace? isKept (Json.fieldForms fields) true = none := by
  have hnone : ∀ isWrong : Option String × Form → Bool,
      (∀ key j, isWrong (some key, Json.form j) = false) →
        (Json.fieldForms fields).findIdx? isWrong = none := by
    intro isWrong h
    induction fields with
    | nil => rfl
    | cons field rest ih =>
      obtain ⟨key, j⟩ := field
      simp [Json.fieldForms, List.findIdx?_cons, h, ih]
  unfold wrongPlace?
  simp only [if_true, Option.or_none]
  exact hnone _ fun key j => by simp [Json.value?_form]

theorem Finds.ofFields {r : Record α} {x : α} (h : Finds r fields x) :
    r.ofFields (Json.fieldForms fields) true = .ok x := by
  rw [Record.ofFields, wrongPlace?_fieldForms, h 0]
  rfl

theorem Finds.ofOwnFields {r : Record α} {x : α} (h : Finds r fields x) :
    r.ofOwnFields (Json.fieldForms fields) true = .ok x := by
  rw [Record.ofOwnFields, wrongPlace?_fieldForms, h 0]
  rfl

/-- A record is read back from its object, whatever becomes of surplus items elsewhere. -/
theorem Finds.ofForm {r : Record α} {x : α} (h : Finds r fields x) (name : String)
    (surplus : Surplus) : r.ofForm name surplus (Json.object fields).form = .ok x := by
  cases surplus <;> simp only [Json.form, Record.ofForm, h.ofFields, h.ofOwnFields]

end Finds

/-! ## What holds of every record that is read -/

/-- Nothing is read that does not have the property. -/
def Only (P : α → Prop) (r : Record α) : Prop := ∀ source i x, r.read source i = .ok x → P x

section Only

variable {P : α → Prop} {name : String} {value : Form → Except DocumentError α}

theorem mapError_eq_ok {ε δ : Type} {g : ε → δ} {x : Except ε α} {a : α} :
    x.mapError g = .ok a ↔ x = .ok a := by
  cases x <;> simp [Except.mapError]

theorem Only.field {absent : ShapeError → Except DocumentError α} (h : Shape.Only P value)
    (habsent : ∀ e x, absent e = .ok x → P x) : Only P (Record.field name value absent) := by
  intro source i x hread
  cases source with
  | keyed fields =>
    simp only [Record.field] at hread
    split at hread
    · exact habsent _ x (mapError_eq_ok.mp hread)
    · exact h _ x (mapError_eq_ok.mp hread)
    · split at hread <;> cases hread
  | positional items label =>
    simp only [Record.field] at hread
    split at hread
    · exact habsent _ x (mapError_eq_ok.mp hread)
    · exact h _ x (mapError_eq_ok.mp hread)

theorem Only.required (h : Shape.Only P value) : Only P (Record.required name value) :=
  .field h fun _ _ habsent => by cases habsent

theorem Only.optional (h : Shape.Only P value) :
    Only (fun x? => ∀ x ∈ x?, P x) (Record.optional name value) := by
  refine .field h.option ?_
  intro e x? habsent
  cases habsent
  simp

theorem Only.withDefault {standard : α} (h : Shape.Only P value) (hstandard : P standard) :
    Only P (Record.withDefault name value standard) := by
  refine .field h ?_
  intro e x habsent
  cases habsent
  exact hstandard

theorem Only.seq {Q : β → Prop} {f : Record (α → β)} {a : Record α}
    (hf : Only (fun g => ∀ x, P x → Q (g x)) f) (ha : Only P a) : Only Q (f <*> a) := by
  intro source i y hread
  change (combine (fun g x => g x) f a).read source i = .ok y at hread
  simp only [combine] at hread
  split at hread
  · rename_i g x hg hx
    cases hread
    exact hf _ _ g hg x (ha _ _ x hx)
  all_goals cases hread

theorem Only.map {Q : β → Prop} {a : Record α} {g : α → β} (ha : Only P a)
    (hg : ∀ x, P x → Q (g x)) : Only Q (g <$> a) :=
  Only.seq (f := pure g) (fun _ _ _ h => by cases h; exact hg) ha

theorem of_upTo {place : Option Nat} {found : Except Placed α} {x : α}
    (h : upTo place found = .ok x) : found = .ok x := by
  unfold upTo at h
  split at h
  · simpa using h
  all_goals cases h

theorem Only.ofFields {r : Record α} (h : Only P r) {fields : List (Option String × Form)}
    {closed : Bool} {x : α} (hread : r.ofFields fields closed = .ok x) : P x :=
  h _ _ x (of_upTo hread)

theorem Only.ofOwnFields {r : Record α} (h : Only P r) {fields : List (Option String × Form)}
    {closed : Bool} {x : α} (hread : r.ofOwnFields fields closed = .ok x) : P x :=
  h _ _ x (of_upTo hread)

theorem Only.ofItems {r : Record α} (h : Only P r) {label : String} {surplus : Surplus}
    {items : List Form} {closed : Bool} {x : α}
    (hread : r.ofItems label surplus items closed = .ok x) : P x := by
  unfold Record.ofItems at hread
  obtain ⟨y, hy, hread⟩ := bind_eq_ok.mp hread
  have hP := h _ _ y (of_upTo hy)
  split at hread
  · cases surplus <;> cases hread
    exact hP
  · cases hread
    exact hP

theorem Only.ofForm {r : Record α} (h : Only P r) (label : String) (surplus : Surplus) :
    Shape.Only P (r.ofForm label surplus) := by
  intro f x hread
  unfold Record.ofForm at hread
  split at hread
  · split at hread
    · exact h.ofOwnFields hread
    · exact h.ofFields hread
  · exact h.ofItems hread
  · exact absurd hread Shape.not_mismatch

end Only

end Record

end JsonMapping
