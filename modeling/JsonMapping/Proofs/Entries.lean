import JsonMapping.Entries
import Mathlib.Data.List.Induction
import Mathlib.Data.List.Nodup

/-! Laws of ordered entries. What is under a key is decided by the last insertion of that key, and
insertions keep keys apart. -/

namespace JsonMapping.Entries

variable {α : Type}

@[simp] theorem get?_nil (key : String) : get? ([] : Entries α) key = none := rfl

theorem get?_append (es more : Entries α) (key : String) :
    get? (es ++ more) key = (get? es key).or (get? more key) := by
  induction es with
  | nil => rfl
  | cons e rest ih =>
    by_cases hkey : e.1 = key
    · simp [get?, hkey]
    · simp [get?, hkey, ih]

theorem get?_insert_self (es : Entries α) (key : String) (value : α) :
    (es.insert key value).get? key = some value := by
  simp [get?_insert]

theorem get?_insert_of_ne {es : Entries α} {key k : String} (h : key ≠ k) (value : α) :
    (es.insert key value).get? k = es.get? k := by
  simp [get?_insert, h]

theorem mem_keys_insert {es : Entries α} {key k : String} {value : α} :
    k ∈ (es.insert key value).keys ↔ k ∈ es.keys ∨ k = key := by
  rw [keys_insert]
  split
  · rename_i hkey
    constructor
    · exact .inl
    · rintro (h | rfl)
      · exact h
      · exact hkey
  · simp

theorem get?_eq_none_of_not_mem {es : Entries α} {key : String} (h : key ∉ es.keys) :
    es.get? key = none :=
  (get?_eq_none_iff es key).mpr h

theorem nodup_keys_insert {es : Entries α} (h : es.keys.Nodup) (key : String) (value : α) :
    (es.insert key value).keys.Nodup := by
  rw [keys_insert]
  split
  · exact h
  · rename_i hkey
    rw [List.nodup_append]
    exact ⟨h, by simp, fun a ha b hb he => hkey (by simp_all)⟩

/-- Entries with distinct keys that are inserted all together win over those that are there. -/
theorem get?_insertAll {more : Entries α} (h : more.keys.Nodup) (es : Entries α) (key : String) :
    (es.insertAll more).get? key = (more.get? key).or (es.get? key) := by
  induction more generalizing es with
  | nil => simp [insertAll]
  | cons e rest ih =>
    obtain ⟨k, value⟩ := e
    have hk : k ∉ keys rest ∧ (keys rest).Nodup := by simpa [keys] using h
    change ((es.insert k value).insertAll rest).get? key = _
    rw [ih hk.2, get?_insert, get?]
    by_cases hkey : k = key
    · simp [← hkey, get?_eq_none_of_not_mem hk.1]
    · simp [hkey]

theorem insertAll_append_singleton (es more : Entries α) (key : String) (value : α) :
    es.insertAll (more ++ [(key, value)]) = (es.insertAll more).insert key value := by
  simp [insertAll, List.foldl_append]

/-- Of each key that is inserted the last value counts, and what is there counts for all others. -/
theorem get?_insertAll_eq_or (es more : Entries α) (key : String) :
    (es.insertAll more).get? key = ((ofList more).get? key).or (es.get? key) := by
  induction more using List.reverseRecOn with
  | nil => rfl
  | append_singleton more e ih =>
    obtain ⟨k, value⟩ := e
    unfold ofList at ih ⊢
    rw [insertAll_append_singleton, insertAll_append_singleton, get?_insert, get?_insert, ih]
    split <;> rfl

theorem get?_ofList_eq_none {more : List (String × α)} {key : String}
    (h : key ∉ more.map Prod.fst) : (ofList more).get? key = none := by
  induction more using List.reverseRecOn with
  | nil => rfl
  | append_singleton more e ih =>
    obtain ⟨k, value⟩ := e
    have hkey : key ∉ more.map Prod.fst ∧ key ≠ k := by simpa using h
    unfold ofList at ih ⊢
    rw [insertAll_append_singleton, get?_insert_of_ne (Ne.symm hkey.2)]
    exact ih hkey.1

/-- A key that is inserted gets one of the values that are inserted for it. -/
theorem exists_get?_insertAll {more : Entries α} {key : String} (h : key ∈ more.keys)
    (es : Entries α) : ∃ value, (key, value) ∈ more ∧
      (es.insertAll more).get? key = some value := by
  induction more using List.reverseRecOn with
  | nil => cases h
  | append_singleton more e ih =>
    obtain ⟨k, value⟩ := e
    rw [insertAll_append_singleton, get?_insert]
    by_cases hk : k = key
    · subst hk
      exact ⟨value, by simp, by simp⟩
    · have hmore : key ∈ keys more := by simpa [keys, Ne.symm hk] using h
      obtain ⟨u, hu, hget⟩ := ih hmore
      exact ⟨u, List.mem_append_left _ hu, by simpa [hk] using hget⟩

/-- What is found was inserted under this key, or it was there. -/
theorem mem_or_get?_of_get?_insertAll {es more : Entries α} {key : String} {value : α}
    (h : (es.insertAll more).get? key = some value) :
    (key, value) ∈ more ∨ es.get? key = some value := by
  induction more using List.reverseRecOn with
  | nil => exact .inr h
  | append_singleton more e ih =>
    obtain ⟨k, u⟩ := e
    rw [insertAll_append_singleton, get?_insert] at h
    split at h
    · rename_i hk
      cases h
      simp [hk]
    · exact (ih h).imp_left (List.mem_append_left _)

theorem get?_map {β : Type} {key : β → String} {value : β → α} {bs : List β}
    (h : (bs.map key).Nodup) {b : β} (hb : b ∈ bs) :
    get? (bs.map fun b => (key b, value b)) (key b) = some (value b) := by
  induction bs with
  | nil => simp at hb
  | cons c rest ih =>
    have hc : key c ∉ rest.map key ∧ (rest.map key).Nodup := by simpa using h
    rcases List.mem_cons.mp hb with rfl | hr
    · simp [get?]
    · have hne : key c ≠ key b := fun he => hc.1 (he ▸ List.mem_map_of_mem hr)
      simp only [List.map_cons, get?, if_neg hne]
      exact ih hc.2 hr

/-! ## Insertions that come again -/

theorem insert_insert_self (es : Entries α) (key : String) (u v : α) :
    (es.insert key u).insert key v = es.insert key v := by
  induction es with
  | nil => simp [insert]
  | cons e rest ih => grind [insert]

/-- Insertions under distinct keys commute where the later key keeps its place. -/
theorem insert_comm {es : Entries α} {k l : String} (hne : k ≠ l) (hl : l ∈ es.keys) (u v : α) :
    (es.insert k u).insert l v = (es.insert l v).insert k u := by
  induction es with
  | nil => cases hl
  | cons e rest ih => grind [insert, keys]

theorem keys_subset_insert (es : Entries α) (key : String) (v : α) :
    es.keys ⊆ (es.insert key v).keys :=
  fun _ hk => mem_keys_insert.mpr (.inl hk)

theorem keys_subset_insertAll (es more : Entries α) : more.keys ⊆ (es.insertAll more).keys := by
  intro key hkey
  obtain ⟨value, -, hget⟩ := exists_get?_insertAll hkey es
  by_contra hnot
  rw [get?_eq_none_of_not_mem hnot] at hget
  cases hget

/-- What is inserted under a key at the end does not depend on what was under it before. -/
theorem insert_insertAll_insert {es more : Entries α} (h : more.keys ⊆ es.keys) (key : String)
    (u v : α) : ((es.insert key u).insertAll more).insert key v =
      (es.insertAll more).insert key v := by
  induction more generalizing es u with
  | nil => exact insert_insert_self es key u v
  | cons e rest ih =>
    obtain ⟨k, value⟩ := e
    obtain ⟨hk, hrest⟩ := List.cons_subset.mp h
    have hrest' : keys rest ⊆ (es.insert k value).keys :=
      List.Subset.trans hrest (keys_subset_insert es k value)
    change (((es.insert key u).insert k value).insertAll rest).insert key v =
      ((es.insert k value).insertAll rest).insert key v
    by_cases hkey : key = k
    · subst hkey
      rw [insert_insert_self]
    · rw [insert_comm hkey hk, ih hrest']

theorem insertAll_append (es xs ys : Entries α) :
    es.insertAll (xs ++ ys) = (es.insertAll xs).insertAll ys := by
  simp [insertAll, List.foldl_append]

/-- By induction from the end: the last insertion makes up for what was under its key. -/
theorem insertAll_insertAll_self (es more : Entries α) :
    (es.insertAll more).insertAll more = es.insertAll more := by
  induction more using List.reverseRecOn with
  | nil => rfl
  | append_singleton more e ih =>
    obtain ⟨key, value⟩ := e
    rw [insertAll_append_singleton, insertAll_append_singleton,
      insert_insertAll_insert (keys_subset_insertAll es more), ih]

end JsonMapping.Entries
