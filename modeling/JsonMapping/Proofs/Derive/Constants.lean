import JsonMapping.Proofs.Derive.Plan
import Mathlib.Data.List.Nodup
import Mathlib.Data.List.Perm.Subperm

/-! The table of constants. No two constants have one name, every helper that is used has a
constant, and the name that a body mentions leads back to the helper. -/

namespace JsonMapping.Derive

/-! ## Fresh names -/

theorem candidate_of_two_le {base : String} {n : Nat} (h : 2 ≤ n) :
    (candidate base n).toList = base.toList ++ '_' :: (Nat.repr n).toList := by
  have : ¬ n ≤ 1 := by omega
  simp [candidate, this, ToString.toString]

theorem candidate_injective {base : String} {i j : Nat} (hi : 1 ≤ i) (hj : 1 ≤ j)
    (h : candidate base i = candidate base j) : i = j := by
  have hl := congrArg String.toList h
  rcases Nat.lt_or_ge i 2 with hi2 | hi2 <;> rcases Nat.lt_or_ge j 2 with hj2 | hj2
  · omega
  · rw [candidate_of_two_le hj2] at hl
    have : i ≤ 1 := by omega
    simp [candidate, this] at hl
  · rw [candidate_of_two_le hi2] at hl
    have : j ≤ 1 := by omega
    simp [candidate, this] at hl
  · rw [candidate_of_two_le hi2, candidate_of_two_le hj2] at hl
    have hr := List.append_cancel_left hl
    simp only [List.cons.injEq, true_and] at hr
    have hd := congrArg (Nat.ofDigitChars 10 · 0) hr
    simpa using hd

/-- A search that ends at a taken name has met taken names only. -/
theorem candidate_mem_of_seekName_mem {taken : List String} {base : String} {tries n : Nat}
    (h : seekName taken base tries n ∈ taken) :
    ∀ i ≤ tries, candidate base (n + i) ∈ taken := by
  induction tries generalizing n with
  | zero =>
    intro i hi
    rw [Nat.le_zero.mp hi]
    exact h
  | succ tries ih =>
    intro i hi
    simp only [seekName] at h
    split at h
    · rename_i hmem
      cases i with
      | zero => exact hmem
      | succ i =>
        have := ih h i (by omega)
        rwa [show n + 1 + i = n + (i + 1) by omega] at this
    · rename_i hmem
      exact absurd h hmem

/-- There are more candidates than names that are taken. -/
theorem freshName_not_mem (taken : List String) (base : String) :
    freshName taken base ∉ taken := by
  intro h
  have hmem := candidate_mem_of_seekName_mem h
  have hnodup : ((List.range (taken.length + 1)).map fun i => candidate base (1 + i)).Nodup := by
    apply List.Nodup.map_on _ List.nodup_range
    intro i _ j _ he
    have := candidate_injective (by omega) (by omega) he
    omega
  have hsub : ((List.range (taken.length + 1)).map fun i => candidate base (1 + i)) ⊆ taken := by
    intro name hn
    obtain ⟨i, hi, rfl⟩ := List.mem_map.mp hn
    exact hmem i (by simpa [Nat.lt_succ_iff] using hi)
  have := (List.subperm_of_subset hnodup hsub).length_le
  simp only [List.length_map, List.length_range] at this
  omega

/-! ## The table -/

theorem declareHelper_names_nodup {table : List Constant} (use : HelperUse)
    (h : (table.map (·.name)).Nodup) : ((declareHelper table use).map (·.name)).Nodup := by
  unfold declareHelper
  split
  · exact h
  · rw [List.map_append, List.nodup_append]
    refine ⟨h, by simp, ?_⟩
    intro a ha b hb he
    simp only [List.map_cons, List.map_nil, List.mem_singleton] at hb
    exact freshName_not_mem _ _ (hb ▸ he ▸ ha)

theorem mem_declareHelper_of_mem {table : List Constant} {use : HelperUse} {c : Constant}
    (h : c ∈ table) : c ∈ declareHelper table use := by
  unfold declareHelper
  split
  · exact h
  · exact List.mem_append_left _ h

theorem exists_type_declareHelper (table : List Constant) (use : HelperUse) :
    ∃ c ∈ declareHelper table use, c.type = use.1 := by
  unfold declareHelper
  split
  · rename_i h
    obtain ⟨c, hc, ht⟩ := List.any_eq_true.mp h
    exact ⟨c, hc, by simpa using ht⟩
  · exact ⟨_, List.mem_append_right _ (List.mem_singleton_self _), rfl⟩

theorem foldl_declareHelper_names_nodup {table : List Constant} (uses : List HelperUse)
    (h : (table.map (·.name)).Nodup) :
    ((uses.foldl declareHelper table).map (·.name)).Nodup := by
  induction uses generalizing table with
  | nil => exact h
  | cons use rest ih => exact ih (declareHelper_names_nodup use h)

theorem mem_foldl_declareHelper_of_mem {table : List Constant} {c : Constant}
    (uses : List HelperUse) (h : c ∈ table) : c ∈ uses.foldl declareHelper table := by
  induction uses generalizing table with
  | nil => exact h
  | cons use rest ih => exact ih (mem_declareHelper_of_mem h)

theorem constantsFor_names_nodup (uses : List HelperUse) :
    ((constantsFor uses).map (·.name)).Nodup :=
  foldl_declareHelper_names_nodup uses (by simp)

theorem exists_type_foldl_declareHelper {table : List Constant} {uses : List HelperUse}
    {use : HelperUse} (h : use ∈ uses) :
    ∃ c ∈ uses.foldl declareHelper table, c.type = use.1 := by
  induction uses generalizing table with
  | nil => simp at h
  | cons first rest ih =>
    rcases List.mem_cons.mp h with rfl | hr
    · obtain ⟨c, hc, ht⟩ := exists_type_declareHelper table use
      exact ⟨c, mem_foldl_declareHelper_of_mem rest hc, ht⟩
    · exact ih hr

/-- The name by which a body mentions a helper that is used stands for that helper. -/
theorem find?_constantName {uses : List HelperUse} {use : HelperUse} (h : use ∈ uses) :
    ∃ c, (constantsFor uses).find? (·.name == constantName (constantsFor uses) use.1) = some c ∧
      c.type = use.1 := by
  have hexists : ∃ c ∈ constantsFor uses, c.type = use.1 := exists_type_foldl_declareHelper h
  obtain ⟨c, hc, ht⟩ := hexists
  -- the first constant of the type is the one that the name is taken from
  have hfound : ((constantsFor uses).find? (·.type = use.1)).isSome := by
    rw [List.find?_isSome]
    exact ⟨c, hc, by simpa using ht⟩
  obtain ⟨d, hd⟩ := Option.isSome_iff_exists.mp hfound
  have hdmem := List.mem_of_find?_eq_some hd
  have hdt : d.type = use.1 := by simpa using List.find?_some hd
  have hname : constantName (constantsFor uses) use.1 = d.name := by simp [constantName, hd]
  rw [hname]
  have hbyName : ((constantsFor uses).find? (·.name == d.name)).isSome := by
    rw [List.find?_isSome]
    exact ⟨d, hdmem, by simp⟩
  obtain ⟨e, he⟩ := Option.isSome_iff_exists.mp hbyName
  have hne : e.name = d.name := by simpa using List.find?_some he
  refine ⟨e, he, ?_⟩
  rw [List.inj_on_of_nodup_map (constantsFor_names_nodup uses) (List.mem_of_find?_eq_some he)
    hdmem hne]
  exact hdt

/-! ## Uses -/

namespace Plan

variable {p : Plan} {a : PlannedAttribute}

theorem mem_helperUses_of_writing (hs : p.descriptor.skipSerialize = false) {use : HelperUse}
    (h : use ∈ p.writingUses) : use ∈ p.helperUses := by
  refine List.mem_append_left _ ?_
  simpa [hs] using h

theorem mem_helperUses_of_reading (hs : p.descriptor.skipDeserialize = false) {use : HelperUse}
    (h : use ∈ p.readingUses) : use ∈ p.helperUses := by
  refine List.mem_append_right _ ?_
  simpa [hs] using h

theorem linksProvider_mem_writingUses {t : JavaType} (h : p.links = some t) :
    (t, .linksProvider) ∈ p.writingUses := by
  simp [writingUses, h]

theorem serializer_mem_writingUses {t : JavaType} {deserializer : Option JavaType}
    (ha : a ∈ p.attributes) (ht : a.transfer = .plain (some t) deserializer) :
    (t, .serializer) ∈ p.writingUses := by
  have hmem : a ∈ p.plainAttributes ++ p.embeddedAttributes := by
    cases he : a.embedded <;> simp [plainAttributes, embeddedAttributes, ha, he]
  exact List.mem_append_right _ (List.mem_filterMap.mpr ⟨a, hmem, by rw [ht]; rfl⟩)

theorem deserializer_mem_readingUses {t : JavaType} {serializer : Option JavaType}
    (hcustom : p.descriptor.customDeserializer = none)
    (ha : a ∈ p.attributes) (ht : a.transfer = .plain serializer (some t)) :
    (t, .deserializer) ∈ p.readingUses := by
  unfold readingUses
  rw [hcustom]
  exact List.mem_filterMap.mpr ⟨a, ha, by rw [ht]; cases serializer <;> rfl⟩

end Plan

end JsonMapping.Derive
