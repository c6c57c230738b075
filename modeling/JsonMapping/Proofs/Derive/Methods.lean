import JsonMapping.Proofs.Derive.Emitted
import JsonMapping.Proofs.Graph.Writing

/-! The methods of a derived mapper: one of each kind, unless the descriptor skips the direction. -/

namespace JsonMapping.Derive.Plan

/-- The method of each kind that a plan stands for. -/
def method (p : Plan) : MethodKind → Method
  | .toJson => toJsonMethod p.constants p
  | .toJsonCollection => toJsonCollectionMethod p
  | .fromJson => fromJsonMethod p.constants p
  | .fromJsonCollection => fromJsonCollectionMethod p

variable {p : Plan}

theorem methods_eq (p : Plan) : methods p =
    (if p.descriptor.skipSerialize then [] else [p.method .toJson, p.method .toJsonCollection]) ++
      (if p.descriptor.skipDeserialize then [] else
        [p.method .fromJson, p.method .fromJsonCollection]) := rfl

theorem mem_methods_iff {m : Method} :
    m ∈ methods p ↔ ∃ k, p.descriptor.skips k = false ∧ m = p.method k := by
  rw [methods_eq]
  constructor
  · intro h
    rcases List.mem_append.mp h with h | h
    · split at h
      · cases h
      rename_i hskip
      simp only [List.mem_cons, List.not_mem_nil, or_false] at h
      rcases h with rfl | rfl
      · exact ⟨.toJson, by simpa [Descriptor.skips] using hskip, rfl⟩
      · exact ⟨.toJsonCollection, by simpa [Descriptor.skips] using hskip, rfl⟩
    · split at h
      · cases h
      rename_i hskip
      simp only [List.mem_cons, List.not_mem_nil, or_false] at h
      rcases h with rfl | rfl
      · exact ⟨.fromJson, by simpa [Descriptor.skips] using hskip, rfl⟩
      · exact ⟨.fromJsonCollection, by simpa [Descriptor.skips] using hskip, rfl⟩
  · rintro ⟨k, hskip, rfl⟩
    cases k <;> simp only [Descriptor.skips] at hskip <;> simp [hskip]

/-- A call finds a method exactly if the descriptor does not skip its kind. -/
theorem method?_toMapper (p : Plan) (k : MethodKind) :
    p.toMapper.method? k = if p.descriptor.skips k then none else some (p.method k) := by
  unfold Mapper.method?
  rw [show p.toMapper.methods = methods p from rfl, methods_eq]
  cases hs : p.descriptor.skipSerialize <;> cases hd : p.descriptor.skipDeserialize <;> cases k <;>
    simp only [Descriptor.skips, hs, hd, if_true, if_false, Bool.false_eq_true] <;> rfl

end JsonMapping.Derive.Plan
