import Mathlib.Data.List.Induction
import JsonMapping.Proofs.Derive.Slice

/-! What a registry holds is told by the calls that made it: its descriptors by the first
registration of every id, its attributes by all calls that add some. A call that fails leaves the
registry as it was. The main statement is `registry_tells_history`. -/

namespace JsonMapping

/-- The calls that change a registry. -/
inductive RegistryCall where
  | register (descriptor : Descriptor) (external : Bool)
  | addAttribute (id : RepresenterId) (mapping : AttributeMapping)

namespace RegistryCall

/-- What a call asks to register, whether or not it succeeds. -/
def registers? : RegistryCall → Option Registration
  | .register d external => some ⟨d, external⟩
  | .addAttribute _ _ => none

def adds? : RegistryCall → Option (RepresenterId × AttributeMapping)
  | .register _ _ => none
  | .addAttribute id m => some (id, m)

/-- The first registration of an id among the calls. -/
def first? (calls : List RegistryCall) (id : RepresenterId) : Option Registration :=
  (calls.filterMap registers?).find? (·.id = id)

/-- The ids that the calls register, in order of their first registration. -/
def ids (calls : List RegistryCall) : List RepresenterId :=
  ((calls.filterMap registers?).map Registration.id).eraseDups

/-- The mappings that the calls add for an id. -/
def mappingsFor (calls : List RegistryCall) (id : RepresenterId) : List AttributeMapping :=
  (calls.filterMap adds?).filterMap fun (owner, m) => if owner = id then some m else none

end RegistryCall

/-- The registration of an entry, then its attributes. -/
def DescriptorEntry.calls (e : DescriptorEntry) : List RegistryCall :=
  .register e.descriptor e.external :: e.attributes.map (.addAttribute e.id ·)

def DescriptorSet.calls (set : DescriptorSet) : List RegistryCall :=
  set.entries.flatMap DescriptorEntry.calls

namespace Registry

open RegistryCall

/-- What a call answers, beside the registry that it leaves. -/
def perform : RegistryCall → EStateM MappingError Registry Unit
  | .register d external => insert d external
  | .addAttribute id m => modify (·.addAttribute id m)

/-- The calls one after the other, up to the first that fails. -/
def performAll (calls : List RegistryCall) : EStateM MappingError Registry Unit :=
  calls.forM perform

/-- The registry that a call leaves behind. -/
def next (reg : Registry) (call : RegistryCall) : Registry :=
  match (perform call).run reg with
  | .ok _ left | .error _ left => left

/-- The registry after all calls, where those that fail are passed over. -/
def after (calls : List RegistryCall) : Registry := calls.foldl next empty

variable {reg : Registry} {d : Descriptor} {external : Bool} {id : RepresenterId}
  {call : RegistryCall} {calls : List RegistryCall}

theorem contains_iff_mem :
    reg.contains id = true ↔ id ∈ reg.registrations.map Registration.id := by
  rw [contains, Option.isSome_iff_ne_none, Ne, registration?_eq_none_iff, not_not]

/-! ## One call -/

/-- A registration fails exactly for another model than that of the first one. -/
theorem register_eq_error_iff {e : MappingError} :
    reg.register d external = .error e ↔
      ∃ r, reg.registration? d.representer = some r ∧ r.descriptor.model ≠ d.model ∧
        e = .conflictingRegistration d.representer r.descriptor.model d.model := by
  cases h : reg.registration? d.representer with
  | none =>
    obtain ⟨added, hok, -⟩ := register_of_none external h
    simp [hok]
  | some r =>
    rw [register_of_some external h]
    by_cases hmodel : r.descriptor.model = d.model
    · simp [hmodel]
    · simp [hmodel, eq_comm (a := e)]

theorem next_of_changed {left : Registry} (h : reg.changed (perform call) = .ok left) :
    reg.next call = left := by
  rw [changed] at h
  rw [next]
  split at h <;> cases h
  simp [*]

theorem next_register_of_ok {added : Registry}
    (h : (insert d external).run reg = .ok () added) :
    reg.next (.register d external) = added :=
  next_of_changed (changed_of_ok h)

/-- A later registration of an id leaves the registry as it is, whether or not it succeeds. -/
theorem next_register_of_some {r : Registration} (h : reg.registration? d.representer = some r) :
    reg.next (.register d external) = reg := by
  rw [next, perform, insert_of_some external h]
  by_cases hmodel : r.descriptor.model = d.model
  · rw [if_pos hmodel]
  · rw [if_neg hmodel]

/-- A call adds its registration if the id is new. -/
theorem registrations_next (reg : Registry) (call : RegistryCall) :
    (reg.next call).registrations =
      reg.registrations ++ call.registers?.toList.filter (!reg.contains ·.id) := by
  cases call with
  | addAttribute id m =>
    have hnext : reg.next (.addAttribute id m) = reg.addAttribute id m := rfl
    simp [hnext, addAttribute, registers?]
  | register d external =>
    cases h : reg.registration? d.representer with
    | none =>
      obtain ⟨added, hok, hregistrations, -⟩ := insert_of_none external h
      have hnew : reg.contains d.representer = false := by simp [contains, h]
      rw [next_register_of_ok hok, hregistrations]
      simp [registers?, Registration.id, hnew]
    | some r =>
      have hthere : reg.contains d.representer = true := by simp [contains, h]
      rw [next_register_of_some h]
      simp [registers?, Registration.id, hthere]

theorem additions_next (reg : Registry) (call : RegistryCall) :
    (reg.next call).additions = reg.additions ++ call.adds?.toList := by
  cases call with
  | addAttribute id m => rfl
  | register d external =>
    cases h : reg.registration? d.representer with
    | none =>
      obtain ⟨added, hok, -, hadditions⟩ := insert_of_none external h
      rw [next_register_of_ok hok, hadditions]
      simp [adds?]
    | some r =>
      rw [next_register_of_some h]
      simp [adds?]

/-! ## All calls -/

theorem after_append_singleton (calls : List RegistryCall) (call : RegistryCall) :
    after (calls ++ [call]) = (after calls).next call := by
  simp [after]

theorem additions_after (calls : List RegistryCall) :
    (after calls).additions = calls.filterMap adds? := by
  induction calls using List.reverseRecOn with
  | nil => rfl
  | append_singleton calls call ih =>
    rw [after_append_singleton, additions_next, ih, List.filterMap_append]
    cases call <;> rfl

theorem filterMap_registers?_append_singleton (calls : List RegistryCall) (call : RegistryCall) :
    (calls ++ [call]).filterMap registers? =
      calls.filterMap registers? ++ call.registers?.toList := by
  cases call <;> simp [registers?]

/-- By induction on the calls: an id that is there keeps its registration, and a new one gets that
of the call. -/
theorem registration?_after (calls : List RegistryCall) (id : RepresenterId) :
    (after calls).registration? id = first? calls id := by
  induction calls using List.reverseRecOn with
  | nil => rfl
  | append_singleton calls call ih =>
    have hfirst : first? (calls ++ [call]) id =
        (first? calls id).or (call.registers?.toList.find? (·.id = id)) := by
      rw [first?, filterMap_registers?_append_singleton, List.find?_append, first?]
    rw [after_append_singleton, registration?, registrations_next, List.find?_append,
      ← registration?, ih, hfirst]
    cases h : first? calls id with
    | some r => simp
    | none =>
      have hnew : (after calls).contains id = false := by simp [contains, ih, h]
      rw [Option.none_or, Option.none_or, List.find?_filter]
      congr 1
      funext r
      by_cases hid : r.id = id
      · simp [hid, hnew]
      · simp [hid]

theorem mem_ids {id : RepresenterId} :
    id ∈ ids calls ↔ id ∈ (calls.filterMap registers?).map Registration.id :=
  List.mem_eraseDups

theorem ids_append_singleton (calls : List RegistryCall) (call : RegistryCall) :
    ids (calls ++ [call]) =
      ids calls ++ (call.registers?.toList.map Registration.id).filter (· ∉ ids calls) := by
  rw [ids, filterMap_registers?_append_singleton, List.map_append, List.eraseDups_append, ← ids]
  congr 1
  cases call with
  | addAttribute id m => rfl
  | register d external =>
    by_cases hid : d.representer ∈ ids calls
    · have hthere := mem_ids.mp hid
      simp [registers?, Registration.id, List.removeAll, hid, hthere]
    · have hnew := mt mem_ids.mpr hid
      simp [registers?, Registration.id, List.removeAll, List.eraseDups_cons, hid, hnew]

theorem ids_after (calls : List RegistryCall) :
    (after calls).registrations.map Registration.id = ids calls := by
  induction calls using List.reverseRecOn with
  | nil => rfl
  | append_singleton calls call ih =>
    have hcontains : ∀ id, (!(after calls).contains id) = decide (id ∉ ids calls) := by
      intro id
      simp [← ih, ← contains_iff_mem]
    rw [after_append_singleton, registrations_next, List.map_append, ih, ids_append_singleton,
      List.filter_map]
    congr 2
    exact List.filter_congr fun r _ => hcontains r.id

theorem nodup_ids (calls : List RegistryCall) : (ids calls).Nodup :=
  ids_after calls ▸ (after calls).distinct

/-! ## What the registry answers -/

theorem resolve_after (calls : List RegistryCall) (id : RepresenterId) :
    (after calls).resolve id =
      match first? calls id with
      | some r => .ok r.descriptor
      | none => .error (.unknownRepresenter id) := by
  rw [resolve, resolve?, registration?_after]
  cases first? calls id <;> rfl

theorem isExternal_after (calls : List RegistryCall) (id : RepresenterId) :
    (after calls).isExternal id = (first? calls id).any (·.external) := by
  rw [isExternal, registration?_after]

theorem attributesOf_after (calls : List RegistryCall) (id : RepresenterId) :
    (after calls).attributesOf id = mappingsFor calls id := by
  rw [attributesOf, additions_after, mappingsFor]

theorem insert_after_of_none (h : first? calls d.representer = none) :
    (insert d external).run (after calls) =
      .ok () (after (calls ++ [.register d external])) := by
  rw [← registration?_after] at h
  obtain ⟨added, hok, -⟩ := insert_of_none external h
  rw [after_append_singleton, next_register_of_ok hok, hok]

theorem insert_after_of_some {r : Registration} (h : first? calls d.representer = some r) :
    (insert d external).run (after calls) =
        (if r.descriptor.model = d.model then .ok () (after calls)
        else .error (.conflictingRegistration d.representer r.descriptor.model d.model)
          (after calls)) ∧
      after (calls ++ [.register d external]) = after calls := by
  rw [← registration?_after] at h
  exact ⟨insert_of_some external h,
    (after_append_singleton _ _).trans (next_register_of_some h)⟩

/-- The descriptors are those that their ids resolve to. -/
theorem map_ok_descriptors (reg : Registry) :
    reg.descriptors.map .ok = (reg.registrations.map Registration.id).map reg.resolve := by
  rw [descriptors, List.map_map, List.map_map]
  refine List.map_congr_left fun r hr => ?_
  simp [resolve, resolve?, registration?_eq_some hr]

theorem localDescriptors_eq_filter (reg : Registry) :
    reg.localDescriptors = reg.descriptors.filter (!reg.isExternal ·.representer) := by
  rw [localDescriptors, descriptors, List.filter_map]
  congr 1
  refine List.filter_congr fun r hr => ?_
  have hfound : reg.registration? r.descriptor.representer = some r := registration?_eq_some hr
  simp [isExternal, hfound]

/-! ## Sets -/

/-- A loop stops at the first element that fails. -/
theorem foldlM_eq_error_iff {ε α β : Type} {f : β → α → Except ε β} {as : List α} {b : β} {e : ε} :
    as.foldlM f b = .error e ↔ ∃ before a rest c, as = before ++ a :: rest ∧
      before.foldlM f b = .ok c ∧ f c a = .error e := by
  constructor
  · intro h
    induction as generalizing b with
    | nil => cases h
    | cons a rest ih =>
      cases hf : f b a with
      | error e' =>
        rw [List.foldlM_cons, hf] at h
        obtain rfl := Except.error.inj h
        exact ⟨[], a, rest, b, rfl, rfl, hf⟩
      | ok c =>
        rw [List.foldlM_cons, hf, ok_bind] at h
        obtain ⟨before, a', rest', c', rfl, hbefore, ha⟩ := ih h
        refine ⟨a :: before, a', rest', c', rfl, ?_, ha⟩
        rw [List.foldlM_cons, hf, ok_bind, hbefore]
  · rintro ⟨before, a, rest, c, rfl, hbefore, ha⟩
    rw [List.foldlM_append, hbefore, ok_bind, List.foldlM_cons, ha, error_bind]

theorem changed_bind (reg : Registry) (change more : EStateM MappingError Registry Unit) :
    reg.changed (change >>= fun _ => more) = reg.changed change >>= (·.changed more) := by
  simp only [changed, EStateM.run, bind, EStateM.bind]
  cases change reg <;> rfl

theorem changed_performAll_cons (reg : Registry) (call : RegistryCall)
    (calls : List RegistryCall) : reg.changed (performAll (call :: calls)) =
      reg.changed (perform call) >>= (·.changed (performAll calls)) :=
  changed_bind reg (perform call) (performAll calls)

theorem changed_performAll_append (reg : Registry) (before calls : List RegistryCall) :
    reg.changed (performAll (before ++ calls)) =
      reg.changed (performAll before) >>= (·.changed (performAll calls)) := by
  induction before generalizing reg with
  | nil => rfl
  | cons call rest ih =>
    rw [List.cons_append, changed_performAll_cons, changed_performAll_cons, bind_assoc]
    exact bind_congr_ok fun left _ => ih left

theorem changed_attributes (reg : Registry) (id : RepresenterId) (ms : List AttributeMapping) :
    reg.changed (performAll (ms.map (.addAttribute id ·))) =
      .ok (ms.foldl (·.addAttribute id ·) reg) := by
  induction ms generalizing reg with
  | nil => rfl
  | cons m rest ih =>
    rw [List.map_cons, changed_performAll_cons]
    exact ih (reg.addAttribute id m)

theorem changed_entry (reg : Registry) (e : DescriptorEntry) :
    reg.changed (performAll e.calls) = reg.addEntry e := by
  rw [DescriptorEntry.calls, changed_performAll_cons, addEntry]
  exact bind_congr_ok fun added _ => changed_attributes added e.id e.attributes

/-- A set is loaded as by its calls. -/
theorem ofSet_eq_changed (set : DescriptorSet) :
    ofSet set = empty.changed (performAll set.calls) := by
  obtain ⟨es⟩ := set
  suffices h : ∀ reg : Registry,
      es.foldlM addEntry reg = reg.changed (performAll (es.flatMap DescriptorEntry.calls))
    from h empty
  induction es with
  | nil => exact fun reg => rfl
  | cons e rest ih =>
    intro reg
    rw [List.foldlM_cons, List.flatMap_cons, changed_performAll_append, changed_entry]
    exact bind_congr_ok fun added _ => ih added

/-- Where no call fails, none is passed over. -/
theorem eq_after_of_changed (h : empty.changed (performAll calls) = .ok reg) :
    reg = after calls := by
  suffices hall : ∀ start : Registry, start.changed (performAll calls) = .ok reg →
      reg = calls.foldl next start
    from hall empty h
  clear h
  induction calls with
  | nil => exact fun start h => (Except.ok.inj h).symm
  | cons call rest ih =>
    intro start h
    rw [changed_performAll_cons] at h
    obtain ⟨added, hok, hrest⟩ := bind_eq_ok.mp h
    rw [List.foldl_cons, next_of_changed hok]
    exact ih added hrest

theorem filterMap_registers?_calls (es : List DescriptorEntry) :
    (es.flatMap DescriptorEntry.calls).filterMap registers? = entryRegistrations es := by
  induction es with
  | nil => rfl
  | cons e rest ih =>
    have hentry : e.calls.filterMap registers? = [⟨e.descriptor, e.external⟩] := by
      simp [DescriptorEntry.calls, registers?]
    rw [List.flatMap_cons, List.filterMap_append, ih, hentry]
    rfl

/-- In a registry from entries, an id has the descriptor of its first entry. -/
theorem registration?_foldlM_addEntry {es : List DescriptorEntry}
    (h : es.foldlM addEntry empty = .ok reg) (id : RepresenterId) :
    reg.registration? id =
      (es.find? (·.id = id)).map fun e => ⟨e.descriptor, e.external⟩ := by
  have hall : empty.changed (performAll (es.flatMap DescriptorEntry.calls)) = .ok reg :=
    (ofSet_eq_changed ⟨es⟩).symm.trans h
  rw [eq_after_of_changed hall, registration?_after, first?, filterMap_registers?_calls,
    entryRegistrations, List.find?_map]
  rfl

theorem addEntry_eq_error_iff {e : DescriptorEntry} {error : MappingError} :
    reg.addEntry e = .error error ↔
      ∃ r, reg.registration? e.id = some r ∧ r.descriptor.model ≠ e.descriptor.model ∧
        error = .conflictingRegistration e.id r.descriptor.model e.descriptor.model := by
  have hregister : reg.addEntry e = .error error ↔
      reg.register e.descriptor e.external = .error error := by
    rw [addEntry]
    cases reg.register e.descriptor e.external <;> simp
  rw [hregister, register_eq_error_iff]
  rfl

/-- The entry at which a loop over entries fails, and with what. -/
theorem foldlM_addEntry_eq_error_iff {es : List DescriptorEntry} {error : MappingError} :
    es.foldlM addEntry empty = .error error ↔
      ∃ before e rest f, es = before ++ e :: rest ∧
        (∃ reg, before.foldlM addEntry empty = .ok reg) ∧
        before.find? (·.id = e.id) = some f ∧ f.descriptor.model ≠ e.descriptor.model ∧
        error = .conflictingRegistration e.id f.descriptor.model e.descriptor.model := by
  constructor
  · intro h
    obtain ⟨before, e, rest, reg, rfl, hbefore, hentry⟩ := foldlM_eq_error_iff.mp h
    obtain ⟨r, hr, hmodel, rfl⟩ := addEntry_eq_error_iff.mp hentry
    rw [registration?_foldlM_addEntry hbefore] at hr
    obtain ⟨f, hf, rfl⟩ := Option.map_eq_some_iff.mp hr
    exact ⟨before, e, rest, f, rfl, ⟨reg, hbefore⟩, hf, hmodel, rfl⟩
  · rintro ⟨before, e, rest, f, rfl, ⟨reg, hbefore⟩, hf, hmodel, rfl⟩
    have hr : reg.registration? e.id = some ⟨f.descriptor, f.external⟩ := by
      rw [registration?_foldlM_addEntry hbefore, hf]
      rfl
    exact foldlM_eq_error_iff.mpr ⟨before, e, rest, reg, rfl, hbefore,
      addEntry_eq_error_iff.mpr ⟨_, hr, hmodel, rfl⟩⟩

/-- Where no entry fails, each agrees with the first of its id. -/
theorem model_eq_of_foldlM_addEntry {es : List DescriptorEntry}
    (h : es.foldlM addEntry empty = .ok reg) {e f : DescriptorEntry} (he : e ∈ es)
    (hf : es.find? (·.id = e.id) = some f) : f.descriptor.model = e.descriptor.model := by
  obtain ⟨before, rest, rfl⟩ := List.append_of_mem he
  rw [List.foldlM_append] at h
  obtain ⟨start, hbefore, h⟩ := bind_eq_ok.mp h
  rw [List.foldlM_cons] at h
  obtain ⟨added, hadded, -⟩ := bind_eq_ok.mp h
  rw [List.find?_append] at hf
  cases hfirst : before.find? (·.id = e.id) with
  | none =>
    -- the entry is the first of its id itself
    rw [hfirst, Option.none_or, List.find?_cons_of_pos (by simp)] at hf
    rw [Option.some.inj hf]
  | some first =>
    rw [hfirst, Option.some_or] at hf
    obtain rfl := Option.some.inj hf
    by_contra hmodel
    have hr : start.registration? e.id = some ⟨first.descriptor, first.external⟩ := by
      rw [registration?_foldlM_addEntry hbefore, hfirst]
      rfl
    have hfail := addEntry_eq_error_iff.mpr ⟨_, hr, hmodel, rfl⟩
    rw [hadded] at hfail
    cases hfail

/-- Loading entries fails exactly if one of them has an earlier entry of its id with another
model. -/
theorem exists_foldlM_addEntry_error_iff {es : List DescriptorEntry} :
    (∃ error, es.foldlM addEntry empty = .error error) ↔
      ∃ before e rest, es = before ++ e :: rest ∧
        ∃ f ∈ before, f.id = e.id ∧ f.descriptor.model ≠ e.descriptor.model := by
  constructor
  · rintro ⟨error, h⟩
    obtain ⟨before, e, rest, f, hes, -, hf, hmodel, -⟩ := foldlM_addEntry_eq_error_iff.mp h
    have hid : f.id = e.id := by simpa using List.find?_some hf
    exact ⟨before, e, rest, hes, f, List.mem_of_find?_eq_some hf, hid, hmodel⟩
  · rintro ⟨before, e, rest, rfl, f, hf, hid, hmodel⟩
    cases h : (before ++ e :: rest).foldlM addEntry empty with
    | error error => exact ⟨error, rfl⟩
    | ok reg =>
      -- both entries would have the model of the first one of their id
      exfalso
      obtain ⟨first, hfirst⟩ : ∃ first,
          (before ++ e :: rest).find? (·.id = e.id) = some first := by
        rw [← Option.isSome_iff_exists, List.find?_isSome]
        exact ⟨e, by simp, by simp⟩
      have he := model_eq_of_foldlM_addEntry h (by simp) hfirst
      have hf := model_eq_of_foldlM_addEntry h (List.mem_append_left _ hf) (hid ▸ hfirst)
      exact hmodel (hf.symm.trans he)

end Registry

open Registry RegistryCall in
/-- The registry after any calls: an id has the descriptor and the kind of its first registration, a
later one leaves the same registry and fails exactly for another model, the attributes are those
that were added, in their order. A set is loaded as by its calls. It fails exactly if an entry has an
earlier one of its id with another model, and then with the first such entry and the first of that
id. -/
theorem registry_tells_history :
    (∀ calls id,
      (after calls).resolve id = (match first? calls id with
        | some r => .ok r.descriptor
        | none => .error (.unknownRepresenter id)) ∧
      (after calls).isExternal id = (first? calls id).any (·.external) ∧
      (after calls).attributesOf id = mappingsFor calls id) ∧
    (∀ calls d external,
      (first? calls d.representer = none →
        (insert d external).run (after calls) =
          .ok () (after (calls ++ [.register d external]))) ∧
      ∀ r, first? calls d.representer = some r →
        (insert d external).run (after calls) =
          (if r.descriptor.model = d.model then .ok () (after calls)
          else .error (.conflictingRegistration d.representer r.descriptor.model d.model)
            (after calls)) ∧
        after (calls ++ [.register d external]) = after calls) ∧
    (∀ calls,
      (ids calls).Nodup ∧
      (after calls).descriptors.map (·.representer) = ids calls ∧
      (after calls).descriptors.map .ok = (ids calls).map (after calls).resolve ∧
      (after calls).localDescriptors =
        (after calls).descriptors.filter (!(after calls).isExternal ·.representer)) ∧
    ∀ set,
      ofSet set = empty.changed (performAll set.calls) ∧
      (∀ reg, ofSet set = .ok reg → reg = after set.calls) ∧
      ((∃ error, ofSet set = .error error) ↔ ∃ before e rest, set.entries = before ++ e :: rest ∧
        ∃ f ∈ before, f.id = e.id ∧ f.descriptor.model ≠ e.descriptor.model) ∧
      ∀ error, ofSet set = .error error ↔ ∃ before e rest f,
        set.entries = before ++ e :: rest ∧ (∃ reg, ofSet ⟨before⟩ = .ok reg) ∧
        before.find? (·.id = e.id) = some f ∧ f.descriptor.model ≠ e.descriptor.model ∧
        error = .conflictingRegistration e.id f.descriptor.model e.descriptor.model := by
  refine ⟨?_, ?_, ?_, ?_⟩
  · intro calls id
    exact ⟨resolve_after calls id, isExternal_after calls id, attributesOf_after calls id⟩
  · intro calls d external
    exact ⟨insert_after_of_none, fun r => insert_after_of_some⟩
  · intro calls
    have hids := ids_after calls
    refine ⟨nodup_ids calls, ?_, ?_, localDescriptors_eq_filter _⟩
    · rw [← hids, descriptors, List.map_map]
      rfl
    · rw [map_ok_descriptors, hids]
  · intro set
    refine ⟨ofSet_eq_changed set, ?_, exists_foldlM_addEntry_error_iff,
      fun error => foldlM_addEntry_eq_error_iff⟩
    intro reg hreg
    exact eq_after_of_changed ((ofSet_eq_changed set).symm.trans hreg)

namespace Sample

open Registry RegistryCall

/-- The user with the model of the team. -/
def misplaced : Descriptor := { user with model := team.model }

/-- An attribute before its owner, an external user, the team once more and a conflict. -/
def teamCalls : List RegistryCall :=
  [.addAttribute team.representer lead, .register team false, .register user true,
    .register { team with skipSerialize := true } true, .register misplaced false]

/-- What the calls tell of the team and the user, and the same as a set, which fails. -/
theorem registry_tells_history_teams :
    ((after teamCalls).resolve userId = .ok user ∧ (after teamCalls).isExternal userId = true ∧
      (after teamCalls).attributesOf team.representer = [lead]) ∧
    (first? teamCalls namesake.representer = none ∧
      (insert namesake false).run (after teamCalls) =
        .ok () (after (teamCalls ++ [.register namesake false])) ∧
      first? teamCalls team.representer = some ⟨team, false⟩ ∧
      (insert { team with skipDeserialize := true } true).run (after teamCalls) =
        .ok () (after teamCalls) ∧
      first? teamCalls misplaced.representer = some ⟨user, true⟩ ∧
      (insert misplaced true).run (after teamCalls) =
        .error (.conflictingRegistration userId user.model team.model) (after teamCalls)) ∧
    (after teamCalls).descriptors.map (·.representer) = [team.representer, userId] ∧
    ∃ reg, ofSet ⟨[teamEntry, userEntry]⟩ = .ok reg ∧
      reg = after (⟨[teamEntry, userEntry]⟩ : DescriptorSet).calls ∧
      ofSet ⟨[teamEntry, userEntry, ⟨misplaced, [], false⟩]⟩ =
        .error (.conflictingRegistration userId user.model team.model) := by
  obtain ⟨hanswers, hregister, hlists, hsets⟩ := registry_tells_history
  have hnew : first? teamCalls namesake.representer = none := rfl
  have hteam : first? teamCalls team.representer = some ⟨team, false⟩ := rfl
  have huser : first? teamCalls misplaced.representer = some ⟨user, true⟩ := rfl
  have hagain := ((hregister teamCalls { team with skipDeserialize := true } true).2 _ hteam).1
  have hconflict := ((hregister teamCalls misplaced true).2 _ huser).1
  rw [if_pos rfl] at hagain
  rw [if_neg (by decide)] at hconflict
  obtain ⟨-, hids, -⟩ := hlists teamCalls
  have hset : ofSet ⟨[teamEntry, userEntry]⟩ = .ok _ := rfl
  refine ⟨⟨(hanswers teamCalls userId).1, (hanswers teamCalls userId).2.1,
    (hanswers teamCalls team.representer).2.2⟩, ⟨hnew, (hregister _ _ _).1 hnew, hteam, hagain,
    huser, hconflict⟩, hids.trans (by decide), _, hset, (hsets _).2.1 _ hset, ?_⟩
  exact ((hsets _).2.2.2 _).mpr ⟨[teamEntry, userEntry], ⟨misplaced, [], false⟩, [], userEntry, rfl,
    ⟨_, hset⟩, rfl, by decide, rfl⟩

end Sample

end JsonMapping
