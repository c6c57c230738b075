import JsonMapping.Proofs.Graph.Loading

/-! The graph of the mappers that a world holds. Of several derived mappers of one name a world
holds at most one, so this graph leaves out the descriptors whose mappers were replaced. It needs no
distinct names, only that no value comes back to a mapper through variants. -/

namespace JsonMapping

open Derive

namespace World

/-- The mapper is found under its own name. -/
def Holds (w : World) (m : Mapper) : Prop := w.mappers.get? m.type.qualifiedName = some m

/-- Whatever mapper is found is one of these, under its own name. -/
def HoldsOnly (w : World) (ms : List Mapper) : Prop :=
  ∀ name m, w.mappers.get? name = some m → m ∈ ms ∧ m.type.qualifiedName = name

/-- The world holds both mappers, and the second has the name of the mapper of a variant of the
descriptor of the first. -/
def Dispatches (w : World) (reg : Registry) (g : GeneratorSettings) (m n : Mapper) : Prop :=
  w.Holds m ∧ w.Holds n ∧ ∃ d, reg.resolve? m.representer = some d ∧
    ∃ a ∈ d.variants, g.mapperName a.representer = n.type.qualifiedName

theorem holdsOnly_loadAll {w : World} (hw : w.mappers = []) (ms : List Mapper) :
    (w.loadAll ms).HoldsOnly ms := by
  intro name m h
  rw [mappers_loadAll, hw] at h
  rcases Entries.mem_or_get?_of_get?_insertAll h with h | h
  · obtain ⟨n, hn, he⟩ := List.mem_map.mp h
    obtain ⟨rfl, rfl⟩ := Prod.mk.inj he
    exact ⟨hn, rfl⟩
  · cases h

end World

section Loaded

variable {reg : Registry} {g : GeneratorSettings} {ms : List Mapper} {w : World}
  {d e : Descriptor}

open Classical in
/-- The descriptors whose mappers the world holds. -/
noncomputable def Registry.loadedDescriptors (reg : Registry) (g : GeneratorSettings) (w : World) :
    List Descriptor :=
  reg.localDescriptors.filter fun d => w.Holds (planned reg g d).toMapper

theorem Registry.mem_loadedDescriptors : d ∈ reg.loadedDescriptors g w ↔
    d ∈ reg.localDescriptors ∧ w.Holds (planned reg g d).toMapper := by
  simp [loadedDescriptors]

/-- A descriptor is known by its mapper. -/
theorem Registry.eq_of_toMapper_eq (hd : d ∈ reg.localDescriptors) (he : e ∈ reg.localDescriptors)
    (h : (planned reg g d).toMapper = (planned reg g e).toMapper) : d = e :=
  List.inj_on_of_nodup_map reg.nodup_localDescriptors hd he (congrArg Mapper.representer h)

/-- Descriptors whose mappers are found under one name are the same. -/
theorem Registry.nodup_loadedDescriptors (reg : Registry) (g : GeneratorSettings) (w : World) :
    ((reg.loadedDescriptors g w).map fun d => g.mapperName d.representer).Nodup := by
  refine List.Nodup.map_on ?_ (reg.nodup_localDescriptors.of_map.filter _)
  intro d hd e he hname
  obtain ⟨hd, hholds⟩ := mem_loadedDescriptors.mp hd
  obtain ⟨he, hholds'⟩ := mem_loadedDescriptors.mp he
  have hget : w.mappers.get? (g.mapperName d.representer) = some (planned reg g d).toMapper :=
    hholds
  have hget' : w.mappers.get? (g.mapperName e.representer) = some (planned reg g e).toMapper :=
    hholds'
  rw [hname, hget'] at hget
  exact eq_of_toMapper_eq hd he (Option.some.inj hget).symm

/-- A descriptor that hands values on has a mapper that has the other one for a variant. -/
theorem World.dispatches_of_handsOn (hd : d ∈ reg.loadedDescriptors g w)
    (h : HandsOn g (reg.loadedDescriptors g w) d e) :
    w.Dispatches reg g (planned reg g d).toMapper (planned reg g e).toMapper := by
  obtain ⟨he, hvariant⟩ := h
  obtain ⟨hlocal, hholds⟩ := Registry.mem_loadedDescriptors.mp hd
  exact ⟨hholds, (Registry.mem_loadedDescriptors.mp he).2, d,
    Registry.resolve?_of_mem_localDescriptors hlocal, hvariant⟩

theorem World.transGen_dispatches (hd : d ∈ reg.loadedDescriptors g w)
    (h : Relation.TransGen (HandsOn g (reg.loadedDescriptors g w)) d e) :
    Relation.TransGen (w.Dispatches reg g) (planned reg g d).toMapper
      (planned reg g e).toMapper := by
  -- from the front, since only the descriptor that a step leads to is known to be a member
  induction h using Relation.TransGen.head_induction_on with
  | single h => exact .single (dispatches_of_handsOn hd h)
  | head h _ ih => exact .head (dispatches_of_handsOn hd h) (ih h.1)

/-- The graph of the descriptors whose mappers the world holds. -/
noncomputable def Graph.ofWorld (reg : Registry) (g : GeneratorSettings) (w : World)
    (h : ∀ m, ¬ Relation.TransGen (w.Dispatches reg g) m m) : Graph where
  registry := reg
  settings := g
  members := reg.loadedDescriptors g w
  registered := fun _ hd =>
    Registry.resolve?_of_mem_localDescriptors (Registry.mem_loadedDescriptors.mp hd).1
  distinct := reg.nodup_loadedDescriptors g w
  acyclic := by
    intro d hd
    obtain ⟨_, -, hlast⟩ := Relation.TransGen.tail'_iff.mp hd
    exact h _ (World.transGen_dispatches hlast.1 hd)

/-- A mapper that the world holds is that of a member. -/
theorem World.HoldsOnly.exists_member (hw : w.HoldsOnly ms) (hms : reg.deriveAll g = .ok ms)
    {name : String} {m : Mapper} (h : w.mappers.get? name = some m) :
    ∃ d ∈ reg.loadedDescriptors g w, m = (planned reg g d).toMapper ∧
      name = g.mapperName d.representer := by
  obtain ⟨hm, hname⟩ := hw name m h
  obtain ⟨d, hd, rfl, -⟩ := exists_descriptor hms hm
  rw [← hname] at h
  exact ⟨d, Registry.mem_loadedDescriptors.mpr ⟨hd, h⟩, rfl, hname.symm⟩

/-- A world that holds derived mappers only serves the graph of these. -/
theorem World.HoldsOnly.serves (hw : w.HoldsOnly ms) (hms : reg.deriveAll g = .ok ms)
    (h : ∀ m, ¬ Relation.TransGen (w.Dispatches reg g) m m) :
    w.Serves (Graph.ofWorld reg g w h) where
  loaded := by
    intro d hd
    obtain ⟨hlocal, hholds⟩ := Registry.mem_loadedDescriptors.mp hd
    exact ⟨_, derive_eq hms hlocal, hholds⟩
  outside := by
    intro d _ r _ hfind
    cases hget : w.mappers.get? (g.mapperName r) with
    | none => exact hget
    | some m =>
      obtain ⟨e, he, -, hname⟩ := hw.exists_member hms hget
      exact absurd hname.symm (Graph.mapperName_ne_of_find?_eq_none hfind he)

/-- Mappers that dispatch belong to descriptors that hand values on. -/
theorem World.HoldsOnly.handsOn_of_dispatches (hw : w.HoldsOnly ms) (hms : reg.deriveAll g = .ok ms)
    {m n : Mapper} (h : w.Dispatches reg g m n) :
    ∃ d ∈ reg.localDescriptors, ∃ e, m = (planned reg g d).toMapper ∧
      n = (planned reg g e).toMapper ∧ HandsOn g reg.localDescriptors d e := by
  obtain ⟨hm, hn, d', hd', a, ha, hname⟩ := h
  obtain ⟨d, hd, rfl, -⟩ := exists_descriptor hms (hw _ _ hm).1
  obtain ⟨e, he, rfl, -⟩ := exists_descriptor hms (hw _ _ hn).1
  have hsame : d' = d := by
    have hresolve := Registry.resolve?_of_mem_localDescriptors hd
    exact Option.some.inj (hd'.symm.trans hresolve)
  subst hsame
  exact ⟨d', hd, e, rfl, rfl, he, a, ha, hname⟩

/-- No value comes back to a mapper if none comes back to a descriptor. -/
theorem World.HoldsOnly.acyclic (hw : w.HoldsOnly ms) (hms : reg.deriveAll g = .ok ms)
    (h : ∀ d, ¬ Relation.TransGen (HandsOn g reg.localDescriptors) d d) (m : Mapper) :
    ¬ Relation.TransGen (w.Dispatches reg g) m m := by
  have hlift : ∀ n, Relation.TransGen (w.Dispatches reg g) m n →
      ∃ d ∈ reg.localDescriptors, ∃ e ∈ reg.localDescriptors, m = (planned reg g d).toMapper ∧
        n = (planned reg g e).toMapper ∧
        Relation.TransGen (HandsOn g reg.localDescriptors) d e := by
    intro n hn
    induction hn with
    | single hstep =>
      obtain ⟨d, hd, e, rfl, rfl, hhands⟩ := hw.handsOn_of_dispatches hms hstep
      exact ⟨d, hd, e, hhands.1, rfl, rfl, .single hhands⟩
    | tail _ hstep ih =>
      obtain ⟨d, hd, e, he, rfl, hbetween, hrun⟩ := ih
      obtain ⟨e', he', f, hlast, rfl, hhands⟩ := hw.handsOn_of_dispatches hms hstep
      obtain rfl := Registry.eq_of_toMapper_eq he he' (hbetween.symm.trans hlast)
      exact ⟨d, hd, f, hhands.1, rfl, rfl, hrun.tail hhands⟩
  intro hm
  obtain ⟨d, hd, e, he, hfirst, hlast, hrun⟩ := hlift m hm
  obtain rfl := Registry.eq_of_toMapper_eq hd he (hfirst.symm.trans hlast)
  exact h d hrun

end Loaded

end JsonMapping
