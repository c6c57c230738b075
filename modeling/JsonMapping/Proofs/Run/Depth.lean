import JsonMapping.Proofs.Graph.Loaded
import JsonMapping.Proofs.Run.Reading
import JsonMapping.Proofs.Run.Writing
import JsonMapping.Proofs.Scope.Basic

/-! How deep runs nest. A call goes to a strict part of the value, or it stays at the value and goes
to a variant. So where no value comes back to a mapper through variants, the height of the argument
and the number of mappers bound the depth, however mappers refer to each other. -/

namespace JsonMapping

open Derive

/-- The context that a method is called with: the ones that write get it. -/
def MethodKind.given (k : MethodKind) (c : RequestContext) : Option RequestContext :=
  if k.writes then some c else none

namespace Graph

variable (G : Graph) (w : World) (c : RequestContext) (d : Descriptor) (v : Value)

/-- What a method gives, read off the descriptors. -/
def answer : MethodKind → Outcome Value
  | .toJson => (G.write w c d v).map .map
  | .toJsonCollection => do
    let items ← v.elements .values
    return .list (← items.mapM fun item => return .map (← G.write w c d item))
  | .fromJson => G.read w d v
  | .fromJsonCollection => do
    if v.isNull then return .list []
    return .list (← (← v.elements .jsonArray).mapM (G.read w d))

/-- Every answer comes to an end. -/
theorem answer_ends (k : MethodKind) : G.answer w c d v k ≠ .error .tooDeep := by
  have hwrite : ∀ u, Settles (G.write w c d u) (G.write w c d u) := fun u =>
    ⟨rfl, G.write_ends w c d u⟩
  have hread : ∀ u, Settles (G.read w d u) (G.read w d u) := fun u => ⟨rfl, G.read_ends w d u⟩
  refine Settles.ends (y := G.answer w c d v k) ?_
  cases k with
  | toJson =>
    rw [answer, map_eq_bind]
    exact (hwrite v).bind fun _ _ => .ok _
  | toJsonCollection =>
    refine .lift_bind fun items _ => .bind (.mapM fun i _ => ?_) fun _ _ => .ok _
    exact (hwrite i).bind fun _ _ => .ok _
  | fromJson => exact hread v
  | fromJsonCollection =>
    unfold answer
    cases v.isNull with
    | true => exact .ok _
    | false => exact .lift_bind fun items _ => .bind (.mapM fun i _ => hread i) fun _ _ => .ok _

variable {G w d v}

/-- Given the depth that the value needs, every method agrees with the descriptors. -/
theorem run_method_eq (hw : w.Serves G) (hd : d ∈ G.members) {k : MethodKind}
    (hs : d.skips k = false) {depth : Nat} (hdepth : G.weight d v ≤ depth) :
    (G.method d k).run (G.scope w (w.call depth) d) [v] (k.given c) = G.answer w c d v k := by
  cases k with
  | toJson => exact Writing.run_toJson hw hd hs hdepth
  | toJsonCollection =>
    -- one call for each element, which is less high than the list
    refine Writing.run_toJsonCollectionMethod fun i hi => ?_
    obtain ⟨n, rfl, hn⟩ := G.exists_depth_of_height_lt hi hdepth
    rw [Graph.call_member hw hd .toJson hs]
    exact Writing.run_toJson hw hd hs (hn d)
  | fromJson => exact Reading.run_fromJson hw hd hs hdepth
  | fromJsonCollection =>
    refine Reading.run_fromJsonCollectionMethod fun i hi => ?_
    obtain ⟨n, rfl, hn⟩ := G.exists_depth_of_height_lt hi hdepth
    rw [Graph.call_member hw hd .fromJson hs]
    exact Reading.run_fromJson hw hd hs (hn d)

end Graph

namespace World

/-- How deep calls nest at most: every one goes down in the value, or on to another mapper. -/
def depthBound (w : World) (v : Value) : Nat := (v.height + 1) * (w.mappers.length + 1)

variable {w : World}

/-- The mapper of a member answers what its descriptor does not skip. -/
theorem Serves.runWithin_eq {G : Graph} (hw : w.Serves G) {d : Descriptor} (hd : d ∈ G.members)
    (k : MethodKind) (v : Value) (c : RequestContext) {depth : Nat}
    (hdepth : w.depthBound v ≤ depth) :
    w.runWithin depth (G.settings.mapperName d.representer) k v (k.given c) =
      if d.skips k then .error (.fault (.missingMethod (G.mapper d).type k))
      else G.answer w c d v k := by
  unfold runWithin
  rw [mapper_eq_ok.mpr (hw.get? hd), lift_ok, ok_bind]
  cases hs : d.skips k with
  | true => simp [runMethod, Graph.method?_mapper, hs]
  | false =>
    have hweight : G.weight d v ≤ depth := by
      have hbound : G.bound v ≤ w.depthBound v :=
        Nat.mul_le_mul_left _ (Nat.succ_le_succ hw.length_le)
      have hlt := G.weight_lt_bound d v
      omega
    rw [Graph.runMethod_eq k _ _ hs]
    exact Graph.run_method_eq c hw hd hs hweight

/-- So what it answers does not depend on the depth. -/
theorem Serves.runWithin_settles {G : Graph} (hw : w.Serves G) {d : Descriptor}
    (hd : d ∈ G.members) (k : MethodKind) (v : Value) (c : RequestContext) {n n' : Nat}
    (hn : w.depthBound v ≤ n) (hn' : w.depthBound v ≤ n') :
    Settles (w.runWithin n (G.settings.mapperName d.representer) k v (k.given c))
      (w.runWithin n' (G.settings.mapperName d.representer) k v (k.given c)) := by
  rw [hw.runWithin_eq hd k v c hn, hw.runWithin_eq hd k v c hn']
  refine ⟨rfl, ?_⟩
  split
  · simp
  · exact G.answer_ends w c d v k

theorem depthBound_le_depthFor (w : World) (v : Value) : w.depthBound v ≤ w.depthFor v := by
  have hle : w.depthBound v ≤ (v.height + 2) * (w.mappers.length + 2) :=
    Nat.mul_le_mul (by omega) (by omega)
  unfold depthFor
  omega

end World

/-- Runs come to an end, in any world of mappers that are derived from one registry, for every
method and every argument, however the descriptors refer to each other in circles, if no value
comes back to a mapper through variants. What a run gives is the same for every depth from a bound
on that is made of the height of the argument and the number of mappers. -/
theorem runs_end_within_bound {reg : Registry} {g : GeneratorSettings} {ms : List Mapper}
    {w : World} (hms : reg.deriveAll g = .ok ms) (hw : w.HoldsOnly ms)
    (hacyclic : ∀ m, ¬ Relation.TransGen (w.Dispatches reg g) m m) (name : String) (k : MethodKind)
    (v : Value) (c : RequestContext) :
    w.run name k v (k.given c) ≠ .error .tooDeep ∧
      ∀ depth, w.depthBound v ≤ depth →
        w.runWithin depth name k v (k.given c) = w.run name k v (k.given c) := by
  have hsettles : ∀ depth, w.depthBound v ≤ depth →
      Settles (w.runWithin depth name k v (k.given c)) (w.run name k v (k.given c)) := by
    intro depth hdepth
    cases hget : w.mappers.get? name with
    | none =>
      have hmapper : w.mapper name = .error (.unknownMapper name) := by
        simp only [World.mapper, hget]
      unfold World.run World.runWithin
      rw [hmapper]
      refine .lift_bind fun m hm => ?_
      cases hm
    | some m =>
      obtain ⟨d, hd, -, rfl⟩ := hw.exists_member hms hget
      exact (hw.serves hms hacyclic).runWithin_settles hd k v c hdepth
        (w.depthBound_le_depthFor v)
  exact ⟨(hsettles _ (w.depthBound_le_depthFor v)).ends, fun depth hdepth =>
    (hsettles depth hdepth).eq⟩

namespace Sample

/-! ### Plants

A node whose children are nodes, as in the trees, and which may be a leaf. -/

def leaf : Descriptor where
  representer := ⟨typeNamed ⟨"LeafRepresenter", by decide⟩⟩
  model := typeNamed ⟨"Leaf", by decide⟩

def branch : Descriptor :=
  { node with dispatch := some {
      discriminator := "kind"
      nestedAttribute := none
      variants := [{ id := "leaf", representer := leaf.representer }] } }

def plants : Registry where
  registrations := [⟨branch, false⟩, ⟨leaf, false⟩]
  additions := [(nodeId, label), (nodeId, children)]
  distinct := (by decide : [nodeId, leaf.representer].Nodup)

def plantMappers : List Mapper :=
  [(planned plants {} branch).toMapper, (planned plants {} leaf).toMapper]

def plantWorld : World := World.loadAll {} plantMappers

theorem plants_acyclic (d : Descriptor) :
    ¬ Relation.TransGen (HandsOn {} plants.localDescriptors) d d := by
  refine acyclic_of_flat ?_ d
  rintro d hd e ⟨he, a, ha, hname⟩
  have hd : d = branch ∨ d = leaf := by
    simpa [Registry.localDescriptors, plants] using hd
  have he : e = branch ∨ e = leaf := by
    simpa [Registry.localDescriptors, plants] using he
  rcases hd with rfl | rfl
  · rcases he with rfl | rfl
    · rw [List.mem_singleton.mp ha] at hname
      exact absurd hname (by decide +kernel)
    · rfl
  · cases ha

theorem runs_end_within_bound_plants :
    plants.deriveAll {} = .ok plantMappers ∧ plantWorld.HoldsOnly plantMappers ∧
      (∀ m, ¬ Relation.TransGen (plantWorld.Dispatches plants {}) m m) ∧
      plantWorld.depthBound tree ≤ 18 ∧
      plantWorld.runWithin 18 "gen.com.NodeMapper" .toJson tree (some {}) =
        plantWorld.run "gen.com.NodeMapper" .toJson tree (some {}) := by
  have hms : plants.deriveAll {} = .ok plantMappers := rfl
  have hholds := World.holdsOnly_loadAll (w := {}) rfl plantMappers
  have hacyclic := hholds.acyclic hms plants_acyclic
  have hbound : plantWorld.depthBound tree ≤ 18 := by decide +kernel
  exact ⟨hms, hholds, hacyclic, hbound,
    (runs_end_within_bound hms hholds hacyclic "gen.com.NodeMapper" .toJson tree {}).2 18 hbound⟩

end Sample

end JsonMapping
