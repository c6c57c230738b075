import Mathlib.Data.List.Basic
import Mathlib.Order.WellFounded

/-! Wholes and their parts. A part stands at a place, which tells on each level how many parts stand
to its left. In the order of places a whole comes before its parts, and all of a part before what
stands to the right of it. A list of findings that is put together in this way is in the order of
places, and so is what is left of it without repetitions. -/

namespace JsonMapping

/-- The way from a whole to a part: on each level, the number of parts to the left. -/
abbrev Place := List Nat

/-- How wholes are made of parts, and these of their parts, down to what has none. -/
structure Nesting (α : Type) where
  /-- The parts of a whole, from left to right. -/
  parts : α → List α
  wellFounded : WellFounded fun part whole => part ∈ parts whole

namespace Nesting

variable {α β : Type} {N : Nesting α} {find : α → Option β} {a b c : α} {p q : Place}

theorem induction (N : Nesting α) {P : α → Prop} (h : ∀ a, (∀ b ∈ N.parts a, P b) → P a)
    (a : α) : P a :=
  N.wellFounded.induction a h

/-- What stands at a place of a whole. -/
inductive At (N : Nesting α) : α → Place → α → Prop
  | whole (a : α) : At N a [] a
  | part {a b c : α} {i : Nat} {p : Place} : (N.parts a)[i]? = some b → At N b p c →
    At N a (i :: p) c

theorem at_nil_iff : N.At a [] b ↔ b = a := by
  constructor
  · rintro ⟨⟩
    rfl
  · rintro rfl
    exact .whole b

theorem at_cons_iff {i : Nat} :
    N.At a (i :: p) c ↔ ∃ b, (N.parts a)[i]? = some b ∧ N.At b p c := by
  constructor
  · rintro ⟨⟩
    exact ⟨_, ‹_›, ‹_›⟩
  · rintro ⟨b, hb, hc⟩
    exact .part hb hc

theorem At.unique (hb : N.At a p b) (hc : N.At a p c) : b = c := by
  induction hb with
  | whole a => exact (at_nil_iff.mp hc).symm
  | part hpart _ ih =>
    obtain ⟨d, hd, hc⟩ := at_cons_iff.mp hc
    obtain rfl := Option.some.inj (hpart.symm.trans hd)
    exact ih hc

/-! ## The first finding -/

/-- Something is found in the whole, and nothing in front of it. -/
def First (N : Nesting α) (find : α → Option β) (a : α) (x : β) : Prop :=
  ∃ p c, N.At a p c ∧ find c = some x ∧ ∀ q d, N.At a q d → (find d).isSome → ¬ q < p

/-- There is one first finding. -/
theorem First.unique {x y : β} (hx : N.First find a x) (hy : N.First find a y) : x = y := by
  obtain ⟨p, c, hc, hfind, hfirst⟩ := hx
  obtain ⟨q, d, hd, hfind', hfirst'⟩ := hy
  have hle := hfirst q d hd (by simp [hfind'])
  have hge := hfirst' p c hc (by simp [hfind])
  obtain rfl : p = q := List.le_antisymm hle hge
  obtain rfl := hc.unique hd
  exact Option.some.inj (hfind.symm.trans hfind')

theorem first_of_whole {x : β} (h : find a = some x) : N.First find a x :=
  ⟨[], a, .whole a, h, fun q _ _ _ => List.not_lt_nil q⟩

/-- The first finding in a part is that in the whole if nothing is found in the whole itself and in
the parts to the left. -/
theorem First.of_part {x : β} {before after : List α} (hparts : N.parts a = before ++ b :: after)
    (hwhole : find a = none) (hbefore : ∀ c ∈ before, ∀ p d, N.At c p d → find d = none)
    (h : N.First find b x) : N.First find a x := by
  obtain ⟨p, c, hc, hfind, hfirst⟩ := h
  have hb : (N.parts a)[before.length]? = some b := by simp [hparts]
  refine ⟨before.length :: p, c, .part hb hc, hfind, ?_⟩
  rintro q d hd hsome hlt
  cases hd with
  | whole => simp [hwhole] at hsome
  | @part _ e _ i q he hd =>
    rcases List.cons_lt_cons_iff.mp hlt with hi | ⟨rfl, hq⟩
    · have hmem : e ∈ before := by
        rw [hparts, List.getElem?_append_left hi] at he
        exact List.mem_of_getElem? he
      simp [hbefore e hmem q d hd] at hsome
    · obtain rfl := Option.some.inj (hb.symm.trans he)
      exact hfirst q d hd hsome hq

/-! ## All findings -/

/-- The list holds what is found in a whole, in the order of places. -/
def Lists (N : Nesting α) (find : α → Option β) (a : α) (xs : List β) : Prop :=
  ∃ found : List (Place × β), found.map Prod.snd = xs ∧ found.Pairwise (·.1 < ·.1) ∧
    ∀ p x, (p, x) ∈ found ↔ ∃ c, N.At a p c ∧ find c = some x

/-- The list holds what is found in neighbouring parts, of which the first has the number `i`. -/
def ListsFrom (N : Nesting α) (find : α → Option β) (i : Nat) (as : List α) (xs : List β) : Prop :=
  ∃ found : List (Place × β), found.map Prod.snd = xs ∧ found.Pairwise (·.1 < ·.1) ∧
    ∀ p x, (p, x) ∈ found ↔ ∃ j q a c, p = (i + j) :: q ∧ as[j]? = some a ∧ N.At a q c ∧
      find c = some x

theorem listsFrom_nil (i : Nat) : N.ListsFrom find i [] [] :=
  ⟨[], rfl, .nil, by simp⟩

theorem ListsFrom.cons {i : Nat} {as : List α} {xs ys : List β} (ha : N.Lists find a xs)
    (has : N.ListsFrom find (i + 1) as ys) : N.ListsFrom find i (a :: as) (xs ++ ys) := by
  obtain ⟨found, rfl, hsorted, hmem⟩ := ha
  obtain ⟨more, rfl, hsorted', hmem'⟩ := has
  refine ⟨found.map (fun e => (i :: e.1, e.2)) ++ more, by simp, ?_, ?_⟩
  · rw [List.pairwise_append]
    refine ⟨hsorted.map _ fun e f hlt => List.cons_lt_cons_iff.mpr (.inr ⟨rfl, hlt⟩), hsorted', ?_⟩
    rintro _ he ⟨p, x⟩ hx
    obtain ⟨e, -, rfl⟩ := List.mem_map.mp he
    obtain ⟨j, q, -, -, rfl, -⟩ := (hmem' p x).mp hx
    exact List.cons_lt_cons_iff.mpr (.inl (by omega))
  · intro p x
    rw [List.mem_append, hmem' p x]
    constructor
    · rintro (h | ⟨j, q, b, c, rfl, hb, hc⟩)
      · obtain ⟨⟨q, y⟩, he, heq⟩ := List.mem_map.mp h
        obtain ⟨rfl, rfl⟩ := Prod.mk.inj heq
        obtain ⟨c, hc, hfind⟩ := (hmem q y).mp he
        exact ⟨0, q, a, c, rfl, rfl, hc, hfind⟩
      · exact ⟨j + 1, q, b, c, by rw [Nat.add_assoc, Nat.add_comm 1], hb, hc⟩
    · rintro ⟨_ | j, q, b, c, rfl, hb, hc, hfind⟩
      · obtain rfl : a = b := by simpa using hb
        exact .inl (List.mem_map.mpr ⟨(q, x), (hmem q x).mpr ⟨c, hc, hfind⟩, rfl⟩)
      · exact .inr ⟨j, q, b, c, by rw [Nat.add_assoc, Nat.add_comm 1], by simpa using hb, hc, hfind⟩

theorem listsFrom_flatMap {g : α → List β} {as : List α} (h : ∀ a ∈ as, N.Lists find a (g a))
    (i : Nat) : N.ListsFrom find i as (as.flatMap g) := by
  induction as generalizing i with
  | nil => exact listsFrom_nil i
  | cons a rest ih =>
    obtain ⟨ha, hrest⟩ := List.forall_mem_cons.mp h
    exact .cons ha (ih hrest (i + 1))

/-- What is found in a whole itself comes before what is found in its parts. -/
theorem Lists.of_parts {xs : List β} (h : N.ListsFrom find 0 (N.parts a) xs) :
    N.Lists find a ((find a).toList ++ xs) := by
  obtain ⟨found, rfl, hsorted, hmem⟩ := h
  have hparts : ∀ p x, (p, x) ∈ found ↔ ∃ i q c, p = i :: q ∧ N.At a (i :: q) c ∧
      find c = some x := by
    intro p x
    rw [hmem]
    constructor
    · rintro ⟨i, q, b, c, rfl, hb, hc, hfind⟩
      exact ⟨i, q, c, by rw [Nat.zero_add], .part hb hc, hfind⟩
    · rintro ⟨i, q, c, rfl, hc, hfind⟩
      obtain ⟨b, hb, hc⟩ := at_cons_iff.mp hc
      exact ⟨i, q, b, c, by rw [Nat.zero_add], hb, hc, hfind⟩
  refine ⟨(find a).toList.map (Prod.mk []) ++ found, ?_, ?_, ?_⟩
  · simp [Function.comp_def]
  · rw [List.pairwise_append]
    refine ⟨by cases find a <;> simp, hsorted, ?_⟩
    rintro e he ⟨p, x⟩ hx
    obtain ⟨_, -, rfl⟩ := List.mem_map.mp he
    obtain ⟨i, q, -, rfl, -⟩ := (hparts p x).mp hx
    exact List.nil_lt_cons i q
  · intro p x
    rw [List.mem_append, hparts]
    cases p with
    | nil => simp [at_nil_iff]
    | cons i q => simp

/-- A list that is put together from the wholes down holds all findings in order. -/
theorem lists_of_eq {g : α → List β} (h : ∀ a, g a = (find a).toList ++ (N.parts a).flatMap g)
    (a : α) : N.Lists find a (g a) := by
  induction a using N.induction with
  | h a ih =>
    rw [h]
    exact .of_parts (listsFrom_flatMap ih 0)

theorem Lists.mem_iff {xs : List β} {x : β} (h : N.Lists find a xs) :
    x ∈ xs ↔ ∃ p c, N.At a p c ∧ find c = some x := by
  obtain ⟨found, rfl, -, hmem⟩ := h
  simp only [List.mem_map, Prod.exists, hmem, exists_eq_right]

/-! ## Findings without repetitions -/

/-- One thing is found at a place before all places where another is found. -/
def Precedes (N : Nesting α) (find : α → Option β) (a : α) (x y : β) : Prop :=
  ∃ p c, N.At a p c ∧ find c = some x ∧ ∀ q d, N.At a q d → find d = some y → p < q

theorem Precedes.ne {x y : β} (h : N.Precedes find a x y) : x ≠ y := by
  rintro rfl
  obtain ⟨p, c, hc, hfind, hbefore⟩ := h
  exact List.lt_irrefl p (hbefore p c hc hfind)

/-- The place of a thing that stays comes before all places of those that follow it. -/
theorem pairwise_eraseDups [BEq β] [LawfulBEq β] (found : List (Place × β))
    (h : found.Pairwise (·.1 < ·.1)) :
    (found.map Prod.snd).eraseDups.Pairwise fun x y =>
      ∃ p, (p, x) ∈ found ∧ ∀ q, (q, y) ∈ found → p < q := by
  match found with
  | [] => exact .nil
  | (p, x) :: rest =>
    obtain ⟨hfirst, hrest⟩ := List.pairwise_cons.mp h
    have ih := pairwise_eraseDups (rest.filter (!·.2 == x)) (hrest.filter _)
    have hothers : (rest.map Prod.snd).filter (!· == x) =
        (rest.filter (!·.2 == x)).map Prod.snd := by
      rw [List.filter_map]
      rfl
    rw [List.map_cons, List.eraseDups_cons, hothers]
    have hne : ∀ y ∈ ((rest.filter (!·.2 == x)).map Prod.snd).eraseDups, y ≠ x := by
      intro y hy
      obtain ⟨e, he, rfl⟩ := List.mem_map.mp (List.mem_eraseDups.mp hy)
      simpa using (List.mem_filter.mp he).2
    refine .cons ?_ (ih.imp_of_mem ?_)
    · intro y hy
      refine ⟨p, List.mem_cons_self, fun q hq => ?_⟩
      rcases List.mem_cons.mp hq with heq | hq
      · exact absurd (Prod.mk.inj heq).2 (hne y hy)
      · exact hfirst _ hq
    · rintro y z - hz ⟨q, hq, hbefore⟩
      refine ⟨q, List.mem_cons_of_mem _ (List.mem_of_mem_filter hq), fun r hr => ?_⟩
      rcases List.mem_cons.mp hr with heq | hr
      · exact absurd (Prod.mk.inj heq).2 (hne z hz)
      · exact hbefore r (List.mem_filter.mpr ⟨hr, by simpa using hne z hz⟩)
termination_by found.length
decreasing_by
  simp only [List.length_cons]
  have := List.length_filter_le (!·.2 == x) rest
  omega

/-- What is kept of a list of findings is in the order of the first places. -/
theorem Lists.pairwise_filter_eraseDups [BEq β] [LawfulBEq β] {xs : List β}
    (h : N.Lists find a xs) (keep : β → Bool) :
    (xs.filter keep).eraseDups.Pairwise (N.Precedes find a) := by
  obtain ⟨found, rfl, hsorted, hmem⟩ := h
  have hkept : (found.map Prod.snd).filter keep = (found.filter (keep ·.2)).map Prod.snd := by
    rw [List.filter_map]
    rfl
  rw [hkept]
  refine (pairwise_eraseDups _ (hsorted.filter _)).imp_of_mem ?_
  rintro x y - hy ⟨p, hp, hbefore⟩
  obtain ⟨e, he, rfl⟩ := List.mem_map.mp (List.mem_eraseDups.mp hy)
  obtain ⟨c, hc, hfind⟩ := (hmem p x).mp (List.mem_of_mem_filter hp)
  refine ⟨p, c, hc, hfind, fun q d hd hfind' => hbefore q (List.mem_filter.mpr ⟨?_, ?_⟩)⟩
  · exact (hmem q e.2).mpr ⟨d, hd, hfind'⟩
  · exact (List.mem_filter.mp he).2

end Nesting

end JsonMapping
