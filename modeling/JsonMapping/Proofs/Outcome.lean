import JsonMapping.Run.Eval
import Mathlib.Data.List.Forall2

/-! Laws of results. A run either gives a value or stops, and what follows a stop does not count.
Two runs settle if they end in the same way, and not for want of depth; runs that are put together
from runs that settle do so, too. -/

namespace JsonMapping

section Results

variable {ε α β γ : Type}

@[simp] theorem pure_eq_ok (a : α) : (pure a : Except ε α) = .ok a := rfl

@[simp] theorem ok_bind (a : α) (k : α → Except ε β) : (Except.ok a >>= k) = k a := rfl

@[simp] theorem error_bind (e : ε) (k : α → Except ε β) :
    (Except.error e >>= k) = .error e := rfl

theorem map_bind (x : Except ε α) (k : α → Except ε β) (f : β → γ) :
    (x >>= k).map f = x >>= fun a => (k a).map f := by
  cases x <;> rfl

theorem bind_map (x : Except ε α) (f : α → β) (k : β → Except ε γ) :
    (x.map f >>= k) = x >>= fun a => k (f a) := by
  cases x <;> rfl

theorem map_eq_bind (x : Except ε α) (f : α → β) : x.map f = x >>= fun a => .ok (f a) := by
  cases x <;> rfl

/-- What follows a result matters only for the value that there is. -/
theorem bind_congr_ok {x : Except ε α} {k l : α → Except ε β} (h : ∀ a, x = .ok a → k a = l a) :
    x >>= k = x >>= l := by
  cases x with
  | ok a => exact h a rfl
  | error e => rfl

theorem bind_eq_ok {x : Except ε α} {k : α → Except ε β} {b : β} :
    x >>= k = .ok b ↔ ∃ a, x = .ok a ∧ k a = .ok b := by
  cases x <;> simp

/-! ## Loops -/

theorem mapM_congr_mem {f g : α → Except ε β} {as : List α} (h : ∀ a ∈ as, f a = g a) :
    as.mapM f = as.mapM g := by
  induction as with
  | nil => rfl
  | cons a rest ih =>
    rw [List.mapM_cons, List.mapM_cons, h a (by simp), ih fun b hb => h b (by simp [hb])]

theorem foldlM_congr_mem {f g : β → α → Except ε β} {as : List α} {b : β}
    (h : ∀ b, ∀ a ∈ as, f b a = g b a) : as.foldlM f b = as.foldlM g b := by
  induction as generalizing b with
  | nil => rfl
  | cons a rest ih =>
    rw [List.foldlM_cons, List.foldlM_cons, h b a (by simp)]
    exact bind_congr_ok fun b' _ => ih fun b'' a' ha => h b'' a' (by simp [ha])

/-- A loop that gives results has given one for every element. -/
theorem eq_map_of_mapM_eq_ok {f : α → Except ε β} {g : α → β} {P : α → Prop} {as : List α}
    {bs : List β} (h : as.mapM f = .ok bs) (hf : ∀ a b, f a = .ok b → b = g a ∧ P a) :
    bs = as.map g ∧ ∀ a ∈ as, P a := by
  induction as generalizing bs with
  | nil =>
    cases h
    simp
  | cons a rest ih =>
    rw [List.mapM_cons] at h
    obtain ⟨b, hb, h⟩ := bind_eq_ok.mp h
    obtain ⟨cs, hcs, h⟩ := bind_eq_ok.mp h
    obtain ⟨rfl, hP⟩ := hf a b hb
    obtain ⟨rfl, hrest⟩ := ih hcs
    cases h
    exact ⟨rfl, by simpa using ⟨hP, hrest⟩⟩

/-- What is read off the results of a loop can be read off the elements. -/
theorem map_eq_of_mapM_eq_ok {f : α → Except ε β} {g : β → γ} {h : α → γ} {as : List α}
    {bs : List β} (hbs : as.mapM f = .ok bs) (hf : ∀ a b, f a = .ok b → g b = h a) :
    bs.map g = as.map h := by
  induction as generalizing bs with
  | nil =>
    cases hbs
    rfl
  | cons a rest ih =>
    rw [List.mapM_cons] at hbs
    obtain ⟨b, hb, hbs⟩ := bind_eq_ok.mp hbs
    obtain ⟨cs, hcs, hbs⟩ := bind_eq_ok.mp hbs
    cases hbs
    rw [List.map_cons, List.map_cons, hf a b hb, ih hcs]

theorem exists_mem_of_mapM_eq_ok {f : α → Except ε β} {as : List α} {bs : List β} {a : α}
    (hbs : as.mapM f = .ok bs) (ha : a ∈ as) : ∃ b ∈ bs, f a = .ok b := by
  induction as generalizing bs with
  | nil => cases ha
  | cons c rest ih =>
    rw [List.mapM_cons] at hbs
    obtain ⟨b, hb, hbs⟩ := bind_eq_ok.mp hbs
    obtain ⟨cs, hcs, hbs⟩ := bind_eq_ok.mp hbs
    cases hbs
    rcases List.mem_cons.mp ha with rfl | hr
    · exact ⟨b, List.mem_cons_self, hb⟩
    · obtain ⟨b', hb', heq⟩ := ih hcs hr
      exact ⟨b', List.mem_cons_of_mem _ hb', heq⟩

theorem exists_of_mem_of_mapM_eq_ok {f : α → Except ε β} {as : List α} {bs : List β} {b : β}
    (hbs : as.mapM f = .ok bs) (hb : b ∈ bs) : ∃ a ∈ as, f a = .ok b := by
  induction as generalizing bs with
  | nil =>
    cases hbs
    cases hb
  | cons a rest ih =>
    rw [List.mapM_cons] at hbs
    obtain ⟨c, hc, hbs⟩ := bind_eq_ok.mp hbs
    obtain ⟨cs, hcs, hbs⟩ := bind_eq_ok.mp hbs
    cases hbs
    rcases List.mem_cons.mp hb with rfl | hrest
    · exact ⟨a, List.mem_cons_self, hc⟩
    · obtain ⟨a', ha', heq⟩ := ih hcs hrest
      exact ⟨a', List.mem_cons_of_mem _ ha', heq⟩

/-- A loop gives the results of its steps in order. -/
theorem mapM_eq_ok_iff {f : α → Except ε β} {as : List α} {bs : List β} :
    as.mapM f = .ok bs ↔ List.Forall₂ (fun a b => f a = .ok b) as bs := by
  induction as generalizing bs with
  | nil => simp [eq_comm]
  | cons a rest ih =>
    rw [List.mapM_cons, List.forall₂_cons_left_iff]
    constructor
    · intro h
      obtain ⟨b, hb, h⟩ := bind_eq_ok.mp h
      obtain ⟨cs, hcs, h⟩ := bind_eq_ok.mp h
      exact ⟨b, cs, hb, ih.mp hcs, (Except.ok.inj h).symm⟩
    · rintro ⟨b, cs, hb, hcs, rfl⟩
      rw [hb, ok_bind, ih.mpr hcs]
      rfl

/-- The first step that fails is the first of all, or it comes after one that does not fail. -/
theorem exists_first_error_cons {f : α → Except ε β} {a : α} {rest : List α} {e : ε} :
    (∃ before b after, a :: rest = before ++ b :: after ∧ (∀ c ∈ before, ∃ d, f c = .ok d) ∧
      f b = .error e) ↔
    f a = .error e ∨ (∃ d, f a = .ok d) ∧ ∃ before b after, rest = before ++ b :: after ∧
      (∀ c ∈ before, ∃ d, f c = .ok d) ∧ f b = .error e := by
  constructor
  · rintro ⟨_ | ⟨a', before⟩, b, after, heq, hbefore, hb⟩
    · obtain ⟨rfl, rfl⟩ := List.cons.inj heq
      exact .inl hb
    · obtain ⟨rfl, rfl⟩ := List.cons.inj heq
      obtain ⟨hfirst, hbefore⟩ := List.forall_mem_cons.mp hbefore
      exact .inr ⟨hfirst, before, b, after, rfl, hbefore, hb⟩
  · rintro (ha | ⟨hfirst, before, b, after, rfl, hbefore, hb⟩)
    · exact ⟨[], a, rest, rfl, List.forall_mem_nil _, ha⟩
    · exact ⟨a :: before, b, after, rfl, List.forall_mem_cons.mpr ⟨hfirst, hbefore⟩, hb⟩

/-- A loop ends with the error of the first step that has one. -/
theorem mapM_eq_error_iff {f : α → Except ε β} {as : List α} {e : ε} :
    as.mapM f = .error e ↔ ∃ before a after, as = before ++ a :: after ∧
      (∀ b ∈ before, ∃ c, f b = .ok c) ∧ f a = .error e := by
  induction as with
  | nil => simp
  | cons a rest ih =>
    rw [List.mapM_cons, exists_first_error_cons, ← ih]
    cases f a with
    | error e' => simp
    | ok b => cases rest.mapM f <;> simp

end Results

/-! ## Faults in runs -/

@[simp] theorem lift_ok {α : Type} (a : α) :
    (liftM (Except.ok a : Except RunError α) : Outcome α) = .ok a := rfl

@[simp] theorem lift_error {α : Type} (e : RunError) :
    (liftM (Except.error e : Except RunError α) : Outcome α) = .error (.fault e) := rfl

theorem lift_eq_ok {α : Type} {x : Except RunError α} {a : α} :
    (liftM x : Outcome α) = .ok a ↔ x = .ok a := by
  cases x <;> simp

theorem lift_bind_congr {α β : Type} {x : Except RunError α} {k l : α → Outcome β}
    (h : ∀ a, x = .ok a → k a = l a) :
    ((liftM x : Outcome α) >>= k) = (liftM x : Outcome α) >>= l :=
  bind_congr_ok fun a ha => h a (lift_eq_ok.mp ha)

theorem lift_bind {α β : Type} (x : Except RunError α) (k : α → Except RunError β) :
    (liftM (x >>= k) : Outcome β) = (liftM x : Outcome α) >>= fun a => liftM (k a) := by
  cases x <;> rfl

/-! ## Runs that end in certain ways -/

/-- The run gives a result with the property, or it stops in one of the ways. -/
def Ends {α : Type} (stops : Halt → Prop) (P : α → Prop) : Outcome α → Prop
  | .ok a => P a
  | .error halt => stops halt

namespace Ends

variable {α β : Type} {stops : Halt → Prop} {P : α → Prop} {Q : β → Prop}

theorem bind {x : Outcome α} {k : α → Outcome β} (hx : Ends stops P x)
    (hk : ∀ a, x = .ok a → P a → Ends stops Q (k a)) : Ends stops Q (x >>= k) := by
  cases x with
  | ok a => exact hk a rfl hx
  | error halt => exact hx

theorem mono {x : Outcome α} {stops' : Halt → Prop} {P' : α → Prop} (h : Ends stops P x)
    (hstops : ∀ halt, stops halt → stops' halt) (hP : ∀ a, P a → P' a) : Ends stops' P' x := by
  cases x with
  | ok a => exact hP a h
  | error halt => exact hstops halt h

theorem of_imp {x : Outcome α} {P' : α → Prop} (h : Ends stops P x) (hP : ∀ a, P a → P' a) :
    Ends stops P' x :=
  h.mono (fun _ => id) hP

theorem mapM {f : α → Outcome β} {as : List α} (h : ∀ a ∈ as, Ends stops (fun _ => True) (f a)) :
    Ends stops (fun _ => True) (as.mapM f) := by
  induction as with
  | nil => trivial
  | cons a rest ih =>
    rw [List.mapM_cons]
    refine (h a List.mem_cons_self).bind fun b _ _ => ?_
    exact (ih fun c hc => h c (List.mem_cons_of_mem _ hc)).bind fun _ _ _ => trivial

/-- A loop keeps what each of its steps keeps. -/
theorem foldlM {f : β → α → Outcome β} {as : List α} {b : β} (hb : Q b)
    (h : ∀ b, ∀ a ∈ as, Q b → Ends stops Q (f b a)) : Ends stops Q (as.foldlM f b) := by
  induction as generalizing b with
  | nil => exact hb
  | cons a rest ih =>
    rw [List.foldlM_cons]
    refine (h b a List.mem_cons_self hb).bind fun b' _ hb' => ?_
    exact ih hb' fun b'' c hc => h b'' c (List.mem_cons_of_mem _ hc)

end Ends

/-! ## Runs that settle -/

/-- Both runs end in the same way, and not because calls nest too deep. -/
structure Settles {α : Type} (x y : Outcome α) : Prop where
  eq : x = y
  ends : x ≠ .error .tooDeep

namespace Settles

variable {α β : Type}

theorem ok (a : α) : Settles (.ok a) (.ok a) := ⟨rfl, by simp⟩

theorem lift (x : Except RunError α) : Settles (liftM x) (liftM x) :=
  ⟨rfl, by cases x <;> simp⟩

theorem bind {x y : Outcome α} {k l : α → Outcome β} (hx : Settles x y)
    (hk : ∀ a, x = .ok a → Settles (k a) (l a)) : Settles (x >>= k) (y >>= l) := by
  obtain ⟨rfl, hends⟩ := hx
  cases x with
  | ok a => exact hk a rfl
  | error e => exact ⟨rfl, fun he => hends (congrArg Except.error (Except.error.inj he))⟩

theorem lift_bind {x : Except RunError α} {k l : α → Outcome β}
    (hk : ∀ a, x = .ok a → Settles (k a) (l a)) :
    Settles ((liftM x : Outcome α) >>= k) ((liftM x : Outcome α) >>= l) :=
  (lift x).bind fun a ha => hk a (lift_eq_ok.mp ha)

theorem mapM {f g : α → Outcome β} {as : List α} (h : ∀ a ∈ as, Settles (f a) (g a)) :
    Settles (as.mapM f) (as.mapM g) := by
  induction as with
  | nil => exact ok []
  | cons a rest ih =>
    rw [List.mapM_cons, List.mapM_cons]
    refine (h a (by simp)).bind ?_
    intro b _
    exact (ih fun a' ha => h a' (by simp [ha])).bind fun bs _ => ok (b :: bs)

theorem foldlM {f g : β → α → Outcome β} {as : List α} {b : β}
    (h : ∀ b, ∀ a ∈ as, Settles (f b a) (g b a)) :
    Settles (as.foldlM f b) (as.foldlM g b) := by
  induction as generalizing b with
  | nil => exact ok b
  | cons a rest ih =>
    rw [List.foldlM_cons, List.foldlM_cons]
    exact (h b a (by simp)).bind fun b' _ => ih fun b'' a' ha => h b'' a' (by simp [ha])

end Settles

end JsonMapping
