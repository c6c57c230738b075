import JsonMapping.Proofs.Derive.Methods
import JsonMapping.Proofs.Java.Layout

/-! The types that a file names. All types that are collected to give names to are among them,
except those of a choice without arms, which is not written. The choices in derived methods mention
no types without arms. The main statement is `Mapper.types_ofMapper_subset`. -/

namespace JsonMapping

namespace Java

/-- The types whose names are left open. -/
def typesIn (parts : List Part) : List JavaType := parts.filterMap Part.type?

def typesNamed (ss : List Sketch) : List JavaType := ss.flatMap fun s => typesIn s.parts

@[simp] theorem typesIn_nil : typesIn [] = [] := rfl

@[simp] theorem typesIn_code (text : String) (rest : List Part) :
    typesIn (.code text :: rest) = typesIn rest := rfl

@[simp] theorem typesIn_literal (value : String) (rest : List Part) :
    typesIn (.literal value :: rest) = typesIn rest := rfl

@[simp] theorem typesIn_name (t : JavaType) (rest : List Part) :
    typesIn (.name t :: rest) = t :: typesIn rest := rfl

@[simp] theorem typesIn_append (xs ys : List Part) :
    typesIn (xs ++ ys) = typesIn xs ++ typesIn ys :=
  List.filterMap_append

@[simp] theorem typesIn_joinedParts (separator : String) (parts : List (List Part)) :
    typesIn (joinedParts separator parts) = parts.flatMap typesIn := by
  unfold joinedParts
  induction parts with
  | nil => rfl
  | cons first rest ih =>
    cases rest with
    | nil => simp
    | cons second more => simp [List.intercalate_cons_cons, ih]

@[simp] theorem typesNamed_nil : typesNamed [] = [] := rfl

@[simp] theorem typesNamed_cons (s : Sketch) (rest : List Sketch) :
    typesNamed (s :: rest) = typesIn s.parts ++ typesNamed rest := rfl

@[simp] theorem typesNamed_append (xs ys : List Sketch) :
    typesNamed (xs ++ ys) = typesNamed xs ++ typesNamed ys :=
  List.flatMap_append

@[simp] theorem typesNamed_nested (ss : List Sketch) :
    typesNamed (ss.map Sketch.nested) = typesNamed ss :=
  List.flatMap_map _ _ _

@[simp] theorem parts_ofParts (parts : List Part) : (Sketch.ofParts parts).parts = parts := rfl

@[simp] theorem typesNamed_block (header : List Part) (body : List Sketch) :
    typesNamed (Sketch.block header body) = typesIn header ++ typesNamed body := by
  simp [Sketch.block]

theorem typesNamed_spaced (groups : List (List Sketch)) :
    typesNamed (List.intercalate [.blank] groups) = groups.flatMap typesNamed := by
  induction groups with
  | nil => rfl
  | cons first rest ih =>
    cases rest with
    | nil => simp
    | cons second more =>
      rw [List.intercalate_cons_cons, typesNamed_append, typesNamed_append, ih, List.flatMap_cons]
      simp [Sketch.blank]

theorem className_infix_filled {parts : List Part} {t : JavaType} (h : t ∈ typesIn parts)
    (names : TypeNames) : (names.className t).toList <:+: filled names parts := by
  obtain ⟨part, hpart, htype⟩ := List.mem_filterMap.mp h
  cases part with
  | piece p => cases htype
  | name u =>
    obtain rfl := Option.some.inj htype
    have hchars : (Part.name u).chars names ∈ parts.map (Part.chars names) :=
      List.mem_map_of_mem hpart
    exact List.infix_of_mem_flatten hchars

/-- What a layout names is in one of the lines. -/
theorem Draws.exists_line {names : TypeNames} {ss : List Sketch} {ls : List Line}
    (h : Draws names ss ls) {t : JavaType} (ht : t ∈ typesNamed ss) :
    ∃ l ∈ ls, (names.className t).toList <:+: l.content.2 := by
  obtain ⟨s, hs, ht⟩ := List.mem_flatMap.mp ht
  have hline : s.filled names ∈ ls.map Line.content := h ▸ List.mem_map_of_mem hs
  obtain ⟨l, hl, hcontent⟩ := List.mem_map.mp hline
  exact ⟨l, hl, hcontent ▸ className_infix_filled ht names⟩

end Java

open Java (Library Part Sketch typesIn typesNamed)

variable {lib : Library}

namespace JavaType

mutual
@[simp] theorem typesIn_layout (t : JavaType) : typesIn t.layout = t.withParts := by
  match t with
  | .mk p e n [] => simp [layout, withParts, partsOfAll]
  | .mk p e n (a :: rest) =>
    simp [layout, withParts, partsOfAll, typesIn_layout a, typesIn_argLayout rest]
theorem typesIn_argLayout (ts : List JavaType) : typesIn (argLayout ts) = partsOfAll ts := by
  match ts with
  | [] => rfl
  | a :: rest => simp [argLayout, partsOfAll, typesIn_layout a, typesIn_argLayout rest]
end

@[simp] theorem self_mem_withParts (t : JavaType) : t ∈ t.withParts := by
  cases t
  simp [withParts]

@[simp] theorem typesOf_mentions (lib : Library) (t : JavaType) :
    t.mentions.flatMap lib.typesOf = t.withParts := by
  simp [mentions, List.flatMap_map, Library.typesOf]

end JavaType

theorem ValueType.types_subset (lib : Library) (t : ValueType) :
    t.mentions.flatMap lib.typesOf ⊆ typesIn (t.layout lib) := by
  cases t <;> simp [mentions, layout, Library.typesOf]

theorem append_subset_append {α : Type} {as bs cs ds : List α} (h : as ⊆ cs) (h' : bs ⊆ ds) :
    as ++ bs ⊆ cs ++ ds :=
  List.append_subset.mpr ⟨List.subset_append_of_subset_left _ h,
    List.subset_append_of_subset_right _ h'⟩

namespace Expr

mutual
theorem types_subset (lib : Library) (e : Expr) :
    e.mentions.flatMap lib.typesOf ⊆ typesIn (e.layout lib) := by
  cases e with
  | isNull e | apply c e =>
    simpa [mentions, layout, Library.typesOf] using types_subset lib e
  | cast t e =>
    simpa [mentions, layout, Library.typesOf] using
      append_subset_append (t.types_subset lib) (types_subset lib e)
  | callMapper t k args =>
    simpa [mentions, layout, Library.typesOf] using
      append_subset_append (List.Subset.refl t.withParts) (typesAll_subset lib args)
  | _ => simp [mentions, layout, Library.typesOf]
theorem typesAll_subset (lib : Library) (es : List Expr) :
    (mentionsAll es).flatMap lib.typesOf ⊆ (layoutAll lib es).flatMap typesIn := by
  match es with
  | [] => simp [mentionsAll]
  | e :: rest =>
    simpa [mentionsAll, layoutAll] using
      append_subset_append (types_subset lib e) (typesAll_subset lib rest)
end

end Expr

namespace Stmt

mutual
/-- Choices without arms mention no types: they are not written. -/
def Shown (lib : Library) : Stmt → Prop
  | .when _ body => AllShown lib body
  | .select e arms => (arms = [] → e.mentions.flatMap lib.typesOf = []) ∧ ArmsShown lib arms
  | .declare _ _ _ | .assign _ _ | .put _ _ _ | .putAll _ _ | .setAttribute _ _ _ | .ret _ => True
def AllShown (lib : Library) : List Stmt → Prop
  | [] => True
  | s :: rest => Shown lib s ∧ AllShown lib rest
def ArmsShown (lib : Library) : List (String × List Stmt) → Prop
  | [] => True
  | (_, body) :: rest => AllShown lib body ∧ ArmsShown lib rest
end

theorem allShown_iff {stmts : List Stmt} : AllShown lib stmts ↔ ∀ s ∈ stmts, s.Shown lib := by
  induction stmts with
  | nil => simp [AllShown]
  | cons s rest ih => simp [AllShown, ih]

theorem armsShown_iff {arms : List (String × List Stmt)} :
    ArmsShown lib arms ↔ ∀ arm ∈ arms, AllShown lib arm.2 := by
  induction arms with
  | nil => simp [ArmsShown]
  | cons arm rest ih => simp [ArmsShown, ih]

mutual
theorem types_subset {s : Stmt} (h : s.Shown lib) :
    s.mentions.flatMap lib.typesOf ⊆ typesNamed (s.layout lib) := by
  cases s with
  | declare v t e =>
    simpa [mentions, layout, Library.typesOf] using
      append_subset_append (t.types_subset lib) (e.types_subset lib)
  | assign v e | put v key e | putAll v e | setAttribute v a e | ret e =>
    simpa [mentions, layout, Library.typesOf] using e.types_subset lib
  | when e body =>
    simpa [mentions, layout, Library.typesOf] using
      append_subset_append (e.types_subset lib) (typesAll_subset h)
  | select e arms =>
    match arms, h with
    | [], ⟨hnone, _⟩ =>
      have hnone := hnone rfl
      simp [mentions, armMentions, hnone, Library.typesOf]
    | (value, body) :: rest, ⟨_, hbody, hrest⟩ =>
      have hscrutinee : e.mentions.flatMap lib.typesOf ⊆
          typesIn (conditionLayout (e.layout lib) value) := by
        simpa [conditionLayout] using e.types_subset lib
      have harms := append_subset_append (typesAll_subset hbody)
        (typesArms_subset (e.layout lib) hrest)
      simpa [mentions, armMentions, layout, Library.typesOf] using
        append_subset_append hscrutinee harms
theorem typesAll_subset {stmts : List Stmt} (h : AllShown lib stmts) :
    (mentionsAll stmts).flatMap lib.typesOf ⊆ typesNamed (layoutAll lib stmts) := by
  match stmts, h with
  | [], _ => simp [mentionsAll]
  | s :: rest, ⟨hs, hrest⟩ =>
    simpa [mentionsAll, layoutAll] using
      append_subset_append (types_subset hs) (typesAll_subset hrest)
theorem typesArms_subset (scrutinee : List Part) {arms : List (String × List Stmt)}
    (h : ArmsShown lib arms) :
    (armMentions arms).flatMap lib.typesOf ⊆
      typesNamed (Sketch.chain (layoutArms lib scrutinee arms)) := by
  match arms, h with
  | [], _ => simp [armMentions]
  | (value, body) :: rest, ⟨hbody, hrest⟩ =>
    have harms := append_subset_append (typesAll_subset hbody) (typesArms_subset scrutinee hrest)
    simpa [armMentions, layoutArms, Sketch.chain] using
      List.subset_append_of_subset_right (typesIn (conditionLayout scrutinee value)) harms
end

end Stmt

theorem Constant.types_subset (lib : Library) (model : JavaType) (c : Constant) :
    c.mentions.flatMap lib.typesOf ⊆ typesIn (c.layout lib model).parts := by
  unfold mentions layout
  cases hr : c.role <;> simp [Library.typesOf, hr]

theorem Method.params_types_subset (lib : Library) (ps : List Param) :
    (ps.flatMap fun p => p.type.mentions).flatMap lib.typesOf ⊆
      (ps.map (paramLayout lib)).flatMap typesIn := by
  induction ps with
  | nil => simp
  | cons p rest ih =>
    simpa [paramLayout] using append_subset_append (p.type.types_subset lib) ih

theorem Method.types_subset {m : Method} (h : Stmt.AllShown lib m.body) :
    m.mentions.flatMap lib.typesOf ⊆ typesNamed (m.layout lib) := by
  have hheader := append_subset_append (params_types_subset lib m.params)
    (m.returns.types_subset lib)
  have hall := append_subset_append hheader (Stmt.typesAll_subset h)
  -- the result type is written before the parameters
  intro t ht
  have ht := @hall t (by simpa [mentions, Library.typesOf, or_assoc] using ht)
  simp only [layout, Java.typesNamed_block, Java.typesIn_code, Java.typesIn_append,
    Java.typesIn_joinedParts, Java.typesIn_nil, List.mem_append, List.append_nil] at ht ⊢
  tauto

namespace Mapper

/-- What the members of a mapper bring into the file is named in them. -/
theorem types_subset {m : Mapper} (h : ∀ method ∈ m.methods, Stmt.AllShown lib method.body) :
    m.mentions.flatMap lib.typesOf ⊆ (m.membersLayout lib).flatMap typesNamed := by
  intro t ht
  obtain ⟨x, hx, ht⟩ := List.mem_flatMap.mp ht
  rcases List.mem_cons.mp hx with rfl | hx
  · cases ht
  rcases List.mem_append.mp hx with hx | hx
  · obtain ⟨c, hc, hx⟩ := List.mem_flatMap.mp hx
    have hnamed := c.types_subset lib m.model (List.mem_flatMap.mpr ⟨x, hx, ht⟩)
    have hsome : m.constants.isEmpty = false :=
      List.isEmpty_eq_false_iff.mpr (List.ne_nil_of_mem hc)
    refine List.mem_flatMap.mpr ⟨m.constants.map (Constant.layout lib m.model), ?_, ?_⟩
    · simp [membersLayout, hsome]
    · exact List.mem_flatMap.mpr ⟨_, List.mem_map_of_mem hc, hnamed⟩
  · obtain ⟨method, hmethod, hx⟩ := List.mem_flatMap.mp hx
    have hnamed := Method.types_subset (h method hmethod) (List.mem_flatMap.mpr ⟨x, hx, ht⟩)
    exact List.mem_flatMap.mpr
      ⟨_, List.mem_append_right _ (List.mem_map_of_mem hmethod), hnamed⟩

/-- All types that take names in a file are named behind the imports. -/
theorem types_ofMapper_subset (documented : Bool) {m : Mapper}
    (h : ∀ method ∈ m.methods, Stmt.AllShown lib method.body) :
    (Java.TypeNames.ofMapper lib documented m).types ⊆ typesNamed (m.layout lib documented) := by
  have hlayout : typesNamed (m.layout lib documented) =
      (if documented then m.model.withParts ++ m.representer.type.withParts else []) ++
        (m.type.withParts ++ (m.membersLayout lib).flatMap typesNamed) := by
    cases documented <;> simp [layout, docLayout, Java.typesNamed_spaced]
  have hdocumented : (if documented then [m.model, m.representer.type] else []) ⊆
      if documented then m.model.withParts ++ m.representer.type.withParts else [] := by
    cases documented <;> simp
  rw [hlayout, Java.TypeNames.ofMapper, List.cons_subset]
  refine ⟨by simp, ?_⟩
  exact append_subset_append hdocumented
    (List.subset_append_of_subset_right _ (types_subset h))

end Mapper

/-! ## Derived mappers -/

namespace Derive

open Stmt

theorem shown_makeModel (p : Plan) : AllShown lib (makeModel p) := by
  unfold makeModel constructVariant
  cases p.dispatch with
  | none => exact ⟨trivial, trivial⟩
  | some x =>
    have harms : ArmsShown lib (x.variants.map (readVariant x)) := by
      rw [armsShown_iff, List.forall_mem_map]
      exact fun v _ => ⟨trivial, trivial⟩
    exact ⟨trivial, ⟨fun _ => rfl, harms⟩, ⟨trivial, trivial⟩, trivial⟩

theorem shown_readModel (table : List Constant) (p : Plan) :
    AllShown lib (readModel table p) := by
  unfold readModel
  cases p.descriptor.customDeserializer with
  | some t => exact ⟨trivial, trivial⟩
  | none =>
    have hmake : ∀ s ∈ makeModel p, s.Shown lib := allShown_iff.mp (shown_makeModel p)
    have hfind : ∀ s ∈ findEmbedded p, s.Shown lib := by
      unfold findEmbedded
      split <;> simp [Shown]
    simp only [allShown_iff, List.forall_mem_append, List.forall_mem_map]
    exact ⟨⟨⟨hmake, hfind⟩, fun a _ => ⟨trivial, trivial⟩⟩, by simp [Shown]⟩

theorem shown_toJsonBody (table : List Constant) (p : Plan) :
    AllShown lib (toJsonBody table p) := by
  have hlinks : ∀ s ∈ putLinks table p, s.Shown lib := by
    unfold putLinks
    cases p.links <;> simp [Shown]
  have hembedded : ∀ s ∈ putEmbedded table p, s.Shown lib := by
    unfold putEmbedded
    split <;> simp [Shown, putValue, or_imp, forall_and]
  have hvariants : ∀ s ∈ putVariants p, s.Shown lib := by
    unfold putVariants
    cases p.dispatch with
    | none => simp
    | some x =>
      rw [List.forall_mem_map]
      intro v _
      unfold putVariant
      cases x.nestedAttribute <;> exact ⟨trivial, trivial, trivial⟩
  simp only [toJsonBody, List.cons_append, allShown_iff, List.forall_mem_cons,
    List.forall_mem_append, List.forall_mem_map]
  exact ⟨trivial, ⟨⟨⟨hlinks, fun a _ => trivial⟩, hembedded⟩, hvariants⟩, by simp [Shown]⟩

theorem shown_of_mem_methods {p : Plan} {method : Method} (h : method ∈ methods p) :
    AllShown lib method.body := by
  obtain ⟨k, -, rfl⟩ := Plan.mem_methods_iff.mp h
  cases k with
  | toJson => exact shown_toJsonBody _ p
  | toJsonCollection => exact ⟨trivial, trivial⟩
  | fromJson => exact ⟨⟨trivial, trivial⟩, shown_readModel _ p⟩
  | fromJsonCollection => exact ⟨⟨trivial, trivial⟩, trivial, trivial⟩

end Derive

end JsonMapping
