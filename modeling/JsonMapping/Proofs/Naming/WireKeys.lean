import JsonMapping.Descriptor.Basic
import JsonMapping.Proofs.Naming.Dotted
import Mathlib.Data.List.Chain
import Mathlib.Data.List.Nodup

/-! Wire keys, and the names that they tell apart. A wire key is an identifier without capitals, so
it is its own wire key. In the key of a name in camel case an underscore before a lower case letter
stands for a capital, and no other underscore does: `camelCase` reads the name back from its key.
The main statement is `wireKeys_canonical`. -/

namespace JsonMapping

namespace Identifier

/-! ## Characters of a key -/

theorem toLower_of_not_isUpper {c : Char} (h : c.isUpper = false) : c.toLower = c :=
  dif_neg (of_decide_eq_false h)

/-- The letter leads back to its capital. The capitals are few, so each of them is looked at. -/
theorem toLower_of_isUpper {c : Char} (h : c.isUpper = true) :
    c.toLower.isLower = true ∧ c.toLower.isUpper = false ∧ c.toLower.toUpper = c := by
  have hcapitals : ∀ n < 91, (Char.ofNat n).isUpper = true →
      (Char.ofNat n).toLower.isLower = true ∧ (Char.ofNat n).toLower.isUpper = false ∧
        (Char.ofNat n).toLower.toUpper = Char.ofNat n := by decide
  have hlt : c.toNat < 91 := Nat.lt_succ_of_le (of_decide_eq_true h).2
  have hcapital := hcapitals c.toNat hlt
  rw [Char.ofNat_toNat] at hcapital
  exact hcapital h

theorem isAlpha_toLower {c : Char} (h : c.isUpper = true) : c.toLower.isAlpha = true :=
  Bool.or_eq_true_iff.mpr (.inr (toLower_of_isUpper h).1)

theorem isUpper_toLower (c : Char) : c.toLower.isUpper = false := by
  cases h : c.isUpper with
  | true => exact (toLower_of_isUpper h).2.1
  | false => rwa [toLower_of_not_isUpper h]

theorem isStart_toLower {c : Char} (h : isStart c = true) : isStart c.toLower = true := by
  cases hupper : c.isUpper with
  | true => simp [isStart, isAlpha_toLower hupper]
  | false => rwa [toLower_of_not_isUpper hupper]

theorem isPart_toLower {c : Char} (h : isPart c = true) : isPart c.toLower = true := by
  cases hupper : c.isUpper with
  | true => simp [isPart, Char.isAlphanum, isAlpha_toLower hupper]
  | false => rwa [toLower_of_not_isUpper hupper]

theorem forall_mem_lowerTail {p : Char → Prop} {cs : List Char} (hunderscore : p '_')
    (h : ∀ c ∈ cs, p c.toLower) : ∀ c ∈ lowerTail cs, p c := by
  intro d hd
  obtain ⟨c, hc, hd⟩ := List.mem_flatMap.mp hd
  split at hd
  · rcases List.mem_cons.mp hd with rfl | hd
    · exact hunderscore
    · exact List.mem_singleton.mp hd ▸ h c hc
  · exact List.mem_singleton.mp hd ▸ h c hc

theorem isValid_snakeCase {cs : List Char} (h : isValid cs = true) :
    isValid (snakeCase cs) = true := by
  cases cs with
  | nil => exact h
  | cons c rest =>
    obtain ⟨hc, hrest⟩ := Bool.and_eq_true_iff.mp h
    have hparts : ∀ d ∈ lowerTail rest, isPart d = true :=
      forall_mem_lowerTail rfl fun d hd => isPart_toLower (List.all_eq_true.mp hrest d hd)
    exact Bool.and_eq_true_iff.mpr ⟨isStart_toLower hc, List.all_eq_true.mpr hparts⟩

theorem isUpper_of_mem_snakeCase {cs : List Char} : ∀ c ∈ snakeCase cs, c.isUpper = false := by
  cases cs with
  | nil => exact List.forall_mem_nil _
  | cons c rest =>
    exact List.forall_mem_cons.mpr
      ⟨isUpper_toLower c, forall_mem_lowerTail (by decide) fun d _ => isUpper_toLower d⟩

theorem lowerTail_of_isUpper {c : Char} (h : c.isUpper = true) (rest : List Char) :
    lowerTail (c :: rest) = '_' :: c.toLower :: lowerTail rest := by
  simp [lowerTail, h]

theorem lowerTail_of_not_isUpper {c : Char} (h : c.isUpper = false) (rest : List Char) :
    lowerTail (c :: rest) = c :: lowerTail rest := by
  simp [lowerTail, h, toLower_of_not_isUpper h]

/-- Where the first character is no capital, all characters are treated alike. -/
theorem snakeCase_eq_lowerTail {cs : List Char} (h : ∀ c ∈ cs.head?, c.isUpper = false) :
    snakeCase cs = lowerTail cs := by
  cases cs with
  | nil => rfl
  | cons c rest =>
    have hc : c.isUpper = false := h c rfl
    rw [snakeCase, lowerTail_of_not_isUpper hc, toLower_of_not_isUpper hc]

theorem lowerTail_eq_self {cs : List Char} (h : ∀ c ∈ cs, c.isUpper = false) :
    lowerTail cs = cs := by
  induction cs with
  | nil => rfl
  | cons c rest ih =>
    obtain ⟨hc, hrest⟩ := List.forall_mem_cons.mp h
    rw [lowerTail_of_not_isUpper hc, ih hrest]

theorem snakeCase_snakeCase (cs : List Char) : snakeCase (snakeCase cs) = snakeCase cs := by
  have hupper : ∀ c ∈ snakeCase cs, c.isUpper = false := isUpper_of_mem_snakeCase
  rw [snakeCase_eq_lowerTail fun c hc => hupper c (List.mem_of_mem_head? hc),
    lowerTail_eq_self hupper]

/-- The wire key is an identifier again. -/
def key (name : Identifier) : Identifier :=
  ⟨name.wireKey, by simpa [wireKey] using isValid_snakeCase name.valid⟩

/-! ## Names in camel case -/

/-- No capital at the start, and no underscore before a lower case letter, where in a key one may
stand for a capital. -/
structure IsCamel (cs : List Char) : Prop where
  first_lower : ∀ c ∈ cs.head?, c.isUpper = false
  no_separator : cs.IsChain fun c d => c = '_' → d.isLower = false

instance (cs : List Char) : Decidable (IsCamel cs) :=
  decidable_of_iff (cs.head?.all (fun c => !c.isUpper) = true ∧
      cs.IsChain fun c d => c = '_' → d.isLower = false)
    ⟨fun ⟨h, h'⟩ => ⟨by simpa [Option.all_eq_true] using h, h'⟩,
      fun ⟨h, h'⟩ => ⟨by simpa [Option.all_eq_true] using h, h'⟩⟩

/-- Capitals in place of the underscores before lower case letters. -/
def camelCase : List Char → List Char
  | [] => []
  | [c] => [c]
  | c :: d :: rest =>
    if c = '_' ∧ d.isLower then d.toUpper :: camelCase rest else c :: camelCase (d :: rest)

theorem camelCase_capital {c : Char} (h : c.isUpper = true) (rest : List Char) :
    camelCase ('_' :: c.toLower :: rest) = c :: camelCase rest := by
  obtain ⟨hlower, -, hback⟩ := toLower_of_isUpper h
  rw [camelCase, if_pos ⟨rfl, hlower⟩, hback]

theorem camelCase_kept {c : Char} {rest : List Char}
    (h : c = '_' → ∀ d ∈ rest.head?, d.isLower = false) :
    camelCase (c :: rest) = c :: camelCase rest := by
  cases rest with
  | nil => rfl
  | cons d rest =>
    have hkept : ¬ (c = '_' ∧ d.isLower = true) := fun ⟨hc, hd⟩ =>
      Bool.false_ne_true ((h hc d rfl).symm.trans hd)
    rw [camelCase, if_neg hkept]

/-- A capital leaves an underscore at the front. So what stands there is lower case only if it was
before. -/
theorem isLower_head?_lowerTail {cs : List Char} (h : ∀ c ∈ cs.head?, c.isLower = false) :
    ∀ c ∈ (lowerTail cs).head?, c.isLower = false := by
  cases cs with
  | nil => exact h
  | cons c rest =>
    cases hupper : c.isUpper with
    | true =>
      rw [lowerTail_of_isUpper hupper]
      rintro _ ⟨⟩
      decide
    | false =>
      rw [lowerTail_of_not_isUpper hupper]
      exact h

theorem camelCase_lowerTail {cs : List Char}
    (h : cs.IsChain fun c d => c = '_' → d.isLower = false) :
    camelCase (lowerTail cs) = cs := by
  induction cs with
  | nil => rfl
  | cons c rest ih =>
    have hrest : camelCase (lowerTail rest) = rest := ih h.tail
    cases hupper : c.isUpper with
    | true => rw [lowerTail_of_isUpper hupper, camelCase_capital hupper, hrest]
    | false =>
      have hkept : c = '_' → ∀ d ∈ (lowerTail rest).head?, d.isLower = false := fun hc =>
        isLower_head?_lowerTail fun d hd => h.rel_head? hd hc
      rw [lowerTail_of_not_isUpper hupper, camelCase_kept hkept, hrest]

theorem IsCamel.camelCase_snakeCase {cs : List Char} (h : IsCamel cs) :
    camelCase (snakeCase cs) = cs := by
  rw [snakeCase_eq_lowerTail h.first_lower, camelCase_lowerTail h.no_separator]

theorem IsCamel.wireKey_injective {x y : Identifier} (hx : IsCamel x.text.toList)
    (hy : IsCamel y.text.toList) (h : x.wireKey = y.wireKey) : x = y := by
  have hsnake : snakeCase x.text.toList = snakeCase y.text.toList := String.ofList_injective h
  have htext : x.text.toList = y.text.toList := by
    rw [← hx.camelCase_snakeCase, hsnake, hy.camelCase_snakeCase]
  obtain ⟨x, hxvalid⟩ := x
  obtain ⟨y, hyvalid⟩ := y
  obtain rfl : x = y := String.toList_injective htext
  rfl

/-- The wire key of a name is an identifier without capitals, and its own wire key. Names in camel
case with the same wire key are the same; so attributes with such names share no key in the
container unless they share the name. -/
theorem wireKeys_canonical :
    (∀ x : Identifier, ∃ key : Identifier, key.text = x.wireKey ∧
      (∀ c ∈ key.text.toList, c.isUpper = false) ∧ key.wireKey = key.text) ∧
    (∀ x y : Identifier, IsCamel x.text.toList → IsCamel y.text.toList →
      x.wireKey = y.wireKey → x = y) ∧
    ∀ d : DescriptorEntry, (∀ m ∈ d.attributes, IsCamel m.wire.name.text.toList) →
      ((d.attributes.map (·.wireKey)).Nodup ↔ (d.attributes.map (·.wire.name)).Nodup) := by
  refine ⟨fun x => ⟨x.key, rfl, ?_, ?_⟩, fun _ _ => IsCamel.wireKey_injective, fun d h => ?_⟩
  · simpa [key, wireKey] using isUpper_of_mem_snakeCase
  · simp [key, wireKey, snakeCase_snakeCase]
  · have hkeys : d.attributes.map (·.wireKey) = (d.attributes.map (·.wire.name)).map wireKey := by
      simp [AttributeMapping.wireKey, Attribute.wireKey]
    have hcamel : ∀ x ∈ d.attributes.map (·.wire.name), IsCamel x.text.toList :=
      List.forall_mem_map.mpr h
    rw [hkeys]
    exact ⟨List.Nodup.of_map wireKey, fun hnames => hnames.map_on fun x hx y hy =>
      (hcamel x hx).wireKey_injective (hcamel y hy)⟩

/-- A name with an underscore of its own, and one where a capital has put it. -/
example : wireKey ⟨"foo_bar", by decide⟩ = wireKey ⟨"fooBar", by decide⟩ := by decide +kernel

end Identifier

/-! ## Odd names as a sample

Capitals in a row and at the end, digits and `$`, and underscores at both ends, in a row, and before
capitals. -/

namespace Sample

def plainField (name : Identifier) : AttributeMapping :=
  ⟨⟨name, none⟩, ⟨name, none⟩, false, .plain none none⟩

def oddlyNamed : DescriptorEntry where
  descriptor := {
    representer := ⟨.mk [] [] ⟨"OddRepresenter", by decide⟩ []⟩
    model := .mk [] [] ⟨"Odd", by decide⟩ [] }
  attributes := [
    plainField ⟨"fooHTTP", by decide⟩, plainField ⟨"fooHttp", by decide⟩,
    plainField ⟨"foo_HTTP", by decide⟩, plainField ⟨"_X1", by decide⟩,
    plainField ⟨"__X1", by decide⟩, plainField ⟨"$a__B_", by decide⟩,
    plainField ⟨"$a_B_", by decide⟩, plainField ⟨"$aB_", by decide⟩]
  external := false

theorem wireKeys_canonical_oddlyNamed :
    oddlyNamed.attributes.map (·.wireKey) = ["foo_h_t_t_p", "foo_http", "foo__h_t_t_p", "__x1",
      "___x1", "$a___b_", "$a__b_", "$a_b_"] ∧
      (∀ m ∈ oddlyNamed.attributes, Identifier.IsCamel m.wire.name.text.toList) ∧
      (oddlyNamed.attributes.map (·.wire.name)).Nodup ∧
      (oddlyNamed.attributes.map (·.wireKey)).Nodup := by
  have hcamel : ∀ m ∈ oddlyNamed.attributes, Identifier.IsCamel m.wire.name.text.toList := by
    decide +kernel
  have hnames : (oddlyNamed.attributes.map (·.wire.name)).Nodup := by decide +kernel
  obtain ⟨-, -, hkeys⟩ := Identifier.wireKeys_canonical
  exact ⟨by decide +kernel, hcamel, hnames, (hkeys oddlyNamed hcamel).mpr hnames⟩

end Sample

end JsonMapping
