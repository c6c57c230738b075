import JsonMapping.Naming.JavaType
import JsonMapping.Text.Blank

/-! Reading type names, `java.util.Map<java.lang.String, com.foo.Outer.Inner>`. Blanks are free
around a type and around its head. The leading segments of a head that start with a lower case
letter are the package, the others the class; the last segment always belongs to the class. -/

namespace JsonMapping.JavaType

/-- The pieces between the commas that stand in no brackets. Nothing is read where brackets do not
match. -/
def splitArgs (depth : Nat) : List Char → Option (List (List Char))
  | [] => if depth = 0 then some [[]] else none
  | c :: rest =>
    if c = ',' ∧ depth = 0 then (splitArgs 0 rest).map ([] :: ·)
    else if c = '>' ∧ depth = 0 then none
    else
      let inside := if c = '<' then depth + 1 else if c = '>' then depth - 1 else depth
      (splitArgs inside rest).map fun parts => match parts with
        | [] => [[c]]
        | part :: more => (c :: part) :: more

/-- No piece is longer than the text. -/
theorem length_le_of_mem_splitArgs {depth : Nat} {cs part : List Char} {parts : List (List Char)}
    (h : splitArgs depth cs = some parts) (hp : part ∈ parts) : part.length ≤ cs.length := by
  induction cs generalizing depth parts part with
  | nil =>
    simp only [splitArgs] at h
    split at h <;> simp_all
    subst h; simp_all
  | cons c rest ih =>
    simp only [splitArgs] at h
    split at h
    · obtain ⟨ps, hs, rfl⟩ := Option.map_eq_some_iff.mp h
      rcases List.mem_cons.mp hp with rfl | hm
      · simp
      · have := ih hs hm; simp; omega
    · split at h
      · simp at h
      · obtain ⟨ps, hs, rfl⟩ := Option.map_eq_some_iff.mp h
        cases ps with
        | nil => simp_all
        | cons q qs =>
          rcases List.mem_cons.mp hp with rfl | hm
          · have := ih hs (List.mem_cons_self (a := q) (l := qs)); simpa using this
          · have := ih hs (List.mem_cons_of_mem q hm); simp; omega

def startsLower (name : Identifier) : Bool := name.text.toList.head?.any Char.isLower

/-- A head's segments as package, enclosing classes and class. -/
def place? (names : List Identifier) (args : List JavaType) : Option JavaType :=
  names.getLast?.map fun simple =>
    let outer := names.dropLast
    .mk (outer.takeWhile startsLower) (outer.dropWhile startsLower) simple args

def names? (dottedNames : List Char) : Option (List Identifier) :=
  (Text.pieces '.' dottedNames).mapM Identifier.ofChars?

/-- The text up to the first bracket, and the text behind that bracket if there is one. -/
def cutBracket (cs : List Char) : List Char × Option (List Char) :=
  match cs.dropWhile (· != '<') with
  | [] => (cs, none)
  | _ :: rest => (cs.takeWhile (· != '<'), some rest)

theorem length_lt_of_cutBracket {cs head rest : List Char}
    (h : cutBracket cs = (head, some rest)) : rest.length < cs.length := by
  unfold cutBracket at h
  split at h
  · simp at h
  · next c tail hd =>
    have := (List.dropWhile_sublist (l := cs) (· != '<')).length_le
    rw [hd] at this
    simp only [Prod.mk.injEq, Option.some.injEq] at h
    simp only [List.length_cons] at this
    rw [← h.2]; omega

/-- What stands before a closing bracket at the end of the text. -/
def beforeClosing? (cs : List Char) : Option (List Char) :=
  if cs.getLast? = some '>' then some cs.dropLast else none

theorem length_le_of_beforeClosing? {cs inner : List Char} (h : beforeClosing? cs = some inner) :
    inner.length ≤ cs.length := by
  unfold beforeClosing? at h
  split at h <;> simp at h
  rw [← h]; simp

/-- Head and argument texts of a type, the latter empty where there are no brackets. -/
def layout? (cs : List Char) : Option (List Char × List (List Char)) :=
  match cutBracket (Text.trim cs) with
  | (head, none) => some (head, [])
  | (head, some rest) => do
    let parts ← splitArgs 0 (← beforeClosing? rest)
    some (Text.trim head, parts)

theorem length_lt_of_mem_layout? {cs head part : List Char} {parts : List (List Char)}
    (h : layout? cs = some (head, parts)) (hp : part ∈ parts) : part.length < cs.length := by
  unfold layout? at h
  split at h
  · simp only [Option.some.injEq, Prod.mk.injEq] at h
    rw [← h.2] at hp
    simp at hp
  · next rest hc =>
    obtain ⟨inner, hb, h⟩ := Option.bind_eq_some_iff.mp h
    obtain ⟨ps, hs, h⟩ := Option.bind_eq_some_iff.mp h
    simp only [Option.some.injEq, Prod.mk.injEq] at h
    have := length_le_of_mem_splitArgs hs (h.2 ▸ hp)
    have := length_le_of_beforeClosing? hb
    have := length_lt_of_cutBracket hc
    have := Text.length_trim_le cs
    omega

def ofChars? (cs : List Char) : Option JavaType :=
  match _h : layout? cs with
  | none => none
  | some (head, parts) => do
    let args ← parts.attach.mapM fun ⟨part, _⟩ => ofChars? part
    place? (← names? head) args
termination_by cs.length
decreasing_by exact length_lt_of_mem_layout? _h (by assumption)

/-- A fault at any depth is one of the whole text, blank ends left out. -/
def parse (text : String) : Except NamingError JavaType :=
  match ofChars? text.toList with
  | some t => .ok t
  | none => .error (.badType (String.ofList (Text.trim text.toList)))

/-- A type from a dotted package, which may be empty, and a dotted class name. Both are taken as
they are split, whatever case their segments have. -/
def ofNames (package className : String) : Except NamingError JavaType :=
  let found := do
    let p ← if package.isEmpty then some [] else names? package.toList
    let c ← names? className.toList
    c.getLast?.map fun simple => JavaType.mk p c.dropLast simple []
  match found with
  | some t => .ok t
  | none =>
    .error (.badType (if package.isEmpty then className else s!"{package}.{className}"))

end JavaType

/-- An id from the qualified name of a representer. -/
def RepresenterId.parse (text : String) : Except NamingError RepresenterId :=
  return ⟨← JavaType.parse text⟩

end JsonMapping
