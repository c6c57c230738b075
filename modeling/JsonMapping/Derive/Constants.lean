import JsonMapping.Mapper.Basic
import JsonMapping.Naming.Words
import JsonMapping.Registry

/-! The constants of a mapper: one for each helper type that its methods use, in order of first
use. A name that is taken gets a number. -/

namespace JsonMapping.Derive

/-! ## Fresh names -/

/-- The candidates for a name: `base`, `base_2`, `base_3` and so on. -/
def candidate (base : String) (n : Nat) : String := if n ≤ 1 then base else s!"{base}_{n}"

/-- The first candidate from the `n`-th on that is not taken, of at most `tries`. -/
def seekName (taken : List String) (base : String) : Nat → Nat → String
  | 0, n => candidate base n
  | tries + 1, n =>
    if candidate base n ∈ taken then seekName taken base tries (n + 1) else candidate base n

/-- As many candidates as there are names can be taken, so the search ends at a free one. -/
def freshName (taken : List String) (base : String) : String :=
  seekName taken base taken.length 1

/-! ## The table -/

/-- A use of a helper type, in one role. -/
abbrev HelperUse := JavaType × ConstantRole

def baseName : HelperUse → String
  | (_, .linksProvider) => "LINKS_PROVIDER"
  | (t, _) => String.ofList (Words.screamingCase (Words.split t.simpleName.toList))

/-- A constant for a helper type that has none yet. The first use fixes its role. -/
def declareHelper (table : List Constant) (use : HelperUse) : List Constant :=
  if table.any (·.type = use.1) then table
  else
    let name := freshName (table.map (·.name)) (baseName use)
    table ++ [{ name, role := use.2, type := use.1 }]

def constantsFor (uses : List HelperUse) : List Constant := uses.foldl declareHelper []

/-- The name of the constant for a type in the table. -/
def constantName (table : List Constant) (t : JavaType) : String :=
  ((table.find? (·.type = t)).map (·.name)).getD ""

/-! ## Emissions -/

/-- A step in writing the methods of a mapper: it may fail, and it may add to the table. -/
abbrev Emission := StateT (List Constant) (Except MappingError)

/-- The name of the constant for a helper type, which is declared on its first use. -/
def helper (use : HelperUse) : Emission String := do
  modify (declareHelper · use)
  return constantName (← get) use.1

end JsonMapping.Derive
