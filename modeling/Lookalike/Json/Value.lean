-- JSON values. A number keeps its written form, so that its reader decides
-- what it stands for; an object keeps its members in order, repeated ones too.
import Lookalike.Decimal.Numeral

namespace Lookalike

/-- A JSON value. A string whose escapes name half a pair of code units is well formed but has no
text. -/
inductive Json where
  | null
  | bool (value : Bool)
  | num (value : Decimal.Numeral)
  | str (text : Option String)
  | arr (items : List Json)
  | obj (members : List (Option String × Json))

namespace Json

def ofString (s : String) : Json := .str (some s)

def ofNat (n : Nat) : Json := .num (.ofNat n)

/-- A string, or null. -/
def ofOption : Option String → Json
  | none => .null
  | some s => ofString s

/-- An object with named members. -/
def ofFields (fields : List (String × Json)) : Json :=
  .obj (fields.map fun f => (some f.1, f.2))

end Json
end Lookalike
