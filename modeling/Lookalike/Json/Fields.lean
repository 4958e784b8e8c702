-- Structures in JSON: an object with named members, or an array with one item
-- for each field in order. A member that is not asked for is left alone.
import Lookalike.Json.Number

namespace Lookalike.Json

-- Powers are those of the core library, whatever else is imported.
attribute [local instance (high)] instPowNat

/-! ## Fields by name and by place -/

/-- The values of the members with a name. -/
def named (name : String) (members : List (Option String × Json)) : List Json :=
  (members.filter fun m => m.1 == some name).map (·.2)

/-- The one value of a name: none if it is missing, a failure if it is repeated. -/
def single? (name : String) (members : List (Option String × Json)) : Option (Option Json) :=
  match named name members with
  | [] => some none
  | [j] => some (some j)
  | _ => none

/-- The values of the fields, in the order of their names; a missing one is `none`. -/
def fields? (names : List String) : Json → Option (List (Option Json))
  | .obj members =>
    if members.all fun m => m.1.isSome then names.mapM fun name => single? name members else none
  | .arr items =>
    if names.length < items.length then none
    else some (items.map some ++ List.replicate (names.length - items.length) none)
  | _ => none

/-! ## Values of a type -/

/-- A text. -/
def string? : Json → Option String
  | .str text => text
  | _ => none

/-- A string; null and a missing field stand for none. -/
def optionalString? : Option Json → Option (Option String)
  | none => some none
  | some .null => some none
  | some j => j.string?.map some

/-- A truth value. -/
def bool? : Json → Option Bool
  | .bool b => some b
  | _ => none

/-- A whole number of 64 bits. -/
def size? : Json → Option Nat
  | .num n => wholeNumber? (2 ^ (64 : Nat) - 1) n
  | _ => none

/-- A whole number of 32 bits. -/
def word? : Json → Option Nat
  | .num n => wholeNumber? (2 ^ (32 : Nat) - 1) n
  | _ => none

/-- A double; a whole number is one too. -/
def float? : Json → Option Float
  | .num n => double? n
  | _ => none

/-- A word out of a list: a string, or an object with that one member and null. -/
def choice? : Json → Option String
  | .str text => text
  | .obj [(some name, .null)] => some name
  | _ => none

end Lookalike.Json
