-- The values of settings as they come from files and variables, and how one
-- source is laid over another: key by key, a later source last.
import Lookalike.Decimal.Reading
import Lookalike.Decimal.Shortest
import Lookalike.Ordered

namespace Lookalike

-- Powers are those of the core library, whatever else is imported.
attribute [local instance (high)] instPowNat

/-- A value of a settings source. -/
inductive Setting where
  | nothing
  | bool (value : Bool)
  | int (value : Int)
  | float (value : Float)
  | text (value : String)
  | list (items : List Setting)
  | table (members : List (String × Setting))

namespace Setting

/-! ## Laying one value over another -/

/-- Change the value of a key; what is no table becomes one. -/
def alterKey (k : String) (f : Setting → Setting) : Setting → Setting
  | table ms => table (Ordered.alter k (fun old => f (old.getD nothing)) ms)
  | _ => table [(k, f nothing)]

/-- The items of a list; anything else has none. -/
def items : Setting → List Setting
  | list xs => xs
  | _ => []

/-- Change the item at a place, counted from the end when it is negative; what is no list becomes
one, and a list grows up to the place. -/
def alterPlace (i : Int) (f : Setting → Setting) (s : Setting) : Setting :=
  let xs := s.items
  let missing := (if 0 ≤ i then i + 1 - xs.length else -i - xs.length).toNat
  let gap := List.replicate missing nothing
  let xs := if 0 ≤ i then xs ++ gap else gap ++ xs
  let place := if 0 ≤ i then i.toNat else (xs.length + i).toNat
  list (xs.modify place f)

/-- A step of a path into a value. -/
inductive Step where
  | key (name : String)
  | place (index : Int)

/-- Change the value at a path. -/
def alterAt (f : Setting → Setting) : List Step → Setting → Setting
  | [] => f
  | .key k :: rest => alterKey k (alterAt f rest)
  | .place i :: rest => alterPlace i (alterAt f rest)

/-- Nothing gives way to an empty table. -/
def opened : Setting → Setting
  | nothing => table []
  | s => s

mutual

/-- Lay the first value over the second: tables member by member, anything else as it is. -/
def overlay : Setting → Setting → Setting
  | table ms, old => membersOver ms old.opened
  | new, _ => new

/-- Lay members over a value, one after the other. -/
def membersOver : List (String × Setting) → Setting → Setting
  | [], s => s
  | (k, v) :: rest, s => membersOver rest (alterKey k (overlay v) s)

end

/-! ## Paths in keys -/

def isNameChar (c : Char) : Bool := c.isAlphanum || c == '_' || c == '-'

/-- The steps behind the first name: a dot and a name, or an index in brackets. -/
def readSteps? : Nat → List Char → Option (List Step)
  | _, [] => some []
  | 0, _ => none
  | fuel + 1, '.' :: cs =>
    match cs.takeWhile isNameChar with
    | [] => none
    | name => (readSteps? fuel (cs.dropWhile isNameChar)).map (.key (String.ofList name) :: ·)
  | fuel + 1, '[' :: cs =>
    let isBlank := fun c => c == ' ' || c == '\t'
    let index := (cs.dropWhile isBlank).takeWhile fun c => c == '-' || Decimal.isDigit c
    match ((cs.dropWhile isBlank).drop index.length).dropWhile isBlank with
    | ']' :: rest => do
      let i ← Decimal.readInt? (String.ofList index)
      return .place i :: (← readSteps? fuel rest)
    | _ => none
  | _ + 1, _ => none

/-- The path that a key stands for: names between dots. Any other key is a name as a whole. -/
def pathOf (key : String) : List Step :=
  let cs := key.toList
  match cs.takeWhile isNameChar with
  | [] => [.key key]
  | name =>
    match readSteps? cs.length (cs.dropWhile isNameChar) with
    | some steps => .key (String.ofList name) :: steps
    | none => [.key key]

/-- Lay the members of a source over what earlier sources gave. -/
def addSource (s : Setting) (source : List (String × Setting)) : Setting :=
  source.foldl (fun s m => alterAt (overlay m.2) (pathOf m.1) s) s

/-! ## What a value stands for -/

/-- The words for yes and no, in any case of letters. -/
def truth? (s : String) : Option Bool :=
  let word := String.ofList (s.toList.map Char.toLower)
  if ["true", "on", "yes"].contains word then some true
  else if ["false", "off", "no"].contains word then some false
  else none

/-- A whole number. A double is rounded, a half away from zero, and kept in range. -/
def count? : Setting → Option Nat
  | int i => if i < 0 then none else some i.toNat
  | bool b => some b.toNat
  | float x => some x.round.toUInt64.toNat
  | text s =>
    match truth? s with
    | some b => some b.toNat
    | none => Decimal.readNat? (2 ^ (64 : Nat) - 1) s
  | _ => none

/-- A double. -/
def float? : Setting → Option Float
  | int i => some (Decimal.nearest (i < 0) i.natAbs 1)
  | bool b => some (if b then 1 else 0)
  | float x => some x
  | text s =>
    match truth? s with
    | some b => some (if b then 1 else 0)
    | none => Decimal.readFloat? s
  | _ => none

/-- A text; numbers and truth values show theirs. -/
def text? : Setting → Option String
  | int i => some (toString i)
  | bool b => some (if b then "true" else "false")
  | float x => some (Decimal.display x)
  | text s => some s
  | _ => none

def texts? : Setting → Option (List String)
  | list xs => xs.mapM text?
  | _ => none

/-- A table of lists of texts, in its order. -/
def groups? : Setting → Option (List (String × List String))
  | table ms => ms.mapM fun m => do return (m.1, ← texts? m.2)
  | _ => none

/-- A whole number, or nothing. -/
def optionalCount? : Setting → Option (Option Nat)
  | nothing => some none
  | s => s.count?.map some

/-- A word out of a list: a text, or a table with that one key. -/
def choice? : Setting → Option String
  | text s => some s
  | table [(k, _)] => some k
  | _ => none

/-- The values of named fields: those of a table, or the items of a list in order. -/
def fields? (names : List String) : Setting → Option (List (Option Setting))
  | table ms => some (names.map fun n => Ordered.get? n ms)
  | list xs => some ((List.range names.length).map fun i => xs[i]?)
  | _ => none

end Setting
end Lookalike
