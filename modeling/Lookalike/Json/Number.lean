-- What the numbers of a JSON text stand for: whole numbers within a limit,
-- and doubles, read by one multiplication or division of the leading digits by
-- a power of ten. Doubles are written with the fewest digits.
import Lookalike.Json.Value
import Lookalike.Decimal.Binary
import Lookalike.Decimal.Shortest

namespace Lookalike.Json

open Decimal

-- Powers are those of the core library, whatever else is imported.
attribute [local instance (high)] instPowNat

/-! ## Whole numbers -/

/-- A number written with digits alone, at most `limit`. -/
def wholeNumber? (limit : Nat) (n : Numeral) : Option Nat :=
  if n.negative || !n.fraction.isEmpty || n.exponent.isSome then none
  else if ofDigits n.whole ≤ limit then some (ofDigits n.whole) else none

/-! ## Doubles -/

/-- Take digits while the number stays below `2 ^ 64`; the number, and the digits left over. -/
def takeWord (n : Nat) : List Char → Nat × List Char
  | [] => (n, [])
  | c :: cs =>
    let next := n * 10 + (c.toNat - 48)
    if next < 2 ^ (64 : Nat) then takeWord next cs else (n, c :: cs)

/-- The leading digits of a numeral as one machine word, and the power of ten they are at. -/
def leadingWord (n : Numeral) : Nat × Int :=
  let (w, left) := takeWord 0 n.whole
  let (v, unused) := takeWord w n.fraction
  (v, n.power + left.length - ((n.fraction.length : Int) - unused.length))

/-- The double nearest to a power of ten. -/
def tenTo (k : Nat) : Float := nearest false (10 ^ k) 1

/-- `x * 10 ^ p` with one operation for every 308 powers; none when it is out of range. -/
def scale? : Nat → Float → Int → Option Float
  | 0, x, _ => some x
  | fuel + 1, x, p =>
    if p.natAbs ≤ 308 then
      if 0 ≤ p then
        let y := x * tenTo p.natAbs
        if y.isInf then none else some y
      else some (x / tenTo p.natAbs)
    else if x == 0 then some x
    else if 0 ≤ p then none
    else scale? fuel (x / tenTo 308) (p + 308)

/-- The double that a number of a JSON text stands for. -/
def double? (n : Numeral) : Option Float :=
  let (v, p) := leadingWord n
  (scale? 5 (nearest false v 1) p).map fun x => if n.negative then -x else x

/-- A double as a value; what is not finite is null. -/
def ofFloat (x : Float) : Json :=
  match Layout.saved.numeral? x with
  | some n => .num n
  | none => .null

end Lookalike.Json
