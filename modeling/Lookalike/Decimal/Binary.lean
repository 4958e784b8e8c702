-- Double precision numbers as exact values: a finite one is a whole number
-- times a power of two, and every fraction has one nearest double.

namespace Lookalike.Decimal

-- Powers are those of the core library, whatever else is imported.
attribute [local instance (high)] instPowNat

/-! ## From a double to its value -/

/-- What a double stands for. A finite one is `± mantissa * 2 ^ exponent`. -/
inductive Value where
  | nan
  | infinite (negative : Bool)
  | finite (negative : Bool) (mantissa : Nat) (exponent : Int)

/-- The value of a double: its bits are a sign, eleven of an exponent and 52 of a fraction. -/
def Value.ofFloat (x : Float) : Value :=
  let bits : Nat := x.toBits.toNat
  let negative := decide (2 ^ (63 : Nat) ≤ bits)
  let field : Nat := bits / 2 ^ (52 : Nat) % 2 ^ (11 : Nat)
  let low : Nat := bits % 2 ^ (52 : Nat)
  if field = 2047 then if low = 0 then .infinite negative else .nan
  else if field = 0 then .finite negative low (-1074)
  else .finite negative (2 ^ (52 : Nat) + low) ((field : Int) - 1075)

/-! ## From a value to the nearest double -/

/-- `num / den` to the nearest whole number, a half to the even neighbour. -/
def roundHalfEven (num den : Nat) : Nat :=
  let q := num / den
  let r := num % den
  if 2 * r < den then q
  else if den < 2 * r then q + 1
  else if q % 2 = 0 then q else q + 1

/-- `num / (den * 2 ^ e)` as a fraction. -/
def scaleDown (num den : Nat) (e : Int) : Nat × Nat :=
  if 0 ≤ e then (num, den * 2 ^ e.toNat) else (num * 2 ^ (-e).toNat, den)

/-- The power of two that leaves 53 bits of `num / den`, but never one below the smallest double. -/
def binaryPlace (num den : Nat) : Int :=
  let guess := (num.log2 : Int) - den.log2 - 52
  let (n, d) := scaleDown num den guess
  max (if n / d < 2 ^ (52 : Nat) then guess - 1 else guess) (-1074)

/-- The bits of the double nearest to `num / den`, infinity when it is out of range. -/
def nearestBits (num den : Nat) : Nat :=
  if num = 0 then 0
  else
    let e := binaryPlace num den
    let (n, d) := scaleDown num den e
    min ((e + 1074).toNat * 2 ^ (52 : Nat) + roundHalfEven n d) (2047 * 2 ^ (52 : Nat))

/-- The double nearest to `± num / den`. -/
def nearest (negative : Bool) (num den : Nat) : Float :=
  Float.ofBits (UInt64.ofNat (nearestBits num den + if negative then 2 ^ (63 : Nat) else 0))

/-- The nearest whole number to a double that is not negative, a half to the even neighbour;
zero for everything else. -/
def roundToNat (x : Float) : Nat :=
  match Value.ofFloat x with
  | .finite false m e =>
    if 0 ≤ e then m * 2 ^ e.toNat else roundHalfEven m (2 ^ (-e).toNat)
  | _ => 0

/-! ## A total order -/

/-- A number that orders all doubles, by sign and then by magnitude: `-0.0` below `0.0`,
the infinities outside the finite ones, and the not-a-numbers outside everything. -/
def orderKey (x : Float) : Int :=
  let bits : Nat := x.toBits.toNat
  if bits < 2 ^ (63 : Nat) then bits else 2 ^ (63 : Nat) - 1 - bits

end Lookalike.Decimal
