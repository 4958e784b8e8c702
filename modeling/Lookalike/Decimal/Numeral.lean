-- The written form of a decimal number: a sign, digits before and after the
-- point, and a power of ten. Printers lay a value out as a numeral, readers
-- take a numeral from a text and then ask for its value.

namespace Lookalike.Decimal

/-! ## The written form -/

/-- A power of ten behind a numeral. -/
structure Exponent where
  negative : Bool
  digits : List Char
  deriving DecidableEq

/-- A number as it is written. `fraction` is empty when there is no point. -/
structure Numeral where
  negative : Bool
  whole : List Char
  fraction : List Char
  exponent : Option Exponent
  deriving DecidableEq

def digits (n : Nat) : List Char := Nat.toDigits 10 n

def ofDigits (cs : List Char) : Nat := cs.foldl (fun n c => n * 10 + (c.toNat - 48)) 0

namespace Numeral

/-- A natural number, written without sign and point. -/
def ofNat (n : Nat) : Numeral := ⟨false, digits n, [], none⟩

/-- The power of ten, with its sign. -/
def power (n : Numeral) : Int :=
  match n.exponent with
  | none => 0
  | some e => if e.negative then -(ofDigits e.digits : Int) else ofDigits e.digits

/-- The text of a numeral. -/
def toChars (n : Numeral) : List Char :=
  (if n.negative then ['-'] else []) ++ n.whole ++
    (if n.fraction.isEmpty then [] else '.' :: n.fraction) ++
    (match n.exponent with
      | none => []
      | some e => 'e' :: (if e.negative then ['-'] else []) ++ e.digits)

end Numeral

/-! ## Digits of a text -/

def isDigit (c : Char) : Bool := '0' ≤ c && c ≤ '9'

/-- The digits a text begins with, and the rest. -/
def spanDigits (cs : List Char) : List Char × List Char :=
  (cs.takeWhile isDigit, cs.dropWhile isDigit)

end Lookalike.Decimal
