-- Numbers in running text, as flags, variables and settings give them: whole
-- numbers within a machine word, and doubles read to the nearest.
import Lookalike.Decimal.Numeral
import Lookalike.Decimal.Binary

namespace Lookalike.Decimal

-- Powers are those of the core library, whatever else is imported.
attribute [local instance (high)] instPowNat

/-! ## The value of a numeral -/

/-- The double nearest to a numeral. Powers far outside the range of doubles are settled by the
number of digits. -/
def Numeral.toFloat (n : Numeral) : Float :=
  let all := n.whole ++ n.fraction
  let m := ofDigits all
  let p := n.power - n.fraction.length
  let size := (digits m).length
  if m = 0 then nearest n.negative 0 1
  else if 400 < p + size then nearest n.negative (2 ^ (1100 : Nat)) 1
  else if p + size < -400 then nearest n.negative 0 1
  else nearest n.negative (m * 10 ^ p.toNat) (10 ^ (-p).toNat)

/-! ## Doubles in text -/

/-- The power of ten at the end of a text, if nothing else is there. -/
def readExponent? : List Char → Option (Option Exponent)
  | [] => some none
  | c :: rest =>
    if c == 'e' || c == 'E' then
      let (negative, ds) :=
        match rest with
        | '-' :: r => (true, r)
        | '+' :: r => (false, r)
        | r => (false, r)
      if ds.isEmpty || !ds.all isDigit then none else some (some ⟨negative, ds⟩)
    else none

/-- A numeral without sign: digits before or after a point, then perhaps a power of ten. -/
def readUnsigned? (negative : Bool) (cs : List Char) : Option Numeral := do
  let (whole, rest) := spanDigits cs
  let (fraction, rest) :=
    match rest with
    | '.' :: r => spanDigits r
    | r => ([], r)
  if whole.isEmpty && fraction.isEmpty then none
  else return ⟨negative, whole, fraction, ← readExponent? rest⟩

/-- A sign in front of a text. -/
def splitSign : List Char → Bool × List Char
  | '-' :: r => (true, r)
  | '+' :: r => (false, r)
  | r => (false, r)

/-- A double: a numeral, or a word for infinity or not-a-number in any case of letters. -/
def readFloat? (s : String) : Option Float :=
  let (negative, cs) := splitSign s.toList
  let word := cs.map Char.toLower
  if word = ['i', 'n', 'f'] ∨ word = ['i', 'n', 'f', 'i', 'n', 'i', 't', 'y'] then
    some (nearest negative (2 ^ (1100 : Nat)) 1)
  else if word = ['n', 'a', 'n'] then some (0.0 / 0.0)
  else (readUnsigned? negative cs).map Numeral.toFloat

/-! ## Whole numbers in text -/

/-- Digits with an optional plus sign, at most `limit`. -/
def readNat? (limit : Nat) (s : String) : Option Nat :=
  let cs :=
    match s.toList with
    | '+' :: r => r
    | r => r
  if cs.isEmpty || !cs.all isDigit then none
  else if ofDigits cs ≤ limit then some (ofDigits cs) else none

/-- Digits with an optional sign, within 64 bits with a sign. -/
def readInt? (s : String) : Option Int :=
  let (negative, cs) := splitSign s.toList
  if cs.isEmpty || !cs.all isDigit then none
  else
    let n : Int := if negative then -(ofDigits cs : Int) else ofDigits cs
    if -(2 ^ (63 : Nat)) ≤ n && n < 2 ^ (63 : Nat) then some n else none

end Lookalike.Decimal
