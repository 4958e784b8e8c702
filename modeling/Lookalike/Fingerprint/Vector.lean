-- Full vectors: natural numbers of any size as words of 64 bits, least
-- significant first and without zero words at the high end; their distance,
-- and their text in base 16.
import Lookalike.Failure

namespace Lookalike

-- Powers and sums are those of the core library, whatever else is imported.
attribute [local instance (high)] instPowNat Zero.ofOfNat0

/-! ## Words -/

/-- A number as words of 64 bits. -/
structure FullVector where
  limbs : List UInt64
  deriving DecidableEq

namespace FullVector

/-- Words without the zeros at the high end. -/
def trim (limbs : List UInt64) : List UInt64 := (limbs.reverse.dropWhile (· == 0)).reverse

/-- The vector of any words. -/
def ofLimbs (limbs : List UInt64) : FullVector := ⟨trim limbs⟩

/-- The number that words stand for. -/
def denote : List UInt64 → Nat
  | [] => 0
  | l :: rest => l.toNat + 2 ^ (64 : Nat) * denote rest

/-- The number that a vector stands for. -/
def toNat (v : FullVector) : Nat := denote v.limbs

/-- The number, when it fits 128 bits. -/
def small? (v : FullVector) : Option Nat := if v.limbs.length ≤ 2 then some v.toNat else none

/-! ## Distance -/

/-- The number of set bits among the lowest `n` of a number. -/
def countOnes : Nat → Nat → Nat
  | 0, _ => 0
  | n + 1, v => v % 2 + countOnes n (v / 2)

/-- The number of set bits of a word. -/
def ones (w : UInt64) : Nat := countOnes 64 w.toNat

/-- The number of places in which words differ; missing words are zero. -/
def hammingLimbs : List UInt64 → List UInt64 → Nat
  | [], bs => (bs.map ones).sum
  | as, [] => (as.map ones).sum
  | a :: as, b :: bs => ones (a ^^^ b) + hammingLimbs as bs

/-- The number of bits in which two vectors differ. -/
def hamming (v w : FullVector) : Nat := hammingLimbs v.limbs w.limbs

/-- One less the share of differing bits; 0 when there are no bits. -/
def similarity (v w : FullVector) (bits : Nat) : Float :=
  if bits = 0 then 0
  else 1 - Decimal.nearest false (v.hamming w) 1 / Decimal.nearest false bits 1

/-! ## Text -/

/-- A word as sixteen digits. -/
def limbDigits (w : UInt64) : List Char :=
  let ds := Nat.toDigits 16 w.toNat
  List.replicate (16 - ds.length) '0' ++ ds

/-- The digits of a vector, without zeros in front. -/
def toDigits (v : FullVector) : List Char :=
  match v.limbs.reverse with
  | [] => ['0']
  | top :: rest => Nat.toDigits 16 top.toNat ++ rest.flatMap limbDigits

def text (v : FullVector) : String := String.ofList (['0', 'x'] ++ v.toDigits)

/-- The value of a digit in either case. -/
def digitValue? (c : Char) : Option Nat :=
  if '0' ≤ c ∧ c ≤ '9' then some (c.toNat - 48)
  else if 'a' ≤ c ∧ c ≤ 'f' then some (c.toNat - 87)
  else if 'A' ≤ c ∧ c ≤ 'F' then some (c.toNat - 55)
  else none

/-- Whether a character is a digit in base 16. -/
def isHexDigit (c : Char) : Bool := (digitValue? c).isSome

/-- A number with one more digit behind it, as long as it fits a word. -/
def pushDigit (n : Nat) (c : Char) : Except WordFault Nat :=
  match digitValue? c with
  | none => .error .notADigit
  | some d => if 16 * n + d < 2 ^ (64 : Nat) then .ok (16 * n + d) else .error .tooLarge

/-- The word of digits; a sign may stand in front of them, but not alone. -/
def readWord (cs : List Char) : Except WordFault UInt64 :=
  match cs with
  | [] => .error .empty
  | '+' :: d :: ds => ((d :: ds).foldlM pushDigit 0).map UInt64.ofNat
  | ds => (ds.foldlM pushDigit 0).map UInt64.ofNat

/-- Words of digits that come back to front, sixteen a word; `fuel` bounds the number of words. -/
def readWords : Nat → List Char → Except WordFault (List UInt64)
  | 0, _ => .ok []
  | fuel + 1, back =>
    if back.isEmpty then .ok []
    else do
      let word ← readWord (back.take 16).reverse
      return word :: (← readWords fuel (back.drop 16))

/-- The vector of a text: `0x` and one or more digits. -/
def read (s : String) : Attempt FullVector :=
  match s.toList with
  | '0' :: 'x' :: ds =>
    if ds.isEmpty || !ds.all isHexDigit then .error (.of (.malformed (.notHexadecimal s)))
    else
      match readWords ds.length ds.reverse with
      | .ok words => .ok (ofLimbs words)
      | .error fault => .error (.of (.malformed (.badWord s fault)))
  | _ => .error (.of (.malformed (.noMarker s)))

end FullVector
end Lookalike
