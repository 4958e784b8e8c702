-- Bit vectors, one bit for each symbol of a table. The first symbol is the
-- most significant bit, both of the bucket number and of the full vector.
import Lookalike.Fingerprint.Vector

namespace Lookalike

/-- Bits in the order of the symbols of a table. -/
abbrev BitVector := List Bool

namespace BitVector

/-- The first `width` bits as a word; beyond 64 bits the first ones are shifted out. -/
def bucket (width : Nat) (bits : BitVector) : UInt64 :=
  (bits.take width).foldl (fun w b => (w <<< 1) ||| b.toUInt64) 0

/-- A word of at most 64 bits, least significant first. -/
def limb (bits : List Bool) : UInt64 := bits.foldr (fun b w => (w <<< 1) ||| b.toUInt64) 0

/-- Words of bits, least significant first; `fuel` bounds the number of words. -/
def limbs : Nat → List Bool → List UInt64
  | 0, _ => []
  | fuel + 1, bits =>
    if bits.isEmpty then [] else limb (bits.take 64) :: limbs fuel (bits.drop 64)

/-- All bits as one vector. -/
def full (bits : BitVector) : FullVector := .ofLimbs (limbs bits.length bits.reverse)

end BitVector
end Lookalike
