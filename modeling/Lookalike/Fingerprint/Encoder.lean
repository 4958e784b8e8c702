-- From the counts of a window to its fingerprint: a bit is set when the count
-- of its symbol is above the threshold.
import Lookalike.Fingerprint.Bits
import Lookalike.Threshold.Table
import Lookalike.Window

namespace Lookalike

/-! ## Bucket width -/

/-- A bucket number has 1 to 64 bits, and fewer than there are symbols. -/
def checkBucketWidth (width symbols : Nat) : Attempt Unit :=
  if width = 0 ∨ 64 < width ∨ symbols ≤ width then
    .error (.of (.invalidBucketWidth width symbols))
  else .ok ()

/-! ## Fingerprints -/

/-- The bucket number and the full vector of a window. -/
structure Fingerprint where
  bucket : UInt64
  full : FullVector
  deriving DecidableEq

/-- The bits of a window: whether each count is above its threshold. -/
def ThresholdTable.bits (t : ThresholdTable) (c : Counts) : BitVector :=
  t.entries.map fun e => e.2.toNat < c.get e.1

/-- A table and a bucket width that fits it. -/
structure Encoder where
  table : ThresholdTable
  width : Nat

namespace Encoder

/-- An encoder, if the bucket width fits the table. -/
def make (table : ThresholdTable) (width : Nat) : Attempt Encoder := do
  checkBucketWidth width table.size
  return ⟨table, width⟩

/-- The fingerprint of counts. -/
def encode (e : Encoder) (c : Counts) : Fingerprint :=
  let bits := e.table.bits c
  ⟨bits.bucket e.width, bits.full⟩

end Encoder
end Lookalike
