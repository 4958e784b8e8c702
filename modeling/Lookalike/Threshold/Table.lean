-- Threshold tables: the symbols of a corpus in a fixed order, each with the
-- count above which its bit is set.
import Lookalike.Failure
import Lookalike.Ordered
import Lookalike.Digest

namespace Lookalike

/-! ## Parameters -/

/-- A window covers at least one line, and the rank lies above 0 and not above 1. -/
def checkParameters (window : Nat) (percentile : Float) : Attempt Unit :=
  if window = 0 then .error (.of (.invalidWindow window))
  else if 0 < percentile ∧ percentile ≤ 1 then .ok ()
  else .error (.of (.invalidPercentile percentile))

/-! ## Tables -/

/-- The thresholds of symbols, in the order of their bits, and how they were learned. -/
structure ThresholdTable where
  window : Nat
  percentile : Float
  entries : List (String × UInt32)

namespace ThresholdTable

/-- A table of given thresholds; none of them may be zero. -/
def ofParts (window : Nat) (percentile : Float) (entries : List (String × UInt32)) :
    Attempt ThresholdTable := do
  checkParameters window percentile
  match entries.find? fun e => e.2 == 0 with
  | some e => .error (.of (.malformed (.zeroThreshold e.1)))
  | none => .ok ⟨window, percentile, entries⟩

/-- The number of symbols. -/
def size (t : ThresholdTable) : Nat := t.entries.length

/-- Whether the table tells no windows apart. -/
def isEmpty (t : ThresholdTable) : Bool := t.entries.isEmpty

/-- The threshold of a symbol. -/
def get? (t : ThresholdTable) (symbol : String) : Option UInt32 := Ordered.get? symbol t.entries

/-- What the identity is taken from: the parameters and the entries in order. -/
def imprint (t : ThresholdTable) : Bytes :=
  Digest.littleEndian 8 t.window ++ Digest.littleEndian 8 t.percentile.toBits.toNat ++
    t.entries.flatMap fun e => Text.encode e.1 ++ [0] ++ Digest.littleEndian 4 e.2.toNat

def identity (t : ThresholdTable) : String := Digest.identity t.imprint

end ThresholdTable
end Lookalike
