-- Learning a table from a corpus. Every window gives one value for every
-- symbol, zero where the symbol is absent; the threshold is the value at a
-- fixed rank of the sorted values. Tallies of single streams merge in any order.
import Lookalike.Threshold.Table
import Lookalike.Window
import Lookalike.Decimal.Binary

namespace Lookalike

/-! ## Tallies -/

/-- The number of windows seen, and for each symbol its counts in the windows that hold it. -/
structure Tally where
  seen : Nat
  values : List (String × List Nat)

namespace Tally

/-- No window has been counted. -/
def empty : Tally := ⟨0, []⟩

/-- A symbol with more values. -/
def extend (values : List (String × List Nat)) (symbol : String) (more : List Nat) :
    List (String × List Nat) :=
  Ordered.alter symbol (fun old => more ++ old.getD []) values

def addWindow (t : Tally) (w : Window) : Tally :=
  ⟨t.seen + 1, w.counts.entries.foldl (fun vs e => extend vs e.1 [e.2]) t.values⟩

def ofStream (width : Nat) (s : Stream) : Tally := (windows s.lines width).foldl addWindow empty

/-- Two tallies together. -/
def merge (a b : Tally) : Tally :=
  ⟨a.seen + b.seen, b.values.foldl (fun vs e => extend vs e.1 e.2) a.values⟩

/-- The tally of a corpus. -/
def ofStreams (width : Nat) (ss : List Stream) : Tally :=
  (ss.map (ofStream width)).foldl merge empty

end Tally

/-! ## Thresholds -/

/-- The rank of a fraction in a list: the nearest whole number, a half to the even neighbour, but
never behind the last place. -/
def rank (length : Nat) (percentile : Float) : Nat :=
  min (Decimal.roundToNat (Decimal.nearest false length 1 * percentile)) (length - 1)

/-- All values of a symbol: its counts, and a zero for each window without it. -/
def padded (total : Nat) (values : List Nat) : List Nat :=
  (values ++ List.replicate (total - values.length) 0).take total

/-- The value at the rank of the sorted values. -/
def orderStatistic (total : Nat) (percentile : Float) (values : List Nat) : Nat :=
  let sorted := (padded total values).mergeSort
  sorted[rank sorted.length percentile]?.getD 0

/-- The thresholds of a tally, by symbol, each a word of 32 bits. A threshold of zero is left out.
-/
def Tally.thresholds (t : Tally) (percentile : Float) : List (String × UInt32) :=
  let ordered := t.values.mergeSort fun a b => (compare a.1 b.1).isLE
  ordered.filterMap fun e =>
    let n := UInt32.ofNat (orderStatistic t.seen percentile e.2)
    if n = 0 then none else some (e.1, n)

def ThresholdTable.learn (streams : List Stream) (window : Nat) (percentile : Float) :
    Attempt ThresholdTable := do
  checkParameters window percentile
  return ⟨window, percentile, (Tally.ofStreams window streams).thresholds percentile⟩

end Lookalike
