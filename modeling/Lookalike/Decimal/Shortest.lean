-- The fewest digits that read back as the same double, and the layouts in
-- which they are written. The doubles next to a value leave it an interval of
-- its own; the first decimal grid with a point inside gives the digits.
import Lookalike.Decimal.Numeral
import Lookalike.Decimal.Binary

namespace Lookalike.Decimal

-- Powers are those of the core library, whatever else is imported.
attribute [local instance (high)] instPowNat

/-! ## The interval of a double -/

/-- The reals that round to one double: `low / den` to `high / den` round `value / den`, with the
ends when `closed`. -/
structure Span where
  value : Nat
  low : Nat
  high : Nat
  den : Nat
  closed : Bool

/-- The interval of `m * 2 ^ e`. Below a power of two the next double is half as far. -/
def Span.of (m : Nat) (e : Int) : Span :=
  let unit := 2 ^ (e - 2).toNat
  let near := if m = 2 ^ (52 : Nat) ∧ e ≠ -1074 then 1 else 2
  ⟨4 * m * unit, (4 * m - near) * unit, (4 * m + 2) * unit, 2 ^ (2 - e).toNat, m % 2 = 0⟩

/-- The interval in units of `10 ^ p`. -/
def Span.inUnits (s : Span) (p : Int) : Span :=
  let up := 10 ^ (-p).toNat
  ⟨s.value * up, s.low * up, s.high * up, s.den * 10 ^ p.toNat, s.closed⟩

/-- Whether the whole number `d` lies in the interval. -/
def Span.holds (s : Span) (d : Nat) : Bool :=
  if s.closed then s.low ≤ d * s.den && d * s.den ≤ s.high
  else s.low < d * s.den && d * s.den < s.high

/-- The whole number in the interval that is nearest to the value, if there is one. -/
def Span.whole? (s : Span) : Option Nat :=
  let d := s.value / s.den
  let below := s.holds d
  let above := s.holds (d + 1)
  if below && above then
    let r := s.value % s.den
    if 2 * r < s.den || (2 * r == s.den && d % 2 == 0) then some d else some (d + 1)
  else if below then some d
  else if above then some (d + 1)
  else none

/-! ## The digits -/

/-- The power of ten of the first digit of `num / den`. -/
def decimalPlace (num den : Nat) : Int :=
  let guess := ((num.log2 : Int) - den.log2 - 1) * 30103 / 100000
  let reaches (p : Int) : Bool := den * 10 ^ p.toNat ≤ num * 10 ^ (-p).toNat
  if reaches (guess + 1) then guess + 1 else guess

/-- Try grids with ever more digits, `n` of them already tried; the digits and their power of
ten. -/
def searchGrids (s : Span) (place : Int) : Nat → Nat → Nat × Int
  | 0, n =>
    let p := place - n
    (roundHalfEven (s.inUnits p).value (s.inUnits p).den, p)
  | fuel + 1, n =>
    let p := place - n
    match (s.inUnits p).whole? with
    | some d => (d, p)
    | none => searchGrids s place fuel (n + 1)

/-- A number without the zeros at its end; each zero raises the power of ten. -/
def dropZeros : Nat → Nat → Int → Nat × Int
  | 0, d, p => (d, p)
  | fuel + 1, d, p => if d % 10 = 0 ∧ d ≠ 0 then dropZeros fuel (d / 10) (p + 1) else (d, p)

/-- The shortest decimal `d * 10 ^ p` that rounds to the double `m * 2 ^ e`, for positive `m`. -/
def shortest (m : Nat) (e : Int) : Nat × Int :=
  let s := Span.of m e
  let (d, p) := searchGrids s (decimalPlace s.value s.den) 17 0
  dropZeros 18 d p

/-! ## Layouts -/

/-- How digits are laid out: which powers of ten of the first digit are written without an
exponent, and whether a whole number keeps a point and a zero. -/
structure Layout where
  positional : Int → Bool
  keepsPoint : Bool

/-- Messages never show an exponent and no needless point. -/
def Layout.plain : Layout := ⟨fun _ => true, false⟩

/-- Saved files and reports in JSON write 0.00001 and 1000000000000000.0 in full, smaller and larger
numbers with an exponent, and always a point or an exponent. -/
def Layout.saved : Layout := ⟨fun e => -5 ≤ e && e ≤ 15, true⟩

/-- The numeral of `± d * 10 ^ p` in a layout. -/
def Layout.numeral (l : Layout) (negative : Bool) (d : Nat) (p : Int) : Numeral :=
  let ds := digits d
  let first := p + ds.length - 1
  let zero := if l.keepsPoint then ['0'] else []
  if d = 0 then ⟨negative, ['0'], zero, none⟩
  else if l.positional first then
    if 0 ≤ p then ⟨negative, ds ++ List.replicate p.toNat '0', zero, none⟩
    else if 0 ≤ first then
      ⟨negative, ds.take (first + 1).toNat, ds.drop (first + 1).toNat, none⟩
    else ⟨negative, ['0'], List.replicate (-first - 1).toNat '0' ++ ds, none⟩
  else ⟨negative, ds.take 1, ds.drop 1, some ⟨first < 0, digits first.natAbs⟩⟩

/-- The numeral of a finite double; `none` for the others. -/
def Layout.numeral? (l : Layout) (x : Float) : Option Numeral :=
  match Value.ofFloat x with
  | .finite negative m e =>
    let (d, p) := if m = 0 then (0, 0) else shortest m e
    some (l.numeral negative d p)
  | _ => none

/-- The text of a double in a message. -/
def display (x : Float) : String :=
  match Layout.plain.numeral? x with
  | some n => String.ofList n.toChars
  | none => if x.isNaN then "NaN" else if x < 0 then "-inf" else "inf"

/-! ## A fixed number of places -/

/-- The text of a double with `places` digits after the point, a half to the even neighbour. -/
def displayFixed (places : Nat) (x : Float) : String :=
  match Value.ofFloat x with
  | .finite negative m e =>
    let (num, den) := scaleDown (m * 10 ^ places) 1 (-e)
    let n := roundHalfEven num den
    let fraction := digits (n % 10 ^ places)
    String.ofList (Numeral.toChars ⟨negative, digits (n / 10 ^ places),
      List.replicate (places - fraction.length) '0' ++ fraction, none⟩)
  | _ => display x

end Lookalike.Decimal
