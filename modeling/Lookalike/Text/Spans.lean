-- Sets of characters given by ascending spans of code points.

namespace Lookalike.Text

/-- Whether the code point of `c` lies in one of the spans. -/
def inSpans (spans : Array (Nat × Nat)) (c : Char) : Bool :=
  spans.any fun s => s.1 ≤ c.toNat && c.toNat ≤ s.2

end Lookalike.Text
