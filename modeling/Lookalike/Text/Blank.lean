-- White space and the line structure of a text. A line ends at a line feed and
-- loses one carriage return in front of it; a run is a longest stretch of
-- characters that are no separators.

namespace Lookalike.Text

/-! ## White space -/

/-- The characters with the Unicode property White_Space. -/
def isBlank (c : Char) : Bool :=
  let n := c.toNat
  (9 ≤ n && n ≤ 13) || n == 0x20 || n == 0x85 || n == 0xA0 || n == 0x1680 ||
    (0x2000 ≤ n && n ≤ 0x200A) || n == 0x2028 || n == 0x2029 || n == 0x202F ||
    n == 0x205F || n == 0x3000

/-- The text without the characters of `p` at its end. -/
def trimEnd (p : Char → Bool) (cs : List Char) : List Char :=
  (cs.reverse.dropWhile p).reverse

/-- The text without white space at both ends. -/
def trim (cs : List Char) : List Char :=
  trimEnd isBlank (cs.dropWhile isBlank)

/-- A text of white space only. -/
def isBlankLine (cs : List Char) : Bool := cs.all isBlank

/-! ## Lines -/

/-- A finished line, held back to front, without one carriage return at its end. -/
def closeLine : List Char → List Char
  | '\r' :: back => back.reverse
  | back => back.reverse

/-- Cut at each line feed; `back` is the open line back to front, `done` the finished lines. -/
def cutLines (back : List Char) (done : List (List Char)) : List Char → List (List Char)
  | [] => if back.isEmpty then done.reverse else (back.reverse :: done).reverse
  | '\n' :: rest => cutLines [] (closeLine back :: done) rest
  | c :: rest => cutLines (c :: back) done rest

/-- The lines of a text. A last line without a line feed keeps its carriage return. -/
def lines (cs : List Char) : List (List Char) := cutLines [] [] cs

/-! ## Runs -/

/-- The longest stretches without a separator, in order. -/
def runs (separator : Char → Bool) (cs : List Char) : List (List Char) :=
  (cs.splitOnP separator).filter fun r => !r.isEmpty

end Lookalike.Text
