-- Patterns over bytes: what a glob stands for once its notation is read. A
-- pattern matches a whole text or not at all.
import Lookalike.Text.Utf8

namespace Lookalike

/-! ## Sets of bytes -/

/-- The bytes in one of the spans, or, if `negated`, in none of them. -/
structure ByteSet where
  negated : Bool
  spans : List (UInt8 × UInt8)
  deriving DecidableEq

namespace ByteSet

/-- Whether a byte is in the set. -/
def holds (s : ByteSet) (b : UInt8) : Bool :=
  (s.spans.any fun r => r.1 ≤ b && b ≤ r.2) != s.negated

/-- Every byte. -/
def every : ByteSet := ⟨true, []⟩

/-- Every byte but the separator of paths. -/
def inName : ByteSet := ⟨true, [(0x2F, 0x2F)]⟩

/-- One byte. -/
def only (b : UInt8) : ByteSet := ⟨false, [(b, b)]⟩

end ByteSet

/-! ## Patterns -/

/-- A pattern over bytes. -/
inductive Pattern where
  | empty
  | one (set : ByteSet)
  | many (set : ByteSet)
  | both (first second : Pattern)
  | either (first second : Pattern)
  deriving DecidableEq

namespace Pattern

/-- One pattern behind the other; an empty one adds nothing. -/
def andThen : Pattern → Pattern → Pattern
  | empty, q => q
  | p, empty => p
  | p, q => both p q

/-- Patterns in a row. -/
def sequence (ps : List Pattern) : Pattern := ps.foldr andThen empty

/-- One of several patterns; of none, the empty one. -/
def choice : List Pattern → Pattern
  | [] => empty
  | [p] => p
  | p :: rest => either p (choice rest)

/-- The bytes of a text, as they are. -/
def literal (bs : Bytes) : Pattern := sequence (bs.map fun b => one (.only b))

/-! ## Matching -/

/-- Whether `goal` holds behind any number of bytes of the set. -/
def skipMany (set : ByteSet) (goal : Bytes → Bool) : Bytes → Bool
  | [] => goal []
  | b :: rest => goal (b :: rest) || (set.holds b && skipMany set goal rest)

/-- Whether the pattern matches a beginning of the text such that `goal` holds behind it. -/
def leadsTo : Pattern → (Bytes → Bool) → Bytes → Bool
  | empty, goal, bs => goal bs
  | one set, goal, bs =>
    match bs with
    | [] => false
    | b :: rest => set.holds b && goal rest
  | many set, goal, bs => skipMany set goal bs
  | both p q, goal, bs => p.leadsTo (fun rest => q.leadsTo goal rest) bs
  | either p q, goal, bs => p.leadsTo goal bs || q.leadsTo goal bs

/-- Whether the pattern matches the whole text. -/
def accepts (p : Pattern) (bs : Bytes) : Bool := p.leadsTo List.isEmpty bs

end Pattern
end Lookalike
