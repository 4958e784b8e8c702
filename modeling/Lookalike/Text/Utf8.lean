-- Bytes and characters. A decoder reads one byte at a time and marks each
-- longest broken piece once; reading strictly refuses a mark, reading kindly
-- shows U+FFFD in its place.

namespace Lookalike

/-- The content of a file. -/
abbrev Bytes := List UInt8

namespace Text

/-! ## Writing -/

/-- The bytes of a text. -/
def encode (s : String) : Bytes := s.toList.flatMap String.utf8EncodeChar

/-- Where bytes are asked for, a text stands for its own. -/
instance : Coe String Bytes := ⟨encode⟩

/-! ## Reading -/

/-- What is still open: nothing, or `left` more bytes of which the next lies in `lo ... hi`. -/
inductive Pending where
  | start
  | within (left : Nat) (value : Nat) (lo hi : UInt8)
  deriving DecidableEq

/-- The state of a reading: what is open, and the characters so far, last first.
`none` marks a piece that is no character. -/
structure Decoder where
  pending : Pending
  back : List (Option Char)

/-- A byte at which a character may begin. -/
def Decoder.lead (back : List (Option Char)) (b : UInt8) : Decoder :=
  if b < 0x80 then ⟨.start, some (Char.ofNat b.toNat) :: back⟩
  else if b < 0xC2 then ⟨.start, none :: back⟩
  else if b < 0xE0 then ⟨.within 1 (b.toNat - 0xC0) 0x80 0xBF, back⟩
  else if b < 0xF0 then
    ⟨.within 2 (b.toNat - 0xE0)
      (if b == 0xE0 then 0xA0 else 0x80) (if b == 0xED then 0x9F else 0xBF), back⟩
  else if b < 0xF5 then
    ⟨.within 3 (b.toNat - 0xF0)
      (if b == 0xF0 then 0x90 else 0x80) (if b == 0xF4 then 0x8F else 0xBF), back⟩
  else ⟨.start, none :: back⟩

/-- One byte further. A byte that does not continue the open piece ends it broken and begins
anew. -/
def Decoder.step (d : Decoder) (b : UInt8) : Decoder :=
  match d.pending with
  | .start => Decoder.lead d.back b
  | .within left value lo hi =>
    if lo ≤ b && b ≤ hi then
      let value := value * 64 + (b.toNat - 0x80)
      match left with
      | 0 | 1 => ⟨.start, some (Char.ofNat value) :: d.back⟩
      | left + 1 => ⟨.within left value 0x80 0xBF, d.back⟩
    else Decoder.lead (none :: d.back) b

/-- The characters read, in order; an open piece at the end is broken. -/
def Decoder.finish (d : Decoder) : List (Option Char) :=
  match d.pending with
  | .start => d.back.reverse
  | .within .. => (none :: d.back).reverse

/-- All characters of the bytes, with a mark for each broken piece. -/
def scan (bs : Bytes) : List (Option Char) :=
  (bs.foldl Decoder.step ⟨.start, []⟩).finish

/-- The text of well-formed bytes. -/
def decode? (bs : Bytes) : Option (List Char) := (scan bs).mapM id

/-- The text of any bytes, with U+FFFD for each broken piece. -/
def decodeKindly (bs : Bytes) : List Char := (scan bs).map (·.getD '\ufffd')

/-! ## Lines of bytes -/

/-- Cut at each line feed byte, as `cutLines` cuts characters. -/
def cutByteLines (back : Bytes) (done : List Bytes) : Bytes → List Bytes
  | [] => if back.isEmpty then done.reverse else (back.reverse :: done).reverse
  | b :: rest =>
    if b == 0x0A then
      cutByteLines [] ((if back.head? == some 0x0D then back.tail else back).reverse :: done) rest
    else cutByteLines (b :: back) done rest

/-- The lines of a file, each without its line feed and one carriage return in front of it. -/
def byteLines (bs : Bytes) : List Bytes := cutByteLines [] [] bs

end Text
end Lookalike
