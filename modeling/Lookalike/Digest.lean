-- The BLAKE3 hash of a byte string, as its specification defines it: chunks of
-- 1024 bytes, blocks of 64, a seven-round compression on four rows of four
-- words, and a binary tree whose left side is the largest power of two.
import Lookalike.Text.Utf8

namespace Lookalike.Digest

-- Powers are those of the core library, whatever else is imported.
attribute [local instance (high)] instPowNat

/-! ## Four words side by side -/

/-- One row of the compression state. -/
structure Quad where
  (x0 x1 x2 x3 : UInt32)

namespace Quad

/-- Combine two rows lane by lane. -/
def map₂ (f : UInt32 → UInt32 → UInt32) (a b : Quad) : Quad :=
  ⟨f a.x0 b.x0, f a.x1 b.x1, f a.x2 b.x2, f a.x3 b.x3⟩

/-- Add two rows lane by lane. -/
def add (a b : Quad) : Quad := map₂ (· + ·) a b

/-- Exclusive or of two rows lane by lane. -/
def xor (a b : Quad) : Quad := map₂ (· ^^^ ·) a b

/-- Each word turned right by `n` bits. -/
def turn (n : UInt32) (a : Quad) : Quad :=
  let r (x : UInt32) := (x >>> n) ||| (x <<< (32 - n))
  ⟨r a.x0, r a.x1, r a.x2, r a.x3⟩

/-- The words moved one place to the left, round the end. -/
def roll (a : Quad) : Quad := ⟨a.x1, a.x2, a.x3, a.x0⟩

/-- The lanes in order. -/
def toList (a : Quad) : List UInt32 := [a.x0, a.x1, a.x2, a.x3]

end Quad

/-- The sixteen words of a compression. -/
structure State where
  (a b c d : Quad)

/-- The mixing of the four columns with two message words each. -/
def State.mix (s : State) (x y : Quad) : State :=
  let a := (s.a.add s.b).add x
  let d := (s.d.xor a).turn 16
  let c := s.c.add d
  let b := (s.b.xor c).turn 12
  let a := (a.add b).add y
  let d := (d.xor a).turn 8
  let c := c.add d
  let b := (b.xor c).turn 7
  ⟨a, b, c, d⟩

structure Block where
  (m0 m1 m2 m3 m4 m5 m6 m7 m8 m9 m10 m11 m12 m13 m14 m15 : UInt32)

/-- The order of the words for the next round. -/
def Block.permute (m : Block) : Block :=
  ⟨m.m2, m.m6, m.m3, m.m10, m.m7, m.m0, m.m4, m.m13,
    m.m1, m.m11, m.m12, m.m5, m.m9, m.m14, m.m15, m.m8⟩

/-- One round: the columns, then the diagonals. -/
def State.round (s : State) (m : Block) : State :=
  let s := s.mix ⟨m.m0, m.m2, m.m4, m.m6⟩ ⟨m.m1, m.m3, m.m5, m.m7⟩
  let s : State := ⟨s.a, s.b.roll, s.c.roll.roll, s.d.roll.roll.roll⟩
  let s := s.mix ⟨m.m8, m.m10, m.m12, m.m14⟩ ⟨m.m9, m.m11, m.m13, m.m15⟩
  ⟨s.a, s.b.roll.roll.roll, s.c.roll.roll, s.d.roll⟩

/-- `n` rounds, each on the permuted block of the one before. -/
def State.rounds : Nat → State → Block → State
  | 0, s, _ => s
  | n + 1, s, m => (s.round m).rounds n m.permute

/-- Eight words that stand for everything hashed so far. -/
structure Chain where
  (lo hi : Quad)

/-- The constants at which every chain begins. -/
def Chain.initial : Chain :=
  ⟨⟨0x6A09E667, 0xBB67AE85, 0x3C6EF372, 0xA54FF53A⟩,
    ⟨0x510E527F, 0x9B05688C, 0x1F83D9AB, 0x5BE0CD19⟩⟩

/-- The compression of one block into a chain. -/
def Chain.compress (h : Chain) (m : Block) (counter : Nat) (length flags : UInt32) : Chain :=
  let s : State := ⟨h.lo, h.hi, Chain.initial.lo,
    ⟨UInt32.ofNat (counter % 2 ^ (32 : Nat)),
      UInt32.ofNat (counter / 2 ^ (32 : Nat) % 2 ^ (32 : Nat)), length, flags⟩⟩
  let s := s.rounds 7 m
  ⟨s.a.xor s.c, s.b.xor s.d⟩

/-! ## Blocks, chunks and the tree -/

/-- The word at place `i` of a block, least significant byte first; missing bytes are zero. -/
def wordAt (bs : Array UInt8) (i : Nat) : UInt32 :=
  let byte (k : Nat) := (bs[4 * i + k]?.getD 0).toUInt32
  byte 0 ||| (byte 1 <<< 8) ||| (byte 2 <<< 16) ||| (byte 3 <<< 24)

def Block.ofBytes (bs : Bytes) : Block :=
  let a := bs.toArray
  let w := wordAt a
  ⟨w 0, w 1, w 2, w 3, w 4, w 5, w 6, w 7, w 8, w 9, w 10, w 11, w 12, w 13, w 14, w 15⟩

/-- Pieces of `n` bytes, the last one shorter; the empty string is one empty piece. `fuel` bounds
the number of pieces. -/
def pieces (n : Nat) : Nat → Bytes → List Bytes
  | 0, _ => []
  | fuel + 1, bs => if bs.length ≤ n then [bs] else bs.take n :: pieces n fuel (bs.drop n)

/-- The flag of the first block of a chunk. -/
def chunkStart : UInt32 := 1
/-- The flag of the last block of a chunk. -/
def chunkEnd : UInt32 := 2
/-- The flag of a block that joins two chains. -/
def parent : UInt32 := 4
/-- The flag of the last block of all. -/
def root : UInt32 := 8

/-- The chain after the blocks of a chunk; `final` is added to the flags of its last block. -/
def foldBlocks (counter : Nat) (final : UInt32) : UInt32 → Chain → List Bytes → Chain
  | _, h, [] => h
  | flags, h, [b] =>
    h.compress (Block.ofBytes b) counter (UInt32.ofNat b.length) (flags ||| chunkEnd ||| final)
  | flags, h, b :: rest =>
    let h := h.compress (Block.ofBytes b) counter (UInt32.ofNat b.length) flags
    foldBlocks counter final 0 h rest

/-- The chain of chunk number `counter`. -/
def chunkChain (counter : Nat) (final : UInt32) (bs : Bytes) : Chain :=
  foldBlocks counter final chunkStart Chain.initial (pieces 64 17 bs)

/-- The chain over two subtrees. -/
def parentChain (final : UInt32) (l r : Chain) : Chain :=
  Chain.initial.compress
    ⟨l.lo.x0, l.lo.x1, l.lo.x2, l.lo.x3, l.hi.x0, l.hi.x1, l.hi.x2, l.hi.x3,
      r.lo.x0, r.lo.x1, r.lo.x2, r.lo.x3, r.hi.x0, r.hi.x1, r.hi.x2, r.hi.x3⟩
    0 64 (parent ||| final)

/-- The largest power of two below `n`, for `n` at least 2. -/
def leftSize (n : Nat) : Nat := 2 ^ Nat.log2 (n - 1)

/-- The chain over a list of chunks of which the first has number `counter`. `fuel` bounds the
height of the tree. -/
def treeChain : Nat → Nat → UInt32 → List Bytes → Chain
  | 0, counter, final, chunks => chunkChain counter final (chunks.headD [])
  | fuel + 1, counter, final, chunks =>
    match chunks with
    | [] => chunkChain counter final []
    | [c] => chunkChain counter final c
    | _ =>
      let k := leftSize chunks.length
      parentChain final (treeChain fuel counter 0 (chunks.take k))
        (treeChain fuel (counter + k) 0 (chunks.drop k))

def hash (bs : Bytes) : Bytes :=
  let chunks := pieces 1024 (bs.length + 1) bs
  let h := treeChain chunks.length 0 root chunks
  (h.lo.toList ++ h.hi.toList).flatMap fun (w : UInt32) =>
    [w.toUInt8, (w >>> 8).toUInt8, (w >>> 16).toUInt8, (w >>> 24).toUInt8]

/-! ## Identities -/

/-- A digit of base 16, in lower case. -/
def hexDigit (n : Nat) : Char :=
  if n < 10 then Char.ofNat (48 + n) else Char.ofNat (87 + n)

/-- Two digits for each byte. -/
def hex (bs : Bytes) : List Char :=
  bs.flatMap fun b => [hexDigit (b.toNat / 16), hexDigit (b.toNat % 16)]

/-- The identity of a byte string: the first sixteen digits of its hash. -/
def identity (bs : Bytes) : String := String.ofList ((hex (hash bs)).take 16)

/-- The `n` bytes of a number, least significant first. -/
def littleEndian : Nat → Nat → Bytes
  | 0, _ => []
  | n + 1, v => UInt8.ofNat (v % 256) :: littleEndian n (v / 256)

end Lookalike.Digest
