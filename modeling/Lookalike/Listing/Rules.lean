-- The rules that shape tokens and the layout of a listing, with their default
-- values and their identity. The length of the banner is no part of the
-- identity, since a query listing brings its own.
import Lookalike.Digest

namespace Lookalike

/-! ## Rules -/

/-- The alphabet of tokens: groups of spellings that collapse into one key, in order, and the
two-letter beginnings of registers and segments. -/
structure Rules where
  synonyms : List (String × List String)
  registers : List String
  deriving DecidableEq

/-- The groups and beginnings for common x86 listings. -/
def Rules.default : Rules where
  synonyms := [
    ("mov", ["movl", "movq", "movw", "movb", "movabs", "movzx", "movsx", "movsxd", "movzbl",
      "movsbl"]),
    ("jcc", ["je", "jne", "jz", "jnz", "jg", "jge", "jl", "jle", "ja", "jae", "jb", "jbe", "js",
      "jns"]),
    ("add", ["addl", "addq", "inc"]),
    ("sub", ["subl", "subq", "dec"]),
    ("push", ["pushl", "pushq"]),
    ("pop", ["popl", "popq"]),
    ("call", ["calll", "callq"]),
    ("ret", ["retl", "retq", "retn"]),
    ("lea", ["leal", "leaq"]),
    ("cmp", ["cmpl", "cmpq", "test", "testl", "testq"])]
  registers := ["ea", "eb", "ec", "ed", "es", "ax", "bx", "cx", "dx", "al", "ah", "bl", "bh", "dl",
    "dh", "sp", "bp", "si", "cs", "ds", "ss", "fs", "gs"]

/-! ## Layout -/

/-- The layout of a listing: the column at which instructions begin, the lines of the banner, and
the size words that are no operands. -/
structure Dialect where
  column : Nat
  headerLines : Nat
  keywords : List String
  deriving DecidableEq

/-- Addresses and bytes fill 32 columns, six lines come before the first function. -/
def Dialect.default : Dialect where
  column := 32
  headerLines := 6
  keywords := ["BYTE", "WORD", "DWORD", "QWORD", "TBYTE", "XMMWORD", "PTR"]

/-! ## Normalizers -/

/-- Rules and layout together. -/
structure Normalizer where
  rules : Rules
  dialect : Dialect
  deriving DecidableEq

namespace Normalizer

/-- The same rules and layout with another length of the banner. -/
def withHeaderLines (n : Normalizer) (headerLines : Nat) : Normalizer :=
  { n with dialect := { n.dialect with headerLines } }

/-- The words, each followed by a byte that ends it. -/
def closed (mark : UInt8) (words : List String) : Bytes :=
  words.flatMap fun w => Text.encode w ++ [mark]

/-- What the identity is taken from: the groups, the register beginnings, the column and the size
words. -/
def imprint (n : Normalizer) : Bytes :=
  (n.rules.synonyms.flatMap fun g => Text.encode g.1 ++ [1] ++ closed 0 g.2) ++ [2] ++
    closed 0 n.rules.registers ++ [2] ++
    Digest.littleEndian 8 n.dialect.column ++
    closed 0 n.dialect.keywords

def identity (n : Normalizer) : String := Digest.identity n.imprint

end Normalizer
end Lookalike
