-- From a raw line of a listing to its tokens. An operand runs through a chain
-- of rules, each of which looks at what the rules before it left.
import Lookalike.Listing.Rules
import Lookalike.Text.Blank

namespace Lookalike

/-! ## Classes -/

namespace Token

/-- Labels and plain numbers. -/
def value : String := "VAL"
/-- Memory operands. -/
def memory : String := "MEM"
/-- References to a section. -/
def sectionName : String := "text"
/-- Numbers in base 16. -/
def byte : String := "byte"
/-- Letters and strings. -/
def literal : String := "char"
/-- Registers and segments. -/
def register : String := "REGSEG"

end Token

namespace Normalizer

/-! ## The chain of rules -/

/-- Labels, plain numbers and memory operands. -/
def classifyValue (t : String) : String :=
  match t.toList with
  | '_' :: _ => Token.value
  | 'L' :: _ => Token.value
  | '[' :: _ => Token.memory
  | [] => t
  | cs => if cs.all fun c => '0' ≤ c && c ≤ '9' then Token.value else t

/-- References to a section. -/
def classifySection (t : String) : String :=
  match t.toList with
  | '.' :: 't' :: 'e' :: 'x' :: 't' :: _ => Token.sectionName
  | _ => t

/-- Numbers in base 16. -/
def classifyByte (t : String) : String :=
  match t.toList with
  | '0' :: 'x' :: _ => Token.byte
  | _ => t

/-- Letters and strings. -/
def classifyLiteral (t : String) : String :=
  match t.toList with
  | '\x22' :: _ => Token.literal
  | '\x27' :: _ => Token.literal
  | _ => t

/-- Registers and segments, by their first two letters. -/
def classifyRegister (registers : List String) (t : String) : String :=
  match t.toList with
  | a :: b :: _ => if registers.contains (String.ofList [a, b]) then Token.register else t
  | _ => t

/-- One group of spellings. -/
def collapse (t : String) (group : String × List String) : String :=
  if group.2.contains t then group.1 else t

/-- The token of an operand; an empty operand has none. -/
def operand? (n : Normalizer) (operand : String) : Option String :=
  if operand = "" then none
  else
    let t := classifyLiteral (classifyByte (classifySection (classifyValue operand)))
    some (n.rules.synonyms.foldl collapse (classifyRegister n.rules.registers t))

/-! ## The tokens of a line -/

/-- What stands between operands. -/
def isSeparator (c : Char) : Bool := c == ',' || Text.isBlank c

/-- The instruction of a raw line: what stands behind the column, if the line is longer. -/
def instruction? (n : Normalizer) (raw : List Char) : Option (List Char) :=
  match (Text.trimEnd (fun c => c == '\r' || c == '\n') raw).drop n.dialect.column with
  | [] => none
  | cs => some cs

/-- The tokens of a raw line. -/
def tokens (n : Normalizer) (raw : List Char) : List String :=
  match n.instruction? raw with
  | none => []
  | some cs =>
    ((Text.runs isSeparator cs).map String.ofList).filterMap fun part =>
      if n.dialect.keywords.contains part then none else n.operand? part

end Normalizer

/-- A line of tokens, and the number of its raw line in the listing, counted from zero. -/
structure Line where
  number : Nat
  tokens : List String
  deriving DecidableEq

/-- The line of a raw line; none when it holds no token. -/
def Normalizer.line? (n : Normalizer) (number : Nat) (raw : List Char) : Option Line :=
  match n.tokens raw with
  | [] => none
  | tokens => some ⟨number, tokens⟩

end Lookalike
