-- Reading a JSON text. A reader takes what it needs from the front of a text
-- and gives the rest back; a whole text is one value and blanks.
import Lookalike.Json.Value

namespace Lookalike.Json

open Decimal (Numeral Exponent spanDigits isDigit)

/-! ## Blanks -/

/-- The four characters that may stand between the parts of a text. -/
def isSpace (c : Char) : Bool := c == ' ' || c == '\t' || c == '\n' || c == '\r'

def skipSpace (cs : List Char) : List Char := cs.dropWhile isSpace

/-! ## Strings -/

/-- A string being read: its characters, last first, a leading half pair that waits for its other
half, and whether a half pair was left alone. -/
structure Units where
  back : List Char
  half : Option Nat
  broken : Bool

/-- A character comes. -/
def Units.char (u : Units) (c : Char) : Units := ⟨c :: u.back, none, u.broken || u.half.isSome⟩

/-- A code unit comes from an escape. -/
def Units.code (u : Units) (n : Nat) : Units :=
  if 0xD800 ≤ n ∧ n < 0xDC00 then ⟨u.back, some n, u.broken || u.half.isSome⟩
  else if 0xDC00 ≤ n ∧ n < 0xE000 then
    match u.half with
    | some h =>
      ⟨Char.ofNat (0x10000 + (h - 0xD800) * 0x400 + (n - 0xDC00)) :: u.back, none, u.broken⟩
    | none => ⟨u.back, none, true⟩
  else u.char (Char.ofNat n)

/-- The text of the string, if it has one. -/
def Units.text (u : Units) : Option String :=
  if u.broken || u.half.isSome then none else some (String.ofList u.back.reverse)

/-- The value of a digit of base 16 in either case. -/
def hexValue? (c : Char) : Option Nat :=
  if '0' ≤ c ∧ c ≤ '9' then some (c.toNat - 48)
  else if 'a' ≤ c ∧ c ≤ 'f' then some (c.toNat - 87)
  else if 'A' ≤ c ∧ c ≤ 'F' then some (c.toNat - 55)
  else none

def escape? (c : Char) : Option Char :=
  if c == '\x22' || c == '\\' || c == '/' then some c
  else if c == 'b' then some '\x08'
  else if c == 'f' then some '\x0c'
  else if c == 'n' then some '\n'
  else if c == 'r' then some '\r'
  else if c == 't' then some '\t'
  else none

/-- The string behind an opening quote, and what follows its closing quote. -/
def readString? (u : Units) : List Char → Option (Option String × List Char)
  | [] => none
  | '\\' :: 'u' :: a :: b :: c :: d :: rest =>
    match hexValue? a, hexValue? b, hexValue? c, hexValue? d with
    | some a, some b, some c, some d => readString? (u.code (((a * 16 + b) * 16 + c) * 16 + d)) rest
    | _, _, _, _ => none
  | '\\' :: c :: rest =>
    match escape? c with
    | some e => readString? (u.char e) rest
    | none => none
  | c :: rest =>
    if c == '\x22' then some (u.text, rest)
    else if c == '\\' || c.toNat < 0x20 then none
    else readString? (u.char c) rest

/-! ## Numbers -/

/-- The digits behind a point; at least one. -/
def readFraction? : List Char → Option (List Char × List Char)
  | '.' :: rest =>
    match spanDigits rest with
    | ([], _) => none
    | (ds, rest) => some (ds, rest)
  | rest => some ([], rest)

/-- A power of ten; at least one digit. -/
def readPower? : List Char → Option (Option Exponent × List Char)
  | c :: rest =>
    if c == 'e' || c == 'E' then
      let (negative, rest) :=
        match rest with
        | '-' :: r => (true, r)
        | '+' :: r => (false, r)
        | r => (false, r)
      match spanDigits rest with
      | ([], _) => none
      | (ds, rest) => some (some ⟨negative, ds⟩, rest)
    else some (none, c :: rest)
  | [] => some (none, [])

/-- A number; a zero in front stands alone. -/
def readNumber? (cs : List Char) : Option (Numeral × List Char) := do
  let (negative, cs) :=
    match cs with
    | '-' :: r => (true, r)
    | r => (false, r)
  match spanDigits cs with
  | ([], _) => none
  | ('0' :: _ :: _, _) => none
  | (whole, rest) =>
    let (fraction, rest) ← readFraction? rest
    let (power, rest) ← readPower? rest
    return (⟨negative, whole, fraction, power⟩, rest)

/-! ## Values -/

/-- Take a word from the front of a text. -/
def readWord? (word : List Char) (j : Json) (cs : List Char) : Option (Json × List Char) :=
  if word.isPrefixOf cs then some (j, cs.drop word.length) else none

mutual

/-- A value; `fuel` bounds the number of steps. -/
def readValue? : Nat → List Char → Option (Json × List Char)
  | 0, _ => none
  | fuel + 1, cs =>
    match skipSpace cs with
    | [] => none
    | c :: rest =>
      if c == '\x7b' then
        match skipSpace rest with
        | '\x7d' :: rest => some (.obj [], rest)
        | rest => (readMembers? fuel rest).map fun m => (.obj m.1, m.2)
      else if c == '[' then
        match skipSpace rest with
        | ']' :: rest => some (.arr [], rest)
        | rest => (readItems? fuel rest).map fun m => (.arr m.1, m.2)
      else if c == '\x22' then (readString? ⟨[], none, false⟩ rest).map fun m => (.str m.1, m.2)
      else if c == 't' then readWord? ['t', 'r', 'u', 'e'] (.bool true) (c :: rest)
      else if c == 'f' then readWord? ['f', 'a', 'l', 's', 'e'] (.bool false) (c :: rest)
      else if c == 'n' then readWord? ['n', 'u', 'l', 'l'] .null (c :: rest)
      else (readNumber? (c :: rest)).map fun m => (.num m.1, m.2)

def readItems? : Nat → List Char → Option (List Json × List Char)
  | 0, _ => none
  | fuel + 1, cs =>
    match readValue? fuel cs with
    | none => none
    | some (j, rest) =>
      match skipSpace rest with
      | ',' :: rest => (readItems? fuel rest).map fun m => (j :: m.1, m.2)
      | ']' :: rest => some ([j], rest)
      | _ => none

def readMembers? : Nat → List Char → Option (List (Option String × Json) × List Char)
  | 0, _ => none
  | fuel + 1, cs =>
    match skipSpace cs with
    | '\x22' :: rest =>
      match readString? ⟨[], none, false⟩ rest with
      | none => none
      | some (key, rest) =>
        match skipSpace rest with
        | ':' :: rest =>
          match readValue? fuel rest with
          | none => none
          | some (j, rest) =>
            match skipSpace rest with
            | ',' :: rest => (readMembers? fuel rest).map fun m => ((key, j) :: m.1, m.2)
            | '\x7d' :: rest => some ([(key, j)], rest)
            | _ => none
        | _ => none
    | _ => none

end

/-- The value of a whole text. -/
def read? (cs : List Char) : Option Json :=
  match readValue? (2 * cs.length + 2) cs with
  | some (j, rest) => if (skipSpace rest).isEmpty then some j else none
  | none => none

end Lookalike.Json
