-- The texts of a JSON value: on one line without blanks, or with one member a
-- line and two blanks a level.
import Lookalike.Json.Value

namespace Lookalike.Json

/-! ## Strings -/

/-- A digit of base 16, in lower case. -/
def escapeDigit (n : Nat) : Char :=
  if n < 10 then Char.ofNat (48 + n) else Char.ofNat (87 + n)

/-- One character of a string: quotes, backslashes and controls are escaped. -/
def writeChar (c : Char) : List Char :=
  if c == '\x22' then ['\\', '\x22']
  else if c == '\\' then ['\\', '\\']
  else if c == '\x08' then ['\\', 'b']
  else if c == '\x0c' then ['\\', 'f']
  else if c == '\n' then ['\\', 'n']
  else if c == '\r' then ['\\', 'r']
  else if c == '\t' then ['\\', 't']
  else if c.toNat < 0x20 then
    ['\\', 'u', '0', '0', escapeDigit (c.toNat / 16), escapeDigit (c.toNat % 16)]
  else [c]

def writeString (s : String) : List Char :=
  ['\x22'] ++ s.toList.flatMap writeChar ++ ['\x22']

/-- The text of a string; one without a text is written as half a pair. -/
def writeText : Option String → List Char
  | some s => writeString s
  | none => ['\x22', '\\', 'u', 'd', '8', '0', '0', '\x22']

/-! ## On one line -/

mutual

/-- A value on one line. -/
def compact : Json → List Char
  | .null => ['n', 'u', 'l', 'l']
  | .bool true => ['t', 'r', 'u', 'e']
  | .bool false => ['f', 'a', 'l', 's', 'e']
  | .num n => n.toChars
  | .str s => writeText s
  | .arr items => ['['] ++ compactItems items ++ [']']
  | .obj members => ['\x7b'] ++ compactMembers members ++ ['\x7d']

def compactItems : List Json → List Char
  | [] => []
  | [j] => compact j
  | j :: rest => compact j ++ [','] ++ compactItems rest

def compactMembers : List (Option String × Json) → List Char
  | [] => []
  | [(k, j)] => writeText k ++ [':'] ++ compact j
  | (k, j) :: rest => writeText k ++ [':'] ++ compact j ++ [','] ++ compactMembers rest

end

/-! ## One member a line -/

/-- A line feed and two blanks a level. -/
def breakLine (level : Nat) : List Char := '\n' :: List.replicate (2 * level) ' '

mutual

/-- A value over several lines, its members at `level + 1`. -/
def prettyAt (level : Nat) : Json → List Char
  | .arr [] => ['[', ']']
  | .arr items => ['['] ++ prettyItems (level + 1) items ++ breakLine level ++ [']']
  | .obj [] => ['\x7b', '\x7d']
  | .obj members => ['\x7b'] ++ prettyMembers (level + 1) members ++ breakLine level ++ ['\x7d']
  | .null => ['n', 'u', 'l', 'l']
  | .bool true => ['t', 'r', 'u', 'e']
  | .bool false => ['f', 'a', 'l', 's', 'e']
  | .num n => n.toChars
  | .str s => writeText s

/-- Items, each on a line of its own. -/
def prettyItems (level : Nat) : List Json → List Char
  | [] => []
  | [j] => breakLine level ++ prettyAt level j
  | j :: rest => breakLine level ++ prettyAt level j ++ [','] ++ prettyItems level rest

/-- Members, each on a line of its own. -/
def prettyMembers (level : Nat) : List (Option String × Json) → List Char
  | [] => []
  | [(k, j)] => breakLine level ++ writeText k ++ [':', ' '] ++ prettyAt level j
  | (k, j) :: rest =>
    breakLine level ++ writeText k ++ [':', ' '] ++ prettyAt level j ++ [','] ++
      prettyMembers level rest

end

/-- A value over several lines, without a line feed at the end. -/
def pretty (j : Json) : List Char := prettyAt 0 j

end Lookalike.Json
