-- A text between double quotes, as messages show it: a quote and a backslash
-- are escaped, a character that cannot be seen is shown by its number.
import Lookalike.Text.Extending
import Lookalike.Text.Unprintable

namespace Lookalike.Text

/-- The digits of a code point in base 16, in lower case. -/
def codePointDigits (c : Char) : List Char := Nat.toDigits 16 c.toNat

def quoteChar (c : Char) : List Char :=
  if c == '\x00' then ['\\', '0']
  else if c == '\t' then ['\\', 't']
  else if c == '\r' then ['\\', 'r']
  else if c == '\n' then ['\\', 'n']
  else if c == '\\' then ['\\', '\\']
  else if c == '\x22' then ['\\', '\x22']
  else if isExtending c || isUnprintable c then
    ['\\', 'u', '\x7b'] ++ codePointDigits c ++ ['\x7d']
  else [c]

def quoted (s : String) : String :=
  String.ofList (['\x22'] ++ s.toList.flatMap quoteChar ++ ['\x22'])

end Lookalike.Text
