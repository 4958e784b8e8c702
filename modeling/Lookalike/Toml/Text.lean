-- Texts in TOML: what may stand in one, escapes, and the four kinds of quotes.
-- Also the room between values: blanks, line ends and comments.

namespace Lookalike.Toml

/-! ## Characters -/

def isBlank (c : Char) : Bool := c == ' ' || c == '\t'

/-- A character that may stand in a comment and in a text: a tab, or anything that controls
nothing. -/
def isPlain (c : Char) : Bool := c == '\t' || (0x20 ≤ c.toNat && c.toNat != 0x7F)

def skipBlanks (cs : List Char) : List Char := cs.dropWhile isBlank

/-- Pass over blanks, line ends and comments; `inComment` tells whether a comment is open. -/
def skipRoom (inComment : Bool) : List Char → List Char
  | [] => []
  | '\n' :: rest => skipRoom false rest
  | '\r' :: '\n' :: rest => skipRoom false rest
  | c :: rest =>
    if inComment then if isPlain c then skipRoom true rest else c :: rest
    else if isBlank c then skipRoom false rest
    else if c == '#' then skipRoom true rest
    else c :: rest

/-! ## Escapes -/

/-- The character that a letter stands for behind a backslash. -/
def escape? : Char → Option Char
  | 'b' => some '\x08'
  | 't' => some '\t'
  | 'n' => some '\n'
  | 'f' => some '\x0c'
  | 'r' => some '\r'
  | 'e' => some '\x1b'
  | '\x22' => some '\x22'
  | '\\' => some '\\'
  | _ => none

/-- The value of a digit in base 16. -/
def hexValue? (c : Char) : Option Nat :=
  if '0' ≤ c && c ≤ '9' then some (c.toNat - 48)
  else if 'a' ≤ c && c ≤ 'f' then some (c.toNat - 87)
  else if 'A' ≤ c && c ≤ 'F' then some (c.toNat - 55)
  else none

/-- The character of a code point in base 16. -/
def codePoint? (ds : List Char) : Option Char := do
  let n := (← ds.mapM hexValue?).foldl (fun n d => n * 16 + d) 0
  if h : n.isValidChar then return Char.ofNatAux n h else none

/-- Add a character in front of the text that is still to be read. -/
def prepend (c : Char) (read : Option (List Char × List Char)) : Option (List Char × List Char) :=
  read.map fun r => (c :: r.1, r.2)

/-- Add the character of a code point in front of the text that is still to be read. -/
def prependCode (ds : List Char) (read : Option (List Char × List Char)) :
    Option (List Char × List Char) :=
  match codePoint? ds with
  | some c => prepend c read
  | none => none

/-! ## Texts on one line -/

/-- The text up to a single quote, as it stands, and what is left. -/
def readLiteral? : List Char → Option (List Char × List Char)
  | [] => none
  | '\x27' :: rest => some ([], rest)
  | c :: rest => if isPlain c then prepend c (readLiteral? rest) else none

/-- The text up to a double quote with its escapes read, and what is left. -/
def readBasic? : List Char → Option (List Char × List Char)
  | [] => none
  | '\x22' :: rest => some ([], rest)
  | '\\' :: 'u' :: a :: b :: c :: d :: rest => prependCode [a, b, c, d] (readBasic? rest)
  | '\\' :: 'U' :: a :: b :: c :: d :: e :: f :: g :: h :: rest =>
    prependCode [a, b, c, d, e, f, g, h] (readBasic? rest)
  | '\\' :: 'x' :: a :: b :: rest => prependCode [a, b] (readBasic? rest)
  | '\\' :: c :: rest =>
    match escape? c with
    | some c => prepend c (readBasic? rest)
    | none => none
  | c :: rest => if isPlain c && c != '\\' then prepend c (readBasic? rest) else none

/-! ## Texts over several lines -/

/-- Three quotes end a text; one or two more in front of them belong to it. -/
def closing? (quote : Char) : List Char → Option (List Char × List Char)
  | a :: b :: c :: rest =>
    if a == quote && b == quote && c == quote then
      match rest with
      | d :: e :: rest' =>
        if d == quote && e == quote then some ([d, e], rest')
        else if d == quote then some ([d], e :: rest')
        else some ([], rest)
      | [d] => if d == quote then some ([d], []) else some ([], rest)
      | [] => some ([], rest)
    else none
  | _ => none

/-- The text up to three single quotes, as it stands, and what is left. -/
def readLongLiteral? : List Char → Option (List Char × List Char)
  | [] => none
  | '\r' :: '\n' :: rest => prepend '\n' (readLongLiteral? rest)
  | c :: rest =>
    match closing? '\x27' (c :: rest) with
    | some r => some r
    | none => if isPlain c || c == '\n' then prepend c (readLongLiteral? rest) else none

/-- What a text over several lines passes over: nothing, blanks up to the line end behind a
backslash, or blanks and line ends behind that. -/
inductive Gap where
  | none
  | blanks
  | lines
  deriving DecidableEq

/-- The text up to three double quotes with its escapes read, and what is left. A backslash at the
end of a line takes away the room up to the next character. -/
def readLongBasic? (gap : Gap) : List Char → Option (List Char × List Char)
  | [] => none
  | '\r' :: '\n' :: rest =>
    if gap = .none then prepend '\n' (readLongBasic? .none rest) else readLongBasic? .lines rest
  | '\\' :: 'u' :: a :: b :: c :: d :: rest =>
    if gap = .blanks then none else prependCode [a, b, c, d] (readLongBasic? .none rest)
  | '\\' :: 'U' :: a :: b :: c :: d :: e :: f :: g :: h :: rest =>
    if gap = .blanks then none
    else prependCode [a, b, c, d, e, f, g, h] (readLongBasic? .none rest)
  | '\\' :: 'x' :: a :: b :: rest =>
    if gap = .blanks then none else prependCode [a, b] (readLongBasic? .none rest)
  | c :: rest =>
    if gap != .none && isBlank c then readLongBasic? gap rest
    else if gap != .none && c == '\n' then readLongBasic? .lines rest
    else if gap = .blanks then none
    else
      match closing? '\x22' (c :: rest) with
      | some r => some r
      | none =>
        if c == '\\' then
          match rest with
          | [] => none
          | d :: rest' =>
            match escape? d with
            | some d => prepend d (readLongBasic? .none rest')
            | none => readLongBasic? .blanks (d :: rest')
        else if isPlain c || c == '\n' then prepend c (readLongBasic? .none rest)
        else none

/-- A line end right behind the quotes does not count. -/
def skipFirstLine : List Char → List Char
  | '\n' :: rest => rest
  | '\r' :: '\n' :: rest => rest
  | cs => cs

/-! ## Any text -/

/-- A text on one line in either kind of quotes. -/
def readShort? : List Char → Option (String × List Char)
  | '\x22' :: rest => (readBasic? rest).map fun r => (String.ofList r.1, r.2)
  | '\x27' :: rest => (readLiteral? rest).map fun r => (String.ofList r.1, r.2)
  | _ => none

def readText? : List Char → Option (String × List Char)
  | '\x22' :: '\x22' :: '\x22' :: rest =>
    (readLongBasic? .none (skipFirstLine rest)).map fun r => (String.ofList r.1, r.2)
  | '\x27' :: '\x27' :: '\x27' :: rest =>
    (readLongLiteral? (skipFirstLine rest)).map fun r => (String.ofList r.1, r.2)
  | cs => readShort? cs

end Lookalike.Toml
