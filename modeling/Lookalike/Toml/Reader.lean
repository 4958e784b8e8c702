-- Reading a TOML document: keys with values, headers of tables, arrays and
-- inline tables.
import Lookalike.Toml.Scalar
import Lookalike.Toml.Text
import Lookalike.Toml.Tree

namespace Lookalike.Toml

/-! ## Keys -/

/-- A character of a key without quotes. -/
def isKeyChar (c : Char) : Bool := c.isAlphanum || c == '_' || c == '-'

/-- One name of a key. -/
def readName? (cs : List Char) : Option (String × List Char) :=
  match cs.takeWhile isKeyChar with
  | [] => readShort? cs
  | name => some (String.ofList name, cs.dropWhile isKeyChar)

/-- The names of a key with dots between them: those in front, and the last one. -/
def readKey? : Nat → List Char → Option ((List String × String) × List Char)
  | 0, _ => none
  | fuel + 1, cs => do
    let (name, rest) ← readName? (skipBlanks cs)
    match skipBlanks rest with
    | '.' :: rest => do
      let ((path, key), rest) ← readKey? fuel rest
      return ((name :: path, key), rest)
    | rest => return (([], name), rest)

/-! ## Values -/

mutual

/-- A value; `fuel` bounds the number of steps. -/
def readValue? : Nat → List Char → Option (Setting × List Char)
  | 0, _ => none
  | fuel + 1, cs =>
    match cs with
    | '[' :: rest => (readItems? fuel rest).map fun r => (.list r.1, r.2)
    | '\x7b' :: rest => (readMembers? fuel [] rest).map fun r => (.table (members r.1), r.2)
    | '\x22' :: _ => (readText? cs).map fun r => (.text r.1, r.2)
    | '\x27' :: _ => (readText? cs).map fun r => (.text r.1, r.2)
    | _ => do
      let (atom, rest) := splitAtom cs
      return (← scalar? atom, rest)

/-- The items of an array up to its bracket; a comma may stand behind the last one. -/
def readItems? : Nat → List Char → Option (List Setting × List Char)
  | 0, _ => none
  | fuel + 1, cs =>
    match skipRoom false cs with
    | ']' :: rest => some ([], rest)
    | cs =>
      match readValue? fuel cs with
      | none => none
      | some (v, rest) =>
        match skipRoom false rest with
        | ',' :: rest => (readItems? fuel rest).map fun r => (v :: r.1, r.2)
        | ']' :: rest => some ([v], rest)
        | _ => none

/-- The members of an inline table up to its brace, added to the ones read so far; a comma may
stand behind the last one. -/
def readMembers? : Nat → Entries → List Char → Option (Entries × List Char)
  | 0, _, _ => none
  | fuel + 1, es, cs =>
    match skipRoom false cs with
    | '\x7d' :: rest => some (es, rest)
    | cs =>
      match readKey? (cs.length + 1) cs with
      | some ((path, key), '=' :: rest) =>
        match readValue? fuel (skipBlanks rest) with
        | none => none
        | some (v, rest) =>
          match assign path key v .header es with
          | none => none
          | some es =>
            match skipRoom false rest with
            | ',' :: rest => readMembers? fuel es rest
            | '\x7d' :: rest => some (es, rest)
            | _ => none
      | _ => none

end

/-! ## Documents -/

/-- A document so far: the table that lines belong to, and all entries. -/
structure Document where
  current : List String
  entries : Entries

/-- The end of a line, with a comment in front of it. -/
def endLine? (cs : List Char) : Option (List Char) :=
  let cs := skipBlanks cs
  let cs := if cs.head? == some '#' then cs.dropWhile isPlain else cs
  match cs with
  | [] => some []
  | '\n' :: rest => some rest
  | '\r' :: '\n' :: rest => some rest
  | _ => none

/-- A line that is not empty: a header of a table, a header of a row, or a key with its value. -/
def readLine? (fuel : Nat) (d : Document) (cs : List Char) : Option (Document × List Char) :=
  match cs with
  | '[' :: '[' :: rest => do
    let ((path, key), rest) ← readKey? fuel rest
    match rest with
    | ']' :: ']' :: rest => return (⟨path ++ [key], ← openRow path key d.entries⟩, rest)
    | _ => none
  | '[' :: rest => do
    let ((path, key), rest) ← readKey? fuel rest
    match rest with
    | ']' :: rest => return (⟨path ++ [key], ← openTable path key d.entries⟩, rest)
    | _ => none
  | _ => do
    let ((path, key), rest) ← readKey? fuel cs
    match rest with
    | '=' :: rest =>
      let (v, rest) ← readValue? fuel (skipBlanks rest)
      return (⟨d.current, ← assignBelow d.current path key v d.entries⟩, rest)
    | _ => none

/-- All lines; `fuel` bounds the number of steps. -/
def readLines? : Nat → Document → List Char → Option Document
  | 0, _, _ => none
  | fuel + 1, d, cs =>
    match skipRoom false cs with
    | [] => some d
    | c :: rest =>
      match readLine? fuel d (c :: rest) with
      | none => none
      | some (d, rest) =>
        match endLine? rest with
        | none => none
        | some rest => readLines? fuel d rest

/-- A text without a byte order mark in front. -/
def unmarked : List Char → List Char
  | '\ufeff' :: rest => rest
  | cs => cs

/-- The members of a whole document. -/
def read? (cs : List Char) : Option (List (String × Setting)) :=
  (readLines? (2 * cs.length + 2) ⟨[], []⟩ (unmarked cs)).map fun d => members d.entries

end Lookalike.Toml
