-- Numbers, dates and words in TOML. A whole number fits 64 bits with a sign, a
-- double is finite unless it is written as a word, and a date is kept as its
-- text.
import Lookalike.Settings.Value

namespace Lookalike.Toml

open Decimal

-- Powers are those of the core library, whatever else is imported.
attribute [local instance (high)] instPowNat

/-! ## Numbers -/

/-- Digits with single underscores between them, and what is left. The underscores are dropped. -/
def readDigits (ok : Char → Bool) : List Char → List Char × List Char
  | [] => ([], [])
  | [c] => if ok c then ([c], []) else ([], [c])
  | c :: '_' :: d :: rest =>
    if ok c then
      if ok d then
        let r := readDigits ok (d :: rest)
        (c :: r.1, r.2)
      else ([c], '_' :: d :: rest)
    else ([], c :: '_' :: d :: rest)
  | c :: rest =>
    if ok c then
      let r := readDigits ok rest
      (c :: r.1, r.2)
    else ([], c :: rest)

/-- A whole number of 64 bits with a sign. -/
def integer? (i : Int) : Option Setting :=
  if -(2 ^ (63 : Nat)) ≤ i && i < 2 ^ (63 : Nat) then some (.int i) else none

/-- The value of a digit in any base up to 16. -/
def digitValue (c : Char) : Nat :=
  if c ≤ '9' then c.toNat - 48 else if c ≤ 'F' then c.toNat - 55 else c.toNat - 87

/-- Whether a character is a digit of a base up to 16. -/
def isDigitOf (base : Nat) (c : Char) : Bool :=
  (isDigit c || ('a' ≤ c && c ≤ 'f') || ('A' ≤ c && c ≤ 'F')) && digitValue c < base

/-- A number in base 2, 8 or 16, behind its mark. -/
def basedNumber? (base : Nat) (cs : List Char) : Option Setting :=
  match readDigits (isDigitOf base) cs with
  | (d :: ds, []) => integer? ((d :: ds).foldl (fun n c => n * base + digitValue c) 0 : Nat)
  | _ => none

/-- Digits behind a mark that must be there if anything is. -/
def markedDigits? (isMark : Char → Bool) (cs : List Char) : Option (List Char × List Char) :=
  match cs with
  | c :: rest =>
    if isMark c then
      match readDigits isDigit rest with
      | ([], _) => none
      | r => some r
    else some ([], cs)
  | [] => some ([], [])

def power? : List Char → Option (Option Exponent)
  | [] => some none
  | c :: rest =>
    if c == 'e' || c == 'E' then
      let (negative, ds) := splitSign rest
      match readDigits isDigit ds with
      | (d :: ds, []) => some (some ⟨negative, d :: ds⟩)
      | _ => none
    else none

/-- A number in base 10 behind its sign. -/
def plainNumber? (negative : Bool) (cs : List Char) : Option Setting := do
  match readDigits isDigit cs with
  | ([], _) => none
  | ('0' :: _ :: _, _) => none
  | (whole, []) => integer? (if negative then -(ofDigits whole : Int) else ofDigits whole)
  | (whole, rest) =>
    let (fraction, rest) ← markedDigits? (· == '.') rest
    let x := Numeral.toFloat ⟨negative, whole, fraction, ← power? rest⟩
    if x.isFinite then return .float x else none

def number? (cs : List Char) : Option Setting :=
  match cs with
  | '0' :: 'x' :: ds => basedNumber? 16 ds
  | '0' :: 'o' :: ds => basedNumber? 8 ds
  | '0' :: 'b' :: ds => basedNumber? 2 ds
  | _ =>
    let (negative, rest) := splitSign cs
    match rest with
    | ['i', 'n', 'f'] => some (.float (nearest negative (2 ^ (1100 : Nat)) 1))
    | ['n', 'a', 'n'] => some (.float (0.0 / 0.0))
    | _ => plainNumber? negative rest

/-! ## Dates and times -/

/-- A number of two digits up to a limit. -/
def twoDigits? (least most : Nat) (a b : Char) : Option (List Char) :=
  let n := ofDigits [a, b]
  if isDigit a && isDigit b && least ≤ n && n ≤ most then some [a, b] else none

def daysOf (year month : Nat) : Nat :=
  if month = 2 then if year % 4 = 0 && (year % 100 != 0 || year % 400 = 0) then 29 else 28
  else if [4, 6, 9, 11].contains month then 30
  else 31

/-- A date, and what is left. -/
def date? : List Char → Option (List Char × List Char)
  | y₁ :: y₂ :: y₃ :: y₄ :: '-' :: m₁ :: m₂ :: '-' :: d₁ :: d₂ :: rest => do
    let year := [y₁, y₂, y₃, y₄]
    if year.all isDigit then
      let month ← twoDigits? 1 12 m₁ m₂
      let day ← twoDigits? 1 (daysOf (ofDigits year) (ofDigits month)) d₁ d₂
      return (year ++ ['-'] ++ month ++ ['-'] ++ day, rest)
    else none
  | _ => none

/-- Parts of a second: nine digits count, and zeros at the end are dropped. -/
def secondParts? : List Char → Option (List Char × List Char)
  | '.' :: rest =>
    match spanDigits rest with
    | ([], _) => none
    | (ds, rest) =>
      match ((ds.take 9).reverse.dropWhile (· == '0')).reverse with
      | [] => some ([], rest)
      | kept => some ('.' :: kept, rest)
  | rest => some ([], rest)

/-- A time of day, and what is left. The seconds may be missing. -/
def time? : List Char → Option (List Char × List Char)
  | h₁ :: h₂ :: ':' :: m₁ :: m₂ :: rest => do
    let hour ← twoDigits? 0 23 h₁ h₂
    let minute ← twoDigits? 0 59 m₁ m₂
    match rest with
    | ':' :: s₁ :: s₂ :: rest => do
      let second ← twoDigits? 0 60 s₁ s₂
      let (parts, rest) ← secondParts? rest
      return (hour ++ [':'] ++ minute ++ [':'] ++ second ++ parts, rest)
    | rest => return (hour ++ [':'] ++ minute, rest)
  | _ => none

/-- The distance from universal time. -/
def zone? : List Char → Option (List Char)
  | [] => some []
  | ['Z'] => some ['Z']
  | ['z'] => some ['Z']
  | [sign, h₁, h₂, ':', m₁, m₂] => do
    let hour ← twoDigits? 0 23 h₁ h₂
    let minute ← twoDigits? 0 59 m₁ m₂
    if sign == '+' || sign == '-' then
      let sign := if hour ++ minute = ['0', '0', '0', '0'] then '+' else sign
      return sign :: hour ++ [':'] ++ minute
    else none
  | _ => none

/-- A date, a time, or both, as text. -/
def moment? (cs : List Char) : Option (List Char) :=
  match date? cs with
  | some (date, []) => some date
  | some (date, c :: rest) => do
    if c == 'T' || c == 't' || c == ' ' then
      let (time, rest) ← time? rest
      return date ++ ['T'] ++ time ++ (← zone? rest)
    else none
  | none =>
    match time? cs with
    | some (time, []) => some time
    | _ => none

/-! ## Any value without quotes -/

/-- A character of a word, a number or a date. -/
def isAtomChar (c : Char) : Bool :=
  c.isAlphanum || c == '_' || c == '+' || c == '-' || c == '.' || c == ':'

/-- The value of a word, a number or a date. -/
def scalar? (cs : List Char) : Option Setting :=
  if cs = ['t', 'r', 'u', 'e'] then some (.bool true)
  else if cs = ['f', 'a', 'l', 's', 'e'] then some (.bool false)
  else
    match number? cs with
    | some s => some s
    | none => (moment? cs).map fun t => .text (String.ofList t)

/-- The characters of a word, a number or a date. A blank may stand between date and time. -/
def splitAtom (cs : List Char) : List Char × List Char :=
  let atom := cs.takeWhile isAtomChar
  let rest := cs.drop atom.length
  match date? atom, rest with
  | some (_, []), ' ' :: c :: rest' =>
    if isDigit c then
      let time := (c :: rest').takeWhile isAtomChar
      (atom ++ [' '] ++ time, (c :: rest').drop time.length)
    else (atom, rest)
  | _, _ => (atom, rest)

end Lookalike.Toml
