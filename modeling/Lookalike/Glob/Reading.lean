-- Reading the notation of globs: stars, question marks, classes of characters,
-- choices between braces, and a double star for any number of path steps.
import Lookalike.Failure
import Lookalike.Glob.Pattern

namespace Lookalike.Glob

/-! ## Pieces -/

/-- How a glob is read: whether a star and a question mark match separators, and whether a class
without an end stands for itself. -/
structure Style where
  crossing : Bool
  openClass : Bool

/-- The style of settings. -/
def Style.setting : Style := ⟨true, false⟩

/-- The style of ignore files. -/
def Style.ignoreFile : Style := ⟨false, true⟩

/-- What a star and a question mark match. -/
def Style.wild (s : Style) : ByteSet := if s.crossing then .every else .inName

/-- A piece of a glob. A double star is told apart by its place: in front of a step, at the end, or
between two steps. -/
inductive Piece where
  | leading
  | trailing
  | between
  | plain (pattern : Pattern)
  deriving DecidableEq

/-- The separator of paths. -/
def slash : Pattern := .one (.only 0x2F)

/-- Any text. -/
def anything : Pattern := .many .every

/-- What a piece matches. A double star takes the separators next to it along. -/
def Piece.pattern : Piece → Pattern
  | leading => .either (.either slash .empty) (.both anything slash)
  | trailing => .both slash anything
  | between => .either slash (.both slash (.both anything slash))
  | plain p => p

/-- The pattern of pieces that are held back to front. -/
def patternOf (back : List Piece) : Pattern := .sequence (back.reverse.map Piece.pattern)

/-- The pattern of a whole glob. A double star alone matches everything. -/
def wholePattern (back : List Piece) : Pattern :=
  if back = [.leading] then anything else patternOf back

/-! ## Classes -/

/-- What has been read of a class: its spans, last first, and whether a dash waits for the end of
a span. -/
structure Spans where
  back : List (Char × Char)
  dash : Bool

/-- How the reading of a class ends. -/
inductive ClassEnd where
  | closed (spans : List (Char × Char)) (rest : List Char)
  | backwards
  | unclosed

/-- The end of an open span; none when it lies before the beginning. -/
def Spans.close (s : Spans) (c : Char) : Option Spans :=
  match s.back with
  | (a, _) :: rest => if c < a then none else some ⟨(a, c) :: rest, false⟩
  | [] => some ⟨[(c, c)], false⟩

/-- Read a class up to its bracket. A bracket and a dash in the first place stand for
themselves, and so does a dash in the last one. -/
def readClass (first : Bool) (s : Spans) : List Char → ClassEnd
  | [] => .unclosed
  | c :: rest =>
    if c == ']' && !first then
      .closed ((if s.dash then ('-', '-') :: s.back else s.back).reverse) rest
    else if c == '-' && !first && !s.dash then readClass false ⟨s.back, true⟩ rest
    else if s.dash then
      match s.close c with
      | some s => readClass false s rest
      | none => .backwards
    else readClass false ⟨(c, c) :: s.back, false⟩ rest

/-- The bytes of a span. A character of several bytes stands for each of them, and a span runs
from the last byte of its beginning to the first byte of its end. -/
def spanBytes (r : Char × Char) : List (UInt8 × UInt8) :=
  let first := String.utf8EncodeChar r.1
  let last := String.utf8EncodeChar r.2
  let alone (bs : Bytes) : List (UInt8 × UInt8) := bs.map fun b => (b, b)
  if r.1 = r.2 then alone first
  else
    match first.getLast?, last with
    | some a, b :: rest => alone first.dropLast ++ [(a, b)] ++ alone rest
    | _, _ => []

/-- One byte of the spans, or one byte of none of them. -/
def classPattern (negated : Bool) (spans : List (Char × Char)) : Pattern :=
  .one ⟨negated, spans.flatMap spanBytes⟩

/-! ## Reading -/

/-- A choice that is not closed yet: its finished branches, last first, and the pieces in front of
it. -/
structure OpenChoice where
  branches : List Pattern
  before : List Piece

/-- The state of a reading: the open choices, innermost first, the pieces of the current branch,
last first, the character read last, and whether a bracket stands for itself. -/
structure State where
  choices : List OpenChoice
  back : List Piece
  last : Option Char
  plainBrackets : Bool

namespace State

/-- Nothing has been read. -/
def start : State := ⟨[], [], none, false⟩

/-- One more piece, read up to the character `c`. -/
def push (s : State) (c : Char) (p : Piece) : State :=
  { s with back := p :: s.back, last := some c }

/-- A character that stands for itself. -/
def pushChar (s : State) (c : Char) : State :=
  s.push c (.plain (.literal (String.utf8EncodeChar c)))

/-- A star in the place of `n` stars. -/
def pushStars (s : State) (style : Style) (n : Nat) : State :=
  { s with back := List.replicate n (.plain (.many style.wild)) ++ s.back, last := some '*' }

/-- The last piece gives way to a double star, unless it is one already. -/
def pushSteps (s : State) (c : Char) (p : Piece) : State :=
  match s.back with
  | .leading :: _ => { s with last := some c }
  | .trailing :: _ => { s with last := some c }
  | _ :: rest => { s with back := p :: rest, last := some c }
  | [] => s.push c p

/-- The branches of a choice, from which empty ones are dropped. -/
def branches (s : State) (o : OpenChoice) : List Pattern :=
  ((patternOf s.back :: o.branches).reverse).filter fun p => p != .empty

/-- Two stars are read: what they mean, and what is left. They stand for path steps where they fill
the room between separators. -/
def doubleStar (s : State) (style : Style) (before : Option Char) (rest : List Char) :
    State × List Char :=
  let plain := (s.pushStars style 2, rest)
  if s.back.isEmpty then
    match rest with
    | [] => (s.push '*' .leading, [])
    | c :: rest' => if c == '/' then (s.push '/' .leading, rest') else plain
  else if before != some '/' &&
      (s.choices.isEmpty || (before != some ',' && before != some '\x7b')) then plain
  else
    match rest with
    | [] => (s.pushSteps '*' .trailing, [])
    | c :: rest' =>
      if (c == ',' || c == '\x7d') && !s.choices.isEmpty then (s.pushSteps '*' .trailing, rest)
      else if c == '/' then (s.pushSteps '/' .between, rest')
      else plain

/-- A class begins behind its bracket. -/
def bracket (s : State) (style : Style) (rest : List Char) : Option (State × List Char) :=
  let (negated, inside) :=
    match rest with
    | c :: rest' => if c == '!' || c == '^' then (true, rest') else (false, rest)
    | [] => (false, rest)
  match readClass true ⟨[], false⟩ inside with
  | .closed spans rest => some (s.push ']' (.plain (classPattern negated spans)), rest)
  | .backwards => none
  | .unclosed =>
    if style.openClass then some ({ s.pushChar '[' with plainBrackets := true }, rest) else none

/-- Read one piece that begins with `c`; the state behind it, and what is left. -/
def step (s : State) (style : Style) (c : Char) (rest : List Char) : Option (State × List Char) :=
  match c with
  | '?' => some (s.push c (.plain (.one style.wild)), rest)
  | '*' =>
    match rest with
    | '*' :: rest => some (s.doubleStar style s.last rest)
    | _ => some (s.pushStars style 1, rest)
  | '[' => if s.plainBrackets then some (s.pushChar c, rest) else s.bracket style rest
  | '\x7b' =>
    some ({ s with choices := ⟨[], s.back⟩ :: s.choices, back := [], last := some c }, rest)
  | '\x7d' =>
    match s.choices with
    | [] => none
    | o :: outer =>
      some ({ s with
        choices := outer, back := .plain (.choice (s.branches o)) :: o.before,
        last := some c }, rest)
  | ',' =>
    match s.choices with
    | [] => some (s.pushChar c, rest)
    | o :: outer =>
      some ({ s with
        choices := ⟨patternOf s.back :: o.branches, o.before⟩ :: outer, back := [],
        last := some c }, rest)
  | '\\' =>
    match rest with
    | [] => none
    | d :: rest => some (s.pushChar d, rest)
  | c => some (s.pushChar c, rest)

end State

/-- Read all pieces; `fuel` is at least the number of characters. -/
def readPieces (style : Style) : Nat → State → List Char → Option State
  | _, s, [] => some s
  | 0, _, _ :: _ => none
  | fuel + 1, s, c :: rest =>
    match s.step style c rest with
    | some (s, rest) => readPieces style fuel s rest
    | none => none

/-- The pattern of a glob; none when a class or a choice has no end, a choice no beginning, a span
runs backwards, or a backslash stands at the end. -/
def read? (style : Style) (cs : List Char) : Option Pattern := do
  let s ← readPieces style cs.length .start cs
  if s.choices.isEmpty then return wholePattern s.back else none

/-- The pattern of a glob of the settings. -/
def read (text : String) : Attempt Pattern :=
  Attempt.ofOption (.compilingGlob text) .badGlob (read? .setting text.toList)

end Lookalike.Glob
