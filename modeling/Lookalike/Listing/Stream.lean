-- Streams of token lines, and the two ways to cut a listing into them: all of
-- it as one stream, or one stream for each function.
import Lookalike.Listing.Token
import Lookalike.Path

namespace Lookalike

/-! ## Streams -/

/-- What tells streams apart: the listing, the function if there is one, and the raw line at which
the stream starts. -/
structure StreamId where
  source : Path
  function : Option String
  startLine : Nat
  deriving DecidableEq

namespace StreamId

/-- By listing, then by function, then by line. -/
instance : Ord StreamId where
  compare a b :=
    (compare a.source b.source).then
      ((compare a.function b.function).then (compare a.startLine b.startLine))

/-- Two ids of one stream; listings are compared by components. -/
def same (a b : StreamId) : Bool :=
  a.source.same b.source && a.function == b.function && a.startLine == b.startLine

def text (i : StreamId) : String :=
  match i.function with
  | some name => i.source.text ++ "::" ++ name ++ ">" ++ toString i.startLine
  | none => i.source.text

end StreamId

/-- The token lines of a listing or of one function. -/
structure Stream where
  id : StreamId
  lines : List Line
  deriving DecidableEq

/-! ## Segmentation -/

/-- How a listing is cut. -/
inductive Segmentation where
  | wholeFile
  | perFunction
  deriving DecidableEq

/-- The word for a segmentation in files. -/
def Segmentation.name : Segmentation → String
  | wholeFile => "whole_file"
  | perFunction => "per_function"

/-- The segmentation that a word in a file means. -/
def Segmentation.ofName? (s : String) : Option Segmentation :=
  if s = "whole_file" then some .wholeFile
  else if s = "per_function" then some .perFunction
  else none

/-- A raw line of a listing with its number. -/
abbrev RawLine := List Char × Nat

/-- The numbered lines behind the banner. -/
def Normalizer.body (n : Normalizer) (text : List Char) : List RawLine :=
  (Text.lines text).zipIdx.drop n.dialect.headerLines

/-- A line that is neither blank nor indented opens a function. -/
def isHeader (raw : List Char) : Bool :=
  match raw with
  | [] => false
  | c :: _ => !Text.isBlank c

/-- The name of the function that a header opens: what stands between the first `<` and the last
`>`, or else the header without the colons at its end. -/
def functionName (header : List Char) : String :=
  let h := Text.trim header
  let bare := String.ofList (Text.trimEnd (· == ':') h)
  match h.dropWhile (· != '<') with
  | [] => bare
  | _ :: rest =>
    match rest.reverse.dropWhile (· != '>') with
    | [] => bare
    | _ :: back => String.ofList back.reverse

/-- The lines of the whole listing behind the banner. -/
def wholeStream (n : Normalizer) (source : Path) (text : List Char) : Stream :=
  ⟨⟨source, none, n.dialect.headerLines⟩,
    (n.body text).filterMap fun raw => n.line? raw.2 raw.1⟩

/-- The stream of an open function whose lines are held back to front; a function without lines
gives none. -/
def finished : Option Stream → List Stream
  | none => []
  | some s => if s.lines.isEmpty then [] else [{ s with lines := s.lines.reverse }]

/-- Walk over the raw lines: a header closes the open function and opens the next, an indented line
goes to the open function, and a line before the first header is passed over. The lines of the open
function are held back to front. -/
def cutFunctions (n : Normalizer) (source : Path) : Option Stream → List RawLine → List Stream
  | open_, [] => finished open_
  | open_, (raw, number) :: rest =>
    if Text.isBlankLine raw then cutFunctions n source open_ rest
    else if isHeader raw then
      finished open_ ++
        cutFunctions n source (some ⟨⟨source, some (functionName raw), number⟩, []⟩) rest
    else
      match open_, n.line? number raw with
      | some s, some line => cutFunctions n source (some { s with lines := line :: s.lines }) rest
      | _, _ => cutFunctions n source open_ rest

def Segmentation.streams (mode : Segmentation) (n : Normalizer) (source : Path)
    (text : List Char) : List Stream :=
  match mode with
  | .wholeFile => [wholeStream n source text]
  | .perFunction => cutFunctions n source none (n.body text)

end Lookalike
