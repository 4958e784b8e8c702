-- How a report is shown: as JSON, or as a grid with its ranks.
import Lookalike.Json.Number
import Lookalike.Json.Writer
import Lookalike.Query
import Lookalike.Text.Grid

namespace Lookalike

/-! ## Colours -/

/-- A way to set a text off. -/
inductive Colour where
  | green
  | yellow
  | bold

def Colour.code : Colour → String
  | green => "32"
  | yellow => "33"
  | bold => "1"

/-- A text in a colour, unless it is to stay plain. -/
def paint (plain : Bool) (c : Colour) (s : String) : String :=
  if plain then s else "\x1b[" ++ c.code ++ "m" ++ s ++ "\x1b[0m"

/-! ## JSON -/

def Match.toJson (m : Match) : Json :=
  .ofFields [
    ("source", .ofString m.id.source.text),
    ("function", .ofOption m.id.function),
    ("start_line", .ofNat m.id.startLine),
    ("offset", .ofNat m.offset),
    ("line", .ofNat m.line),
    ("distance", .ofNat m.distance),
    ("similarity", .ofFloat m.similarity)]

/-- The fields of a group. -/
def MatchGroup.toJson (g : MatchGroup) : Json :=
  .ofFields [
    ("source", .ofString g.id.source.text),
    ("function", .ofOption g.id.function),
    ("start_line", .ofNat g.id.startLine),
    ("first_offset", .ofNat g.first),
    ("last_offset", .ofNat g.last),
    ("best_similarity", .ofFloat g.best)]

namespace Report

/-- The fields of a report. -/
def toJson (r : Report) : Json :=
  .ofFields [
    ("query", .ofString r.query),
    ("bucket", .ofNat r.bucket.toNat),
    ("bits", .ofNat r.bits),
    ("candidates", .ofNat r.candidates),
    ("matches", .arr (r.ranked.map Match.toJson)),
    ("groups", .arr (r.groups.map MatchGroup.toJson)),
    ("low_confidence", .bool r.lowConfidence)]

/-- Whether all sources are texts; only then there is JSON for the report. -/
def isText (r : Report) : Bool :=
  (r.ranked.all fun m => m.id.source.isText) && r.groups.all fun g => g.id.source.isText

/-! ## Lines -/

/-- The cells of a match; its listing line is counted from one. -/
def cells (rank : Nat) (m : Match) : List String :=
  [toString rank, Decimal.displayFixed 3 m.similarity, toString m.distance, m.id.text,
    toString (m.line + 1), toString m.offset]

def rows (r : Report) : List (List String) :=
  ["rank", "similarity", "distance", "region", "line", "offset"] ::
    r.ranked.zipIdx.map fun (m, i) => cells (i + 1) m

/-- The number of the bucket in base 16. -/
def bucketText (r : Report) : String := "0x" ++ String.ofList (Nat.toDigits 16 r.bucket.toNat)

/-- The lines below the title. -/
def body (plain : Bool) (r : Report) : List String :=
  if r.lowConfidence then
    [paint plain .yellow "Low confidence: the index carries no discriminative symbols"]
  else if r.ranked.isEmpty then
    ["No similar regions found (bucket " ++ r.bucketText ++ ", " ++ toString r.candidates ++
      " candidates)"]
  else
    [Text.Grid.text r.rows,
      toString r.ranked.length ++ " of " ++ toString r.candidates ++ " candidates in bucket " ++
        r.bucketText ++ "; " ++ toString r.groups.length ++ " contiguous " ++
        (if r.groups.length = 1 then "group" else "groups")]

def lines (plain : Bool) (r : Report) : List String :=
  (paint plain .bold "Query:" ++ " " ++ r.query) :: r.body plain

end Report
end Lookalike
