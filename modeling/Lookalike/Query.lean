-- A query: the first window of a stream, the records of its bucket, their
-- distances, the ranking and the runs of neighbouring places.
import Lookalike.Index.Basic

namespace Lookalike

/-! ## Reports -/

/-- What a query asks for. -/
structure QueryOptions where
  width : Nat
  limit : Option Nat
  minSimilarity : Float

/-- A record that was found. -/
structure Match where
  id : StreamId
  offset : Nat
  line : Nat
  distance : Nat
  similarity : Float

/-- A run of found records at consecutive places of one stream. -/
structure MatchGroup where
  id : StreamId
  first : Nat
  last : Nat
  best : Float

/-- The number of windows of a run. -/
def MatchGroup.windows (g : MatchGroup) : Nat := g.last - g.first + 1

/-- The answer to a query. -/
structure Report where
  query : String
  bucket : UInt64
  bits : Nat
  candidates : Nat
  ranked : List Match
  groups : List MatchGroup
  lowConfidence : Bool

/-- The answer of an index that tells no windows apart. -/
def Report.degenerate (query : String) : Report := ⟨query, 0, 0, 0, [], [], true⟩

/-! ## Ranking -/

/-- More similar first, then by stream and place. -/
def Match.compareRank (a b : Match) : Ordering :=
  (compare (Decimal.orderKey b.similarity) (Decimal.orderKey a.similarity)).then
    ((compare a.id b.id).then (compare a.offset b.offset))

/-- Matches by rank; equal ones keep their order. -/
def rankMatches (ms : List Match) : List Match :=
  ms.mergeSort fun a b => (a.compareRank b).isLE

def limited (limit : Option Nat) (ms : List Match) : List Match :=
  match limit with
  | none => ms
  | some k => ms.take k

/-! ## Groups -/

/-- The larger of two similarities. -/
def larger (x y : Float) : Float := if x < y then y else x

/-- Whether a match continues a run. -/
def MatchGroup.continues (g : MatchGroup) (m : Match) : Bool :=
  g.id.same m.id && m.offset == g.last + 1

/-- The runs of matches in the order of their bucket, with an open run in front. -/
def groupFrom (g : MatchGroup) : List Match → List MatchGroup
  | [] => [g]
  | m :: rest =>
    if g.continues m then groupFrom ⟨g.id, g.first, m.offset, larger g.best m.similarity⟩ rest
    else g :: groupFrom ⟨m.id, m.offset, m.offset, m.similarity⟩ rest

/-- The runs of matches in the order of their bucket. -/
def groupMatches : List Match → List MatchGroup
  | [] => []
  | m :: rest => groupFrom ⟨m.id, m.offset, m.offset, m.similarity⟩ rest

/-! ## Engines -/

/-- An index that is ready for queries: its table fits, and it has an encoder unless it is
degenerate. -/
structure Engine where
  index : Index
  encoder : Option Encoder
  bits : Nat
  options : QueryOptions

namespace Engine

/-- An engine, if the table and the bucket width are the ones of the index. -/
def make (index : Index) (table : ThresholdTable) (options : QueryOptions) : Attempt Engine := do
  index.checkTable table options.width
  if index.header.degenerate then return ⟨index, none, table.size, options⟩
  else return ⟨index, some (← Encoder.make table options.width), table.size, options⟩

/-- A record beside the fingerprint of a query. -/
def toMatch (e : Engine) (f : Fingerprint) (r : Record) : Match :=
  ⟨r.id, r.offset, r.line, r.full.hamming f.full, r.full.similarity f.full e.bits⟩

/-- The matches of a fingerprint that are similar enough, in the order of the bucket. -/
def retained (e : Engine) (f : Fingerprint) : List Match :=
  ((e.index.lookup f.bucket).map (e.toMatch f)).filter
    fun m => e.options.minSimilarity ≤ m.similarity

/-- Ask for the first window of a stream. -/
def query (e : Engine) (s : Stream) : Attempt Report :=
  match firstWindow? s.lines e.index.header.window with
  | none => .error (.of (.queryTooShort s.lines.length e.index.header.window))
  | some w =>
    match e.encoder with
    | none => .ok (.degenerate s.id.text)
    | some encoder =>
      let f := encoder.encode w.counts
      let found := e.retained f
      .ok ⟨s.id.text, f.bucket, e.bits, (e.index.lookup f.bucket).length,
        limited e.options.limit (rankMatches found), groupMatches found, false⟩

end Engine

/-- Ask an index for the first window of a stream that was read with the rules of a normalizer. -/
def query (s : Stream) (index : Index) (table : ThresholdTable) (n : Normalizer)
    (options : QueryOptions) : Attempt Report := do
  index.checkRules n.identity
  (← Engine.make index table options).query s

end Lookalike
