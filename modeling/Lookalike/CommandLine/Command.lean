-- The commands with their arguments, as values of the types they mean.
import Lookalike.CommandLine.Reading

namespace Lookalike.CommandLine

/-! ## Commands -/

structure CorpusChoice where
  roots : List Path
  segmentation : Option Segmentation
  ignored : List String

/-- How a report is shown. -/
inductive Shape where
  | grid
  | json
  deriving DecidableEq

structure QueryChoice where
  listing : Path
  table : Option Path
  index : Option Path
  width : Option Nat
  limit : Option Nat
  minSimilarity : Option Float
  headerLines : Option Nat
  segmentation : Option Segmentation
  shape : Shape

/-- A command. What is left out is taken from the settings. -/
inductive Command where
  | init (dir : Path) (force : Bool)
  | table (corpus : CorpusChoice) (window : Option Nat) (percentile : Option Float)
      (output : Option Path)
  | index (corpus : CorpusChoice) (table : Option Path) (width : Option Nat)
      (output : Option Path)
  | build (corpus : CorpusChoice) (window : Option Nat) (percentile : Option Float)
      (width : Option Nat) (table index : Option Path)
  | query (choice : QueryChoice)

/-- A command, and what holds for every command. -/
structure Order where
  command : Command
  quiet : Bool
  plain : Bool
  settings : Option Path

/-! ## From what was given -/

namespace Given

/-- The segmentation that was asked for. -/
def segmentation? (g : Given) : Option Segmentation :=
  (g.texts "segment").head?.bind segmentationOf?

def corpus (g : Given) : CorpusChoice := ⟨g.paths "corpus", g.segmentation?, g.texts "ignore"⟩

/-- The choice of a query that was given; a report is a grid unless JSON was asked for. -/
def query (g : Given) : QueryChoice where
  listing := (g.path? "query").getD ⟨""⟩
  table := g.path? "table"
  index := g.path? "index"
  width := g.count? "sb-size"
  limit := g.count? "limit"
  minSimilarity := g.number? "min-similarity"
  headerLines := g.count? "header-lines"
  segmentation := g.segmentation?
  shape := if g.texts "format" = ["json"] then .json else .grid

end Given

def Command.ofGiven? (word : String) (g : Given) : Option Command :=
  match word with
  | "init" => some (.init ((g.path? "path").getD ⟨"."⟩) (g.has "force"))
  | "table" =>
    some (.table g.corpus (g.count? "window") (g.number? "percentile") (g.path? "output"))
  | "index" => some (.index g.corpus (g.path? "table") (g.count? "sb-size") (g.path? "output"))
  | "build" =>
    some (.build g.corpus (g.count? "window") (g.number? "percentile") (g.count? "sb-size")
      (g.path? "table") (g.path? "index"))
  | "query" => some (.query g.query)
  | _ => none

/-- The order of a command line. A settings file behind the command counts before one in front. -/
def Order.read (args : List String) : Except Refusal Order := do
  let i ← CommandLine.read args
  match Command.ofGiven? i.command i.given with
  | none => throw .unknownCommand
  | some command =>
    let has := fun name => i.given.has name || i.before.has name
    return ⟨command, has "quiet", has "no-color",
      (i.given.path? "config").or (i.before.path? "config")⟩

end Lookalike.CommandLine
