-- What a build leaves behind when it fails. Before the table is saved no file is
-- touched; after that the new table stands in its place, whatever becomes of the
-- index, and every other file is what it was.
import Lookalike.Proofs.BuiltIndex
import Lookalike.Proofs.CommandRuns
import Lookalike.Proofs.CutIndex
import Lookalike.Proofs.QueriedFiles
import Lookalike.Proofs.QueryOutcome
import Lookalike.Proofs.SavedIndex
import Lookalike.Proofs.SplitBuild

namespace Lookalike

open CommandLine (CorpusChoice QueryChoice Order)

/-! ## A build that fails -/

section

variable {c : CorpusChoice} {window : Option Nat} {percentile : Option Float} {width : Option Nat}
  {table index : Option Path} {quiet plain : Bool} {config : Option Path}
  {environment : List (String × String)} {w w' : World} {f : Failure}

namespace CommandLine.Order

end CommandLine.Order

end

/-! ## A pair that is broken -/

namespace ShortListing

/-- A build of the listing. -/
def build (window width : Nat) : Order :=
  ⟨.build corpus (some window) (some 0.5) (some width) (some ⟨"t.json"⟩) (some ⟨"i.jsonl"⟩),
    true, true, none⟩

/-- The listing, a table and an index. -/
def pair (table index : Bytes) : World :=
  ⟨files (.file "t.json" table (.file "i.jsonl" index .empty)), ""⟩

theorem load_table {window : Nat} {t : ThresholdTable} (word : window < 2 ^ 64)
    (learned : ThresholdTable.learn [stream] window 0.5 = .ok t) (index : Bytes) :
    ThresholdTable.load (pair (Text.encode (String.ofList t.toChars)) index).files ⟨"t.json"⟩ =
      .ok t := by
  have hsaved : (Job.saveTable (build 1 1) t ⟨"t.json"⟩).run (pair [] index) =
      (.ok (), pair (Text.encode (String.ofList t.toChars)) index) := rfl
  exact ThresholdTable.load_learned learned word reread_half hsaved

/-- A query for the listing itself. -/
def choice : QueryChoice :=
  ⟨⟨"l.asm"⟩, some ⟨"t.json"⟩, some ⟨"i.jsonl"⟩, none, none, none, some 6, none, .grid⟩

end ShortListing

namespace ShortListing

section

variable {i : Index} (built : Index.buildStamped [stream] table
  (corpus.loader Settings.default).normalizer 1 1 (corpus.loader Settings.default).segmentation =
    .ok i)

include built

end

end ShortListing

end Lookalike
