-- The commands: learning a table, building an index, asking it, and writing a
-- settings file. Each one checks its parameters before it reads the corpus and
-- saves nothing before it has all it needs for the file.
import Lookalike.CommandLine.Command
import Lookalike.Corpus.Discovery
import Lookalike.Corpus.Loading
import Lookalike.Index.Saved
import Lookalike.Report
import Lookalike.Settings.Saved
import Lookalike.Settings.Source
import Lookalike.Threshold.Learning
import Lookalike.Threshold.Saved
import Lookalike.World

namespace Lookalike

open CommandLine (CorpusChoice QueryChoice Order)

/-! ## What is told -/

/-- The line about a table, and a warning if it tells no windows apart. -/
def ThresholdTable.summary (t : ThresholdTable) (plain : Bool) (out : Path) : List String :=
  (paint plain .green "✓" ++ " Threshold table: " ++ toString t.size ++ " symbols (window " ++
    toString t.window ++ ", percentile " ++ Decimal.display t.percentile ++ ") -> " ++ out.text) ::
  if t.isEmpty then
    [paint plain .yellow
      "  no discriminative symbols; queries against this table are low confidence"]
  else []

/-- The line about an index. -/
def Index.summary (i : Index) (plain : Bool) (out : Path) : String :=
  paint plain .green "✓" ++ " Index: " ++ toString i.size ++ " windows in " ++
    toString i.buckets.length ++ " buckets (window " ++ toString i.header.window ++ ", sb_size " ++
    toString i.header.width ++ ", table " ++ i.header.tableId ++ ") -> " ++ out.text

namespace Job

/-- Print lines, unless all is to be quiet. -/
def tell (quiet : Bool) (lines : List String) : Job Unit :=
  if quiet then pure () else lines.forM printLine

def saveTable (o : Order) (t : ThresholdTable) (out : Path) : Job Unit := do
  save (.writing out) out (Text.encode (String.ofList t.toChars))
  tell o.quiet (t.summary o.plain out)

def saveIndex (o : Order) (i : Index) (out : Path) : Job Unit := do
  i.save out
  tell o.quiet [i.summary o.plain out]

end Job

/-! ## The corpus -/

/-- How the listings of a corpus are read. -/
def CommandLine.CorpusChoice.loader (c : CorpusChoice) (s : Settings) : Loader :=
  ⟨s.corpusNormalizer, c.segmentation.getD s.corpus.segmentation⟩

/-- The streams of a corpus. -/
def CommandLine.CorpusChoice.load (c : CorpusChoice) (s : Settings) (files : Folder) :
    Attempt (List Stream) := do
  let walker ← Walker.make (s.corpus.ignored ++ c.ignored) s.corpus.included false
  let found ← walker.collect files c.roots
  if found.isEmpty then throw (.of (.corpusEmpty c.roots))
  (c.loader s).loadAll files found

/-! ## The commands -/

namespace CommandLine.Order

/-- Write a settings file with default values. -/
def init (o : Order) (dir : Path) (force : Bool) : Job Unit := do
  let path := dir.join "binclone.toml"
  if !force then
    Job.reading fun files =>
      if files.reaches path then .error (.of (.settingsPresent path)) else .ok ()
  Job.changing .writingSettings fun files => files.write path (Text.encode Settings.default.text)
  Job.tell o.quiet ["Created config file at " ++ path.text]

def table (o : Order) (s : Settings) (c : CorpusChoice) (window : Option Nat)
    (percentile : Option Float) (output : Option Path) : Job Unit := do
  let window := window.getD s.fingerprint.window
  let percentile := percentile.getD s.fingerprint.percentile
  Job.ofAttempt (checkParameters window percentile)
  let streams ← Job.reading (c.load s)
  let t ← Job.ofAttempt (ThresholdTable.learn streams window percentile)
  Job.saveTable o t (output.getD s.paths.table)

/-- Index a corpus with a saved table and save the index. -/
def index (o : Order) (s : Settings) (c : CorpusChoice) (table : Option Path) (width : Option Nat)
    (output : Option Path) : Job Unit := do
  let t ← Job.reading fun files => ThresholdTable.load files (table.getD s.paths.table)
  let streams ← Job.reading (c.load s)
  let l := c.loader s
  let i ← Job.ofAttempt (Index.buildStamped streams t l.normalizer t.window
    (width.getD s.fingerprint.width) l.segmentation)
  Job.saveIndex o i (output.getD s.paths.index)

/-- Learn a table and index the same corpus with it. The table is saved before the index is
built. -/
def build (o : Order) (s : Settings) (c : CorpusChoice) (window : Option Nat)
    (percentile : Option Float) (width : Option Nat) (table index : Option Path) : Job Unit := do
  let window := window.getD s.fingerprint.window
  let percentile := percentile.getD s.fingerprint.percentile
  Job.ofAttempt (checkParameters window percentile)
  let streams ← Job.reading (c.load s)
  let t ← Job.ofAttempt (ThresholdTable.learn streams window percentile)
  Job.saveTable o t (table.getD s.paths.table)
  let l := c.loader s
  let i ← Job.ofAttempt (Index.buildStamped streams t l.normalizer window
    (width.getD s.fingerprint.width) l.segmentation)
  Job.saveIndex o i (index.getD s.paths.index)

def report (s : Settings) (q : QueryChoice) (files : Folder) : Attempt Report := do
  let t ← ThresholdTable.load files (q.table.getD s.paths.table)
  let i ← Index.load files (q.index.getD s.paths.index)
  let l : Loader := ⟨s.queryNormalizer q.headerLines, q.segmentation.getD s.query.segmentation⟩
  let stream ← l.loadQuery files q.listing
  query stream i t l.normalizer
    ⟨q.width.getD i.header.width, q.limit.or s.query.limit,
      q.minSimilarity.getD s.query.minSimilarity⟩

def ask (o : Order) (s : Settings) (q : QueryChoice) : Job Unit := do
  let r ← Job.reading (report s q)
  match q.shape with
  | .json => do
    Job.ofAttempt (if r.isText then .ok () else .error ⟨[.writingReport], .badJson⟩)
    Job.printLine (String.ofList r.toJson.pretty)
  | .grid => (r.lines o.plain).forM Job.printLine

/-- Carry out an order. The variables of the environment count in the settings; a new settings file
needs none. -/
def run (o : Order) (environment : List (String × String)) : Job Unit := do
  match o.command with
  | .init dir force => o.init dir force
  | .table c window percentile output => do
    o.table (← settings) c window percentile output
  | .index c table width output => do o.index (← settings) c table width output
  | .build c window percentile width table index => do
    o.build (← settings) c window percentile width table index
  | .query q => do o.ask (← settings) q
where
  settings : Job Settings := Job.reading fun files => Settings.load files environment o.settings

end CommandLine.Order
end Lookalike
