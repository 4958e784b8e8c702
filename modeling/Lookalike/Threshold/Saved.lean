-- The file of a threshold table: a JSON object over several lines, with the
-- thresholds in the order of the table.
import Lookalike.Threshold.Table
import Lookalike.Json.Writer
import Lookalike.Json.Reader
import Lookalike.Json.Fields

namespace Lookalike.ThresholdTable

/-! ## Writing -/

/-- The fields of a table. -/
def toJson (t : ThresholdTable) : Json :=
  .ofFields [
    ("window", .ofNat t.window),
    ("percentile", .ofFloat t.percentile),
    ("thresholds", .ofFields (t.entries.map fun e => (e.1, .ofNat e.2.toNat)))]

/-- The content of the file. -/
def toChars (t : ThresholdTable) : List Char := t.toJson.pretty

/-! ## Reading -/

/-- The thresholds; of a repeated symbol the first place and the last value count. -/
def entries? : Json → Option (List (String × UInt32))
  | .obj members => do
    let pairs ← members.mapM fun m => do return (← m.1, UInt32.ofNat (← m.2.word?))
    return Ordered.ofPairs pairs
  | _ => none

/-- The parts of a table, not yet checked. -/
def parts? (j : Json) : Option (Nat × Float × List (String × UInt32)) := do
  match ← j.fields? ["window", "percentile", "thresholds"] with
  | [some w, some p, some ts] => return (← w.size?, ← p.float?, ← entries? ts)
  | _ => none

/-- Read the content of the file at `path`. -/
def read (path : Path) (cs : List Char) : Attempt ThresholdTable := do
  let (window, percentile, entries) ←
    Attempt.ofOption (.parsingTable path) .badJson ((Json.read? cs).bind parts?)
  (ofParts window percentile entries).during (.checkingTable path)

def load (files : Folder) (path : Path) : Attempt ThresholdTable := do
  read path (← Attempt.ofFile (.readingTable path) (files.readText path))

end Lookalike.ThresholdTable
