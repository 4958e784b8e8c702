-- The file of an index: one JSON object a line, the header first, then the
-- records in order. Only texts can be written, so a source that is none ends the
-- writing. A file with fewer or more records than its header says is no index.
import Lookalike.Index.Basic
import Lookalike.Json.Writer
import Lookalike.Json.Reader
import Lookalike.Json.Fields
import Lookalike.World

namespace Lookalike

/-! ## Writing -/

/-- The first line of a saved index. -/
def Header.toJson (h : Header) : Json :=
  .ofFields ([
    ("window", .ofNat h.window),
    ("sb_size", .ofNat h.width),
    ("table_id", .ofString h.tableId),
    ("table_len", .ofNat h.tableSize),
    ("segment", .ofString h.segmentation.name),
    ("degenerate", .bool h.degenerate),
    ("records", .ofNat h.records)] ++
    match h.rulesId with
    | some id => [("rules_id", .ofString id)]
    | none => [])

def Record.toJson (r : Record) : Json :=
  .ofFields [
    ("source", .ofString r.id.source.text),
    ("function", .ofOption r.id.function),
    ("start_line", .ofNat r.id.startLine),
    ("offset", .ofNat r.offset),
    ("line", .ofNat r.line),
    ("bucket_hash", .ofNat r.bucket.toNat),
    ("full_vector", .ofString r.full.text)]

/-- What is written of a record before its source is looked at. -/
def Record.begun : List Char := "\x7b\"source\":".toList

namespace Index

/-- The content of the file. -/
def toChars (i : Index) : List Char :=
  (i.header.toJson :: i.records.map Record.toJson).flatMap fun j => j.compact ++ ['\n']

/-- Whether all sources are texts. -/
def isText (i : Index) : Bool := i.records.all fun r => r.id.source.isText

/-- The lines of records up to the first one whose source is no text, and the beginning of that
one. -/
def writtenRecords : List Record → List Char
  | [] => []
  | r :: rest =>
    if r.id.source.isText then r.toJson.compact ++ '\n' :: writtenRecords rest else Record.begun

/-- What is written of the content before the writing ends. -/
def written (i : Index) : List Char :=
  i.header.toJson.compact ++ '\n' :: writtenRecords i.records

/-- Save an index. The file is emptied before the first line is written, and keeps what was written
when a source ends the writing. -/
def save (i : Index) (path : Path) : Job Unit := do
  Job.save (.creating path) path []
  Job.changing (.creating path) fun files =>
    files.write path (Text.encode (String.ofList i.written))
  Job.ofAttempt (if i.isText then .ok () else .error ⟨[.writingRecord], .badJson⟩)

end Index

/-! ## Reading -/

/-- Read the first line of a saved index. -/
def Header.ofJson? (j : Json) : Option Header := do
  match ← j.fields? ["window", "sb_size", "table_id", "table_len", "segment", "degenerate",
      "records", "rules_id"] with
  | [some w, some sb, some id, some len, some seg, some deg, some n, rules] =>
    return ⟨← w.size?, ← sb.size?, ← id.string?, ← len.size?,
      ← seg.choice?.bind Segmentation.ofName?, ← deg.bool?, ← n.size?, ← Json.optionalString? rules⟩
  | _ => none

def Record.ofJson? (j : Json) : Option Record := do
  match ← j.fields? ["source", "function", "start_line", "offset", "line", "bucket_hash",
      "full_vector"] with
  | [some source, function, some start, some offset, some line, some bucket, some full] =>
    let id : StreamId := ⟨.mk (← source.string?), ← Json.optionalString? function, ← start.size?⟩
    let full ← (FullVector.read (← full.string?)).toOption
    return ⟨id, ← offset.size?, ← line.size?, UInt64.ofNat (← bucket.size?), full⟩
  | _ => none

namespace Index

/-- Read the lines behind the header; `number` counts lines from one. Blank lines are passed
over. -/
def readRecords : Nat → List Bytes → Attempt (List Record)
  | _, [] => .ok []
  | number, line :: rest => do
    let cs ← Attempt.ofOption (.readingLine number) (.file .notText) (Text.decode? line)
    if Text.isBlankLine cs then readRecords (number + 1) rest
    else do
      let r ← Attempt.ofOption (.parsingRecord number) .badJson
        ((Json.read? cs).bind Record.ofJson?)
      return r :: (← readRecords (number + 1) rest)

/-- Read the content of the file at `path`. -/
def read (path : Path) (content : Bytes) : Attempt Index :=
  match Text.byteLines content with
  | [] => .error (.of (.malformed .noHeader))
  | first :: rest => do
    let cs ← Attempt.ofOption (.readingIndex path) (.file .notText) (Text.decode? first)
    let header ← Attempt.ofOption .parsingHeader .badJson ((Json.read? cs).bind Header.ofJson?)
    let records ← readRecords 2 rest
    if records.length ≠ header.records then
      .error (.of (.malformed (.recordCount header.records records.length)))
    else return ofRecords header records

/-- Load the index of a file. A directory can be opened, but not read. -/
def load (files : Folder) (path : Path) : Attempt Index :=
  match files.read path with
  | .ok content => read path content
  | .error .isADirectory => .error ⟨[.readingIndex path], .file .isADirectory⟩
  | .error e => .error ⟨[.openingIndex path], .file e⟩

end Index
end Lookalike
