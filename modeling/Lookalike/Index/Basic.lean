-- The index: every window of a corpus under its bucket number, buckets in
-- ascending order and each bucket in the order of streams and places.
import Lookalike.Fingerprint.Encoder

namespace Lookalike

/-! ## Records -/

/-- An indexed window: its stream, its place in the stream, the listing line at which it begins,
and its fingerprint. -/
structure Record where
  id : StreamId
  offset : Nat
  line : Nat
  bucket : UInt64
  full : FullVector
  deriving DecidableEq

/-- By stream, then by place. -/
def Record.compareKey (a b : Record) : Ordering :=
  (compare a.id b.id).then (compare a.offset b.offset)

/-- What an index was built with. -/
structure Header where
  window : Nat
  width : Nat
  tableId : String
  tableSize : Nat
  segmentation : Segmentation
  degenerate : Bool
  records : Nat
  rulesId : Option String
  deriving DecidableEq

/-! ## Buckets -/

/-- The records of one bucket number. -/
structure Bucket where
  number : UInt64
  records : List Record
  deriving DecidableEq

namespace Bucket

/-- Put a record in front of its bucket; buckets stay in ascending order. -/
def insert (r : Record) : List Bucket → List Bucket
  | [] => [⟨r.bucket, [r]⟩]
  | b :: rest =>
    if r.bucket < b.number then ⟨r.bucket, [r]⟩ :: b :: rest
    else if r.bucket = b.number then ⟨b.number, r :: b.records⟩ :: rest
    else b :: insert r rest

/-- The records of a bucket by stream and place; equal ones keep their order. -/
def sort (b : Bucket) : Bucket :=
  ⟨b.number, b.records.mergeSort fun x y => (x.compareKey y).isLE⟩

def ofRecords (rs : List Record) : List Bucket := (rs.foldr insert []).map sort

end Bucket

structure Index where
  header : Header
  buckets : List Bucket
  deriving DecidableEq

namespace Index

/-- The index of records; the header counts them. -/
def ofRecords (h : Header) (rs : List Record) : Index :=
  ⟨{ h with records := rs.length }, Bucket.ofRecords rs⟩

/-- The number of records. -/
def size (i : Index) : Nat := i.header.records

/-- The records by bucket, stream and place. -/
def records (i : Index) : List Record := i.buckets.flatMap (·.records)

/-- The records of a bucket number. -/
def lookup (i : Index) (number : UInt64) : List Record :=
  match i.buckets.find? fun b => b.number == number with
  | some b => b.records
  | none => []

/-! ## Building -/

def recordsOf (e : Encoder) (window : Nat) (s : Stream) : List Record :=
  (List.zip (windows s.lines window) s.lines).map fun (w, l) =>
    let f := e.encode w.counts
    ⟨s.id, w.offset, l.number, f.bucket, f.full⟩

/-- Index a corpus. An empty table tells no windows apart, so its index is degenerate and holds
none. -/
def build (streams : List Stream) (table : ThresholdTable) (window width : Nat)
    (segmentation : Segmentation) : Attempt Index :=
  if window ≠ table.window then
    .error (.of (.mismatch .window (toString table.window) (toString window)))
  else
    let header : Header :=
      ⟨window, width, table.identity, table.size, segmentation, table.isEmpty, 0, none⟩
    if table.isEmpty then .ok ⟨header, []⟩
    else do
      let encoder ← Encoder.make table width
      return ofRecords header (streams.flatMap (recordsOf encoder window))

/-- Note the rules with which the corpus was read. -/
def stamp (i : Index) (rulesId : String) : Index :=
  { i with header := { i.header with rulesId := some rulesId } }

/-- Index a corpus and note the rules. -/
def buildStamped (streams : List Stream) (table : ThresholdTable) (n : Normalizer)
    (window width : Nat) (segmentation : Segmentation) : Attempt Index := do
  return (← build streams table window width segmentation).stamp n.identity

/-! ## Agreement -/

/-- The rules must be the noted ones; an index without a note accepts any. -/
def checkRules (i : Index) (rulesId : String) : Attempt Unit :=
  match i.header.rulesId with
  | none => .ok ()
  | some noted =>
    if noted = rulesId then .ok () else .error (.of (.mismatch .rules noted rulesId))

/-- The table and the bucket width must be the ones of the index. -/
def checkTable (i : Index) (t : ThresholdTable) (width : Nat) : Attempt Unit :=
  let h := i.header
  if h.window ≠ t.window then
    .error (.of (.mismatch .window (toString h.window) (toString t.window)))
  else if h.tableSize ≠ t.size then
    .error (.of (.mismatch .tableSize (toString h.tableSize) (toString t.size)))
  else if h.tableId ≠ t.identity then .error (.of (.mismatch .tableId h.tableId t.identity))
  else if h.width ≠ width then
    .error (.of (.mismatch .bucketWidth (toString h.width) (toString width)))
  else .ok ()

end Index

/-! ## A shared index -/

/-- The index in use. A query keeps the one it began with; a rebuild puts a new one in its place. -/
structure Handle where
  current : Index

/-- Put a new index in the place of the current one, which comes back. -/
def Handle.swap (h : Handle) (new : Index) : Index × Handle := (h.current, ⟨new⟩)

end Lookalike
