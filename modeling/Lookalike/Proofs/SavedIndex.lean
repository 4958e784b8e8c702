-- The laws of saved indexes: the file of an index has a line for its header
-- and one for each record, in order, and from these lines the same index comes
-- about, bucket by bucket.
import Mathlib.Algebra.Order.BigOperators.Group.List
import Lookalike.Index.Saved
import Lookalike.Proofs.ByteLines
import Lookalike.Proofs.Hexadecimal
import Lookalike.Proofs.JsonLines
import Lookalike.Proofs.LinearScan
import Lookalike.Proofs.Numerals
import Lookalike.Proofs.ProperIndex
import Lookalike.Proofs.WrittenIndex

namespace Lookalike

/-! ## What lines can hold -/

/-- The numbers of a header are machine words. -/
structure Header.Fits (h : Header) : Prop where
  window : h.window < 2 ^ 64
  width : h.width < 2 ^ 64
  tableSize : h.tableSize < 2 ^ 64
  records : h.records < 2 ^ 64

/-- The numbers of a record are machine words, and its vector has no zero words at the high end. -/
structure Record.Fits (r : Record) : Prop where
  startLine : r.id.startLine < 2 ^ 64
  offset : r.offset < 2 ^ 64
  line : r.line < 2 ^ 64
  full : FullVector.Trimmed r.full.limbs

namespace Json

theorem size?_ofNat {n : Nat} (h : n < 2 ^ 64) : (ofNat n).size? = some n :=
  Decimal.wholeNumber?_ofNat (Nat.le_sub_one_of_lt h)

theorem size?_lt {j : Json} {n : Nat} (h : j.size? = some n) : n < 2 ^ 64 := by
  unfold size? wholeNumber? at h
  split at h
  · split_ifs at h with hplain hle
    cases h
    exact Nat.lt_of_le_sub_one (by decide) hle
  · cases h

end Json

/-! ## The line of a header -/

namespace Header

theorem allPlain_toJson (h : Header) : h.toJson.AllPlain := by
  cases hrules : h.rulesId <;>
    simp [toJson, hrules, Json.ofFields, Json.AllPlain, Json.AllPlainMembers, Json.ofNat,
      Json.ofString, Decimal.plain_ofNat]

theorem ofName?_name (mode : Segmentation) : Segmentation.ofName? mode.name = some mode := by
  cases mode <;> rfl

theorem ofJson?_toJson {h : Header} (fits : h.Fits) : ofJson? h.toJson = some h := by
  obtain ⟨window, width, tableId, tableSize, mode, degenerate, records, rulesId⟩ := h
  have hfields : (toJson ⟨window, width, tableId, tableSize, mode, degenerate, records,
      rulesId⟩).fields? ["window", "sb_size", "table_id", "table_len", "segment", "degenerate",
        "records", "rules_id"] =
      some [some (.ofNat window), some (.ofNat width), some (.ofString tableId),
        some (.ofNat tableSize), some (.ofString mode.name), some (.bool degenerate),
        some (.ofNat records), rulesId.map .ofString] := by
    cases rulesId <;> simp [toJson, Json.ofFields, Json.fields?, Json.single?, Json.named]
  have hrules : Json.optionalString? (rulesId.map .ofString) = some rulesId := by
    cases rulesId <;> rfl
  have hmode : (Json.ofString mode.name).choice?.bind Segmentation.ofName? = some mode :=
    ofName?_name mode
  unfold ofJson?
  rw [hfields]
  simp only [Option.bind_eq_bind, Option.bind_some, Json.size?_ofNat fits.window,
    Json.size?_ofNat fits.width, Json.size?_ofNat fits.tableSize, Json.size?_ofNat fits.records,
    hrules, hmode]
  rfl

theorem fits_of_ofJson? {j : Json} {h : Header} (hread : ofJson? j = some h) : h.Fits := by
  unfold ofJson? at hread
  obtain ⟨values, -, hread⟩ := Option.bind_eq_some_iff.mp hread
  split at hread
  · obtain ⟨window, hwindow, hread⟩ := Option.bind_eq_some_iff.mp hread
    obtain ⟨width, hwidth, hread⟩ := Option.bind_eq_some_iff.mp hread
    obtain ⟨tableId, -, hread⟩ := Option.bind_eq_some_iff.mp hread
    obtain ⟨tableSize, hsize, hread⟩ := Option.bind_eq_some_iff.mp hread
    obtain ⟨mode, -, hread⟩ := Option.bind_eq_some_iff.mp hread
    obtain ⟨degenerate, -, hread⟩ := Option.bind_eq_some_iff.mp hread
    obtain ⟨records, hrecords, hread⟩ := Option.bind_eq_some_iff.mp hread
    obtain ⟨rulesId, -, hread⟩ := Option.bind_eq_some_iff.mp hread
    cases hread
    exact ⟨Json.size?_lt hwindow, Json.size?_lt hwidth, Json.size?_lt hsize,
      Json.size?_lt hrecords⟩
  · cases hread

end Header

/-! ## The line of a record -/

namespace Record

theorem allPlain_toJson (r : Record) : r.toJson.AllPlain := by
  cases hname : r.id.function <;>
    simp [toJson, hname, Json.ofFields, Json.AllPlain, Json.AllPlainMembers, Json.ofNat,
      Json.ofString, Json.ofOption, Decimal.plain_ofNat]

theorem ofJson?_toJson {r : Record} (fits : r.Fits) (text : r.id.source.isText = true) :
    ofJson? r.toJson = some r := by
  obtain ⟨source, hsource⟩ := Path.isText_iff.mp text
  obtain ⟨⟨path, function, startLine⟩, offset, line, bucket, full⟩ := r
  obtain rfl : path = .mk source := hsource
  have hfields : (toJson ⟨⟨.mk source, function, startLine⟩, offset, line, bucket, full⟩).fields?
      ["source", "function", "start_line", "offset", "line", "bucket_hash", "full_vector"] =
      some [some (.ofString source), some (.ofOption function), some (.ofNat startLine),
        some (.ofNat offset), some (.ofNat line), some (.ofNat bucket.toNat),
        some (.ofString full.text)] := by
    simp [toJson, Json.ofFields, Json.fields?, Json.single?, Json.named, Path.text_mk]
  have hfunction : Json.optionalString? (some (.ofOption function)) = some function := by
    cases function <;> rfl
  have hfull : (FullVector.read full.text).toOption = some full := by
    rw [FullVector.read_text fits.full]
    rfl
  unfold ofJson?
  rw [hfields]
  simp only [Option.bind_eq_bind, Option.bind_some, Json.ofString, Json.string?, hfunction, hfull,
    Json.size?_ofNat fits.startLine, Json.size?_ofNat fits.offset, Json.size?_ofNat fits.line,
    Json.size?_ofNat bucket.toNat_lt, UInt64.ofNat_toNat]
  rfl

theorem fits_of_ofJson? {j : Json} {r : Record} (hread : ofJson? j = some r) : r.Fits := by
  unfold ofJson? at hread
  obtain ⟨values, -, hread⟩ := Option.bind_eq_some_iff.mp hread
  split at hread
  · obtain ⟨source, -, hread⟩ := Option.bind_eq_some_iff.mp hread
    obtain ⟨function, -, hread⟩ := Option.bind_eq_some_iff.mp hread
    obtain ⟨startLine, hstart, hread⟩ := Option.bind_eq_some_iff.mp hread
    obtain ⟨text, -, hread⟩ := Option.bind_eq_some_iff.mp hread
    obtain ⟨full, hfull, hread⟩ := Option.bind_eq_some_iff.mp hread
    obtain ⟨offset, hoffset, hread⟩ := Option.bind_eq_some_iff.mp hread
    obtain ⟨line, hline, hread⟩ := Option.bind_eq_some_iff.mp hread
    obtain ⟨bucket, -, hread⟩ := Option.bind_eq_some_iff.mp hread
    cases hread
    have hvector : FullVector.read text = .ok full := by
      cases hv : FullVector.read text with
      | error f => simp [hv, Except.toOption] at hfull
      | ok v =>
        rw [hv] at hfull
        exact congrArg _ (Option.some.inj hfull)
    exact ⟨Json.size?_lt hstart, Json.size?_lt hoffset, Json.size?_lt hline,
      FullVector.trimmed_of_read hvector⟩
  · cases hread

end Record

/-! ## The lines of a file -/

namespace Json

/-- A value on one line, as bytes. -/
def bytes (j : Json) : Bytes := j.compact.flatMap String.utf8EncodeChar

theorem decode?_bytes (j : Json) : Text.decode? j.bytes = some j.compact := by
  have h := Text.decode?_encode (String.ofList j.compact)
  rwa [Text.encode, String.toList_ofList] at h

theorem onLine_bytes {j : Json} (h : j.AllPlain) : Text.OnLine j.bytes :=
  Text.onLine_encoded (printed_compact j h)

theorem isBlankLine_object (members : List (Option String × Json)) :
    Text.isBlankLine (Json.obj members).compact = false := rfl

theorem bytes_object_ne_nil (members : List (Option String × Json)) :
    (Json.obj members).bytes ≠ [] := by
  intro h
  have hread := decode?_bytes (.obj members)
  rw [h] at hread
  cases hread

end Json

namespace Index

/-- The lines of the file of an index. -/
def lines (i : Index) : List Bytes :=
  i.header.toJson.bytes :: i.records.map fun r => r.toJson.bytes

/-- Values with a line feed behind each are written as lines. -/
theorem encode_values (js : List Json) :
    (js.flatMap fun j => j.compact ++ ['\n']).flatMap String.utf8EncodeChar =
      Text.joinLines (js.map Json.bytes) := by
  have hfeed : String.utf8EncodeChar '\n' = [0x0A] := rfl
  rw [Text.joinLines, List.flatMap_assoc, List.flatMap_map]
  simp [hfeed, Json.bytes]

theorem encode_toChars (i : Index) :
    Text.encode (String.ofList i.toChars) = Text.joinLines i.lines := by
  rw [Text.encode, String.toList_ofList, toChars, encode_values, lines, List.map_cons,
    List.map_map]
  rfl

theorem lines_onLine (i : Index) : ∀ l ∈ i.lines, Text.OnLine l ∧ l ≠ [] := by
  refine List.forall_mem_cons.mpr ⟨⟨Json.onLine_bytes i.header.allPlain_toJson,
    Json.bytes_object_ne_nil _⟩, List.forall_mem_map.mpr fun r _ => ?_⟩
  exact ⟨Json.onLine_bytes r.allPlain_toJson, Json.bytes_object_ne_nil _⟩

theorem readRecords_cons {r : Record} (fits : r.Fits) (text : r.id.source.isText = true)
    (number : Nat) (rest : List Bytes) :
    readRecords number (r.toJson.bytes :: rest) =
      (readRecords (number + 1) rest).map fun rs => r :: rs := by
  have hread : (Json.read? r.toJson.compact).bind Record.ofJson? = some r := by
    rw [Json.read?_compact r.allPlain_toJson, Option.bind_some, Record.ofJson?_toJson fits text]
  have hblank : Text.isBlankLine r.toJson.compact = false := Json.isBlankLine_object _
  rw [readRecords, Json.decode?_bytes]
  simp only [Attempt.ofOption, bind, Except.bind, hblank, hread]
  cases readRecords (number + 1) rest <;> rfl

theorem readRecords_lines {rs : List Record} (fits : ∀ r ∈ rs, r.Fits)
    (text : ∀ r ∈ rs, r.id.source.isText = true) (number : Nat) :
    readRecords number (rs.map fun r => r.toJson.bytes) = .ok rs := by
  induction rs generalizing number with
  | nil => rfl
  | cons r rs ih =>
    obtain ⟨hr, hrs⟩ := List.forall_mem_cons.mp fits
    obtain ⟨hsource, hsources⟩ := List.forall_mem_cons.mp text
    rw [List.map_cons, readRecords_cons hr hsource, ih hrs hsources]
    rfl

/-- Behind the line of a header as many records are read as it declares. -/
theorem read_header {h : Header} (fits : h.Fits) {path : Path} {content : Bytes}
    {rest : List Bytes} (hlines : Text.byteLines content = h.toJson.bytes :: rest) :
    read path content = (readRecords 2 rest).bind fun rs =>
      if rs.length ≠ h.records then .error (.of (.malformed (.recordCount h.records rs.length)))
      else .ok (ofRecords h rs) := by
  have hread : (Json.read? h.toJson.compact).bind Header.ofJson? = some h := by
    rw [Json.read?_compact h.allPlain_toJson, Option.bind_some, Header.ofJson?_toJson fits]
  unfold read
  rw [hlines]
  simp only [Json.decode?_bytes, hread, Attempt.ofOption, bind, Except.bind]
  rfl

/-! ## Indexes that can be saved -/

/-- A proper index whose numbers are machine words. -/
structure Savable (i : Index) : Prop where
  proper : i.Proper
  header : i.header.Fits
  records : ∀ r ∈ i.records, r.Fits

/-- The file of an index is read as that index. -/
theorem Savable.read_lines {i : Index} (h : i.Savable) (text : i.isText = true) (path : Path)
    {content : Bytes} (hlines : Text.byteLines content = i.lines) : read path content = .ok i := by
  rw [read_header h.header hlines, readRecords_lines h.records (isText_iff.mp text)]
  simp only [Except.bind, h.proper.counted, ne_eq, not_true_eq_false, if_false,
    h.proper.ofRecords_records]

/-- An index is loaded from a file that holds what is saved of it. -/
theorem Savable.load_saved {i : Index} (h : i.Savable) (text : i.isText = true) {files : Folder}
    {path : Path} (hread : files.read path = .ok (Text.encode (String.ofList i.toChars))) :
    load files path = .ok i := by
  unfold load
  rw [hread]
  apply h.read_lines text path
  rw [encode_toChars, Text.byteLines_joinLines fun l hl => (i.lines_onLine l hl).1]

theorem savable_ofRecords {h : Header} {rs : List Record} (hh : h.Fits) (hrs : ∀ r ∈ rs, r.Fits)
    (hlen : rs.length < 2 ^ 64) : (ofRecords h rs).Savable where
  proper := proper_ofRecords h rs
  header := ⟨hh.window, hh.width, hh.tableSize, hlen⟩
  records r hr := hrs r ((records_ofRecords_perm h rs).mem_iff.mp hr)

theorem Savable.stamp {i : Index} (h : i.Savable) (rulesId : String) : (i.stamp rulesId).Savable :=
  ⟨h.proper.stamp rulesId, ⟨h.header.window, h.header.width, h.header.tableSize, h.header.records⟩,
    h.records⟩

/-! ## Indexes that can come about -/

/-- A line gives one record or, if it is blank, none. -/
theorem readRecords_cons_eq_ok {number : Nat} {l : Bytes} {ls : List Bytes} {rs : List Record}
    (h : readRecords number (l :: ls) = .ok rs) :
    ∃ rest, readRecords (number + 1) ls = .ok rest ∧
      (rs = rest ∨ ∃ j r, Record.ofJson? j = some r ∧ rs = r :: rest) := by
  rw [readRecords] at h
  obtain ⟨cs, -, h⟩ := Attempt.bind_eq_ok_iff.mp h
  split_ifs at h with hblank
  · exact ⟨rs, h, .inl rfl⟩
  · obtain ⟨r, hr, h⟩ := Attempt.bind_eq_ok_iff.mp h
    obtain ⟨rest, hrest, h⟩ := Attempt.bind_eq_ok_iff.mp h
    cases h
    obtain ⟨j, -, hj⟩ := Option.bind_eq_some_iff.mp (Attempt.ofOption_eq_ok_iff.mp hr)
    exact ⟨rest, hrest, .inr ⟨j, r, hj, rfl⟩⟩

theorem fits_of_readRecords {number : Nat} {ls : List Bytes} {rs : List Record}
    (h : readRecords number ls = .ok rs) : ∀ r ∈ rs, r.Fits := by
  induction ls generalizing number rs with
  | nil =>
    cases h
    exact fun _ hr => absurd hr List.not_mem_nil
  | cons l ls ih =>
    obtain ⟨rest, hrest, rfl | ⟨j, r, hj, rfl⟩⟩ := readRecords_cons_eq_ok h
    · exact ih hrest
    · exact List.forall_mem_cons.mpr ⟨Record.fits_of_ofJson? hj, ih hrest⟩

/-- What was loaded can be saved. -/
theorem savable_of_load {files : Folder} {path : Path} {i : Index} (h : load files path = .ok i) :
    i.Savable := by
  unfold load at h
  split at h
  · unfold read at h
    split at h
    · cases h
    · obtain ⟨cs, -, h⟩ := Attempt.bind_eq_ok_iff.mp h
      obtain ⟨header, hheader, h⟩ := Attempt.bind_eq_ok_iff.mp h
      obtain ⟨records, hrecords, h⟩ := Attempt.bind_eq_ok_iff.mp h
      obtain ⟨j, -, hj⟩ := Option.bind_eq_some_iff.mp (Attempt.ofOption_eq_ok_iff.mp hheader)
      have hfits := Header.fits_of_ofJson? hj
      split_ifs at h with hcount
      cases h
      rw [not_not] at hcount
      exact savable_ofRecords hfits (fits_of_readRecords hrecords) (hcount ▸ hfits.records)
  · cases h
  · cases h

end Index

/-- The numbers of a corpus are machine words: the lines at which its streams start, the numbers of
its lines, and how many lines there are. -/
structure CorpusFits (streams : List Stream) : Prop where
  starts : ∀ s ∈ streams, s.id.startLine < 2 ^ 64
  numbers : ∀ s ∈ streams, ∀ l ∈ s.lines, l.number < 2 ^ 64
  size : (streams.map fun s => s.lines.length).sum < 2 ^ 64

theorem Spot.length_all_le (streams : List Stream) (width : Nat) :
    (Spot.all streams width).length ≤ (streams.map fun s => s.lines.length).sum := by
  rw [Spot.length_all]
  exact List.sum_le_sum fun s _ => Nat.sub_le _ _

theorem Spot.fits_record {streams : List Stream} (fits : CorpusFits streams) (e : Encoder)
    {p : Spot} (h : p ∈ Spot.all streams e.table.window) : (p.record e).Fits := by
  obtain ⟨hs, hk⟩ := Spot.of_mem_all h
  have hle := List.le_sum_of_mem (List.mem_map_of_mem (f := fun s : Stream => s.lines.length) hs)
  have hplace : p.place < p.stream.lines.length := by omega
  refine ⟨fits.starts _ hs, ?_, ?_, FullVector.trimmed_trim _⟩
  · exact hplace.trans (hle.trans_lt fits.size)
  · simpa [record, line, hplace] using fits.numbers _ hs _ (List.getElem_mem hplace)

namespace Index

/-- What was built of machine words can be saved. -/
theorem savable_of_build {streams : List Stream} {table : ThresholdTable} {window width : Nat}
    {mode : Segmentation} {i : Index} (made : table.Made) (fits : CorpusFits streams)
    (hwindow : window < 2 ^ 64) (hwidth : width < 2 ^ 64) (hsize : table.size < 2 ^ 64)
    (h : build streams table window width mode = .ok i) : i.Savable := by
  obtain ⟨rfl, ⟨-, rfl⟩ | ⟨-, -, rfl⟩⟩ := build_spots made h
  · exact ⟨⟨List.Pairwise.nil, by simp, by simp, rfl⟩, ⟨hwindow, hwidth, hsize, Nat.two_pow_pos 64⟩,
      fun _ hr => absurd hr List.not_mem_nil⟩
  · apply savable_ofRecords ⟨hwindow, hwidth, hsize, Nat.two_pow_pos 64⟩
    · exact List.forall_mem_map.mpr fun p hp => Spot.fits_record fits _ hp
    · rw [List.length_map]
      exact (Spot.length_all_le streams _).trans_lt fits.size

/-- An index comes about in a build, by noting rules, or out of a file. -/
inductive Reachable : Index → Prop where
  | built {streams : List Stream} {table : ThresholdTable} {window width : Nat}
      {mode : Segmentation} {i : Index} (made : table.Made) (fits : CorpusFits streams)
      (hwindow : window < 2 ^ 64) (hwidth : width < 2 ^ 64) (hsize : table.size < 2 ^ 64)
      (ok : build streams table window width mode = .ok i) : Reachable i
  | stamped {i : Index} (before : Reachable i) (rulesId : String) : Reachable (i.stamp rulesId)
  | loaded {files : Folder} {path : Path} {i : Index} (ok : load files path = .ok i) : Reachable i

theorem Reachable.savable {i : Index} (h : i.Reachable) : i.Savable := by
  induction h with
  | built made fits hwindow hwidth hsize ok =>
    exact savable_of_build made fits hwindow hwidth hsize ok
  | stamped before rulesId ih => exact ih.stamp rulesId
  | loaded ok => exact savable_of_load ok

end Index

/-- An index whose sources are texts is saved wherever its file can be made, and what was saved is
loaded as the same index: the header with the rules that were noted, every record in its place, so
the same buckets and the same look-ups. -/
theorem a_saved_index_reads_back {i : Index} (reachable : i.Reachable) (path : Path) :
    (i.isText = true → i.save path =
        Job.save (.creating path) path (Text.encode (String.ofList i.toChars))) ∧
      ∀ w w', (i.save path).run w = (.ok (), w') → Index.load w'.files path = .ok i := by
  constructor
  · exact fun text => Index.save_of_isText text path
  · intro w w' saved
    obtain ⟨text, hsave⟩ := Index.save_eq_ok_iff.mp saved
    exact reachable.savable.load_saved text (Job.read_save hsave)

/-- Two streams with one id, whose function has a name over two lines: their windows come back in
the order in which they were indexed, and the rules with them. -/
theorem an_index_of_twin_streams_reads_back :
    let t : ThresholdTable := ⟨1, 0.5, [("a", 1), ("b", 1)]⟩
    let id : StreamId := ⟨⟨"s/é.asm"⟩, some "f\n\"g\"", 6⟩
    let twins : List Stream :=
      [⟨id, [⟨7, ["a", "a"]⟩, ⟨8, []⟩]⟩, ⟨id, [⟨9, ["a", "b", "a"]⟩, ⟨11, []⟩]⟩]
    let path : Path := ⟨"i.jsonl"⟩
    ∃ index w', Index.build twins t 1 1 .perFunction = .ok index ∧ index.records.length = 2 ∧
      (index.stamp "rules").Reachable ∧
      ((index.stamp "rules").save path).run ⟨.empty, ""⟩ = (.ok (), w') ∧
      Index.load w'.files path = .ok (index.stamp "rules") := by
  intro t id twins path
  have ok : ThresholdTable.ofParts 1 0.5 t.entries = .ok t := rfl
  have made : t.Made := .given (by decide) ok
  have hbuild := @build_eq t 1 (by decide) (by decide) (by decide) (by decide) twins .perFunction
  have hsize := Index.records_ofRecords_perm (t.header 1 .perFunction)
    ((Spot.all twins t.window).map (Spot.record ⟨t, 1⟩))
  have fits : CorpusFits twins := ⟨by decide, by decide, by decide⟩
  have text := Index.isText_of_build hbuild (by simp [twins, id])
  generalize Index.ofRecords _ _ = index at hbuild hsize text
  have reachable := (Index.Reachable.built made fits (by decide) (by decide) (by decide)
    hbuild).stamped "rules"
  obtain ⟨hsave, hload⟩ := a_saved_index_reads_back reachable path
  have hsaved : ((index.stamp "rules").save path).run ⟨.empty, ""⟩ =
      (.ok (), ⟨.file "i.jsonl" (Text.encode (String.ofList (index.stamp "rules").toChars)) .empty,
        ""⟩) := by
    rw [hsave text]
    rfl
  exact ⟨index, _, hbuild, hsize.length_eq, reachable, hsaved, hload _ _ hsaved⟩

end Lookalike
