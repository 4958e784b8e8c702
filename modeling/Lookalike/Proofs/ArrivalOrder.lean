-- An index does not show in which order its records arrived. Two records of
-- different streams, or of different places, have different keys; so there is
-- one order only in which they can lie, whether the records come from streams
-- or from the lines of a file.
import Lookalike.Proofs.IndexLife

namespace Lookalike

/-! ## Records that are told apart -/

/-- No two records are of one place of one stream. -/
def Apart (rs : List Record) : Prop := rs.Pairwise fun a b => a.compareKey b ≠ .eq

theorem Apart.perm {rs rs' : List Record} (h : Apart rs) (perm : rs.Perm rs') : Apart rs' := by
  apply (perm.pairwise_iff ?_).mp h
  intro a b hab hba
  exact hab (Std.OrientedCmp.eq_comm.mp hba)

namespace Index

/-- Proper indexes of the same records are the same, if their records are told apart. -/
theorem Proper.eq_of_perm {i j : Index} (hi : i.Proper) (hj : j.Proper) (apart : Apart i.records)
    (perm : i.records.Perm j.records) (header : i.header = j.header) : i = j := by
  have hsame : i.records = j.records := by
    apply List.Perm.eq_of_pairwise _ hi.ordered hj.ordered perm
    intro a b ha hb hab hba
    have hplace := Std.OrientedCmp.isLE_antisymm hab hba
    have hkey : a.compareKey b = .eq := (Ordering.then_eq_eq.mp hplace).2
    exact eq_of_apart (fun h => Std.OrientedCmp.eq_comm.mp h) apart ha (perm.mem_iff.mpr hb) hkey
  rw [← hi.ofRecords_records, ← hj.ofRecords_records, hsame, header]

/-- Records that are told apart make one index, in whatever order they come. -/
theorem ofRecords_perm (h : Header) {rs rs' : List Record} (apart : Apart rs)
    (perm : rs.Perm rs') : ofRecords h rs = ofRecords h rs' := by
  have hrs := records_ofRecords_perm h rs
  have hrs' := records_ofRecords_perm h rs'
  apply (proper_ofRecords h rs).eq_of_perm (proper_ofRecords h rs')
  · exact apart.perm hrs.symm
  · exact (hrs.trans perm).trans hrs'.symm
  · simp only [ofRecords, perm.length_eq]

end Index

/-! ## Streams that are told apart -/

/-- No two streams have one id, paths being compared by components. -/
def Distinct (streams : List Stream) : Prop := streams.Pairwise fun a b => ¬ a.id.same b.id

/-- The windows of different streams, and of different places, are told apart. -/
theorem apart_spots (e : Encoder) {streams : List Stream} (distinct : Distinct streams)
    (width : Nat) : Apart ((Spot.all streams width).map (Spot.record e)) := by
  apply List.pairwise_map.mpr
  rw [Spot.all, List.pairwise_flatMap]
  constructor
  · intro s _
    rw [List.pairwise_map]
    apply List.pairwise_lt_range.imp
    intro i j hij heq
    have hplace : i = j := (Record.compareKey_eq_iff.mp heq).2
    omega
  · apply distinct.imp
    intro a b hab p hp q hq heq
    obtain ⟨i, -, rfl⟩ := List.mem_map.mp hp
    obtain ⟨j, -, rfl⟩ := List.mem_map.mp hq
    exact hab (Record.compareKey_eq_iff.mp heq).1

theorem Spot.all_perm {streams others : List Stream} (perm : streams.Perm others) (width : Nat) :
    (Spot.all streams width).Perm (Spot.all others width) := perm.flatMap_right _

/-- Streams in another order make the same index, or fail for the same reason. -/
theorem Index.build_perm {t : ThresholdTable} (made : t.Made) {streams others : List Stream}
    (distinct : Distinct streams) (perm : streams.Perm others) (window width : Nat)
    (mode : Segmentation) :
    build streams t window width mode = build others t window width mode := by
  unfold build
  by_cases hwindow : window = t.window
  · subst hwindow
    dsimp only
    split_ifs with hempty
    · rfl
    · rfl
    · cases hmake : Encoder.make t width with
      | error f => rfl
      | ok e =>
        obtain ⟨-, rfl⟩ := Encoder.make_eq_ok_iff.mp hmake
        apply congrArg Except.ok
        rw [flatMap_recordsOf ⟨t, width⟩ made.window_pos,
          flatMap_recordsOf ⟨t, width⟩ made.window_pos]
        exact ofRecords_perm _ (apart_spots _ distinct _) ((Spot.all_perm perm _).map _)
  · rw [if_pos hwindow, if_pos hwindow]

theorem Index.apart_build {t : ThresholdTable} (made : t.Made) {streams : List Stream}
    {window width : Nat} {mode : Segmentation} {i : Index}
    (h : build streams t window width mode = .ok i) (distinct : Distinct streams) :
    Apart i.records := by
  obtain ⟨rfl, ⟨-, rfl⟩ | ⟨-, -, rfl⟩⟩ := build_spots made h
  · exact List.Pairwise.nil
  · exact (apart_spots _ distinct _).perm (records_ofRecords_perm _ _).symm

theorem Index.Descends.apart {streams : List Stream} {i : Index} (h : i.Descends streams)
    (distinct : Distinct streams) : Apart i.records := by
  induction h with
  | built made fits hwindow hwidth hsize ok => exact apart_build made ok distinct
  | stamped before rulesId ih => exact ih
  | reloaded before text saved ok ih =>
    rw [before.savable.load_saved text saved] at ok
    cases ok
    exact ih

/-! ## Lines that are rearranged -/

namespace Index

/-- The record that stands on a line, if one does. -/
def recordOn? (line : Bytes) : Option Record :=
  (Text.decode? line).bind fun cs =>
    if Text.isBlankLine cs then none else (Json.read? cs).bind Record.ofJson?

/-- A line that is blank or holds a record. -/
def Legible (line : Bytes) : Prop :=
  (∃ cs, Text.decode? line = some cs ∧ Text.isBlankLine cs = true) ∨ ∃ r, recordOn? line = some r

theorem readRecords_legible {ls : List Bytes} (h : ∀ l ∈ ls, Legible l) (number : Nat) :
    readRecords number ls = .ok (ls.filterMap recordOn?) := by
  induction ls generalizing number with
  | nil => rfl
  | cons l ls ih =>
    obtain ⟨hl, hls⟩ := List.forall_mem_cons.mp h
    rw [readRecords]
    rcases hl with ⟨cs, hcs, hblank⟩ | ⟨r, hr⟩
    · have hnone : recordOn? l = none := by
        unfold recordOn?
        rw [hcs, Option.bind_some, if_pos hblank]
      rw [List.filterMap_cons_none hnone, hcs]
      simp only [Attempt.ofOption, bind, Except.bind, hblank, if_true]
      exact ih hls _
    · rw [List.filterMap_cons_some hr]
      obtain ⟨cs, hcs, hread⟩ := Option.bind_eq_some_iff.mp hr
      split_ifs at hread with hblank
      rw [hcs]
      simp only [Attempt.ofOption, bind, Except.bind, hblank, hread, ih hls]
      rfl

theorem recordOn?_record {r : Record} (fits : r.Fits) (text : r.id.source.isText = true) :
    recordOn? (Text.withoutReturn r.toJson.bytes) = some r := by
  have hblank : Text.isBlankLine r.toJson.compact = false := Json.isBlankLine_object _
  unfold recordOn?
  rw [Text.withoutReturn_onLine (Json.onLine_bytes r.allPlain_toJson), Json.decode?_bytes,
    Option.bind_some, if_neg (by simp [hblank]), Json.read?_compact r.allPlain_toJson,
    Option.bind_some, Record.ofJson?_toJson fits text]

theorem filterMap_recordOn? {rs : List Record} (fits : ∀ r ∈ rs, r.Fits)
    (text : ∀ r ∈ rs, r.id.source.isText = true) :
    ((rs.map fun r => r.toJson.bytes).map Text.withoutReturn).filterMap recordOn? = rs := by
  induction rs with
  | nil => rfl
  | cons r rs ih =>
    obtain ⟨hr, hrs⟩ := List.forall_mem_cons.mp fits
    obtain ⟨hsource, hsources⟩ := List.forall_mem_cons.mp text
    rw [List.map_cons, List.map_cons, List.filterMap_cons_some (recordOn?_record hr hsource),
      ih hrs hsources]

theorem decode?_blank {s : String} (h : Text.isBlankLine s.toList = true) :
    ∃ cs, Text.decode? (Text.withoutReturn (Text.encode s)) = some cs ∧
      Text.isBlankLine cs = true := by
  obtain ⟨cs, hcs, hline⟩ := Text.withoutReturn_encoded s.toList
  have hread := Text.decode?_encode (String.ofList cs)
  rw [Text.encode, String.toList_ofList] at hread
  refine ⟨cs, ?_, ?_⟩
  · rw [Text.encode, hline, hread]
  · unfold Text.isBlankLine at h ⊢
    rw [List.all_eq_true] at h ⊢
    exact fun c hc => h c (hcs.subset hc)

theorem recordOn?_blank {s : String} (h : Text.isBlankLine s.toList = true) :
    recordOn? (Text.withoutReturn (Text.encode s)) = none := by
  obtain ⟨cs, hcs, hblank⟩ := decode?_blank h
  unfold recordOn?
  rw [hcs, Option.bind_some, if_pos hblank]

/-- The lines of the records of an index, in any order, and blank lines among them. -/
structure Rearranged (i : Index) (blanks : List String) (ls : List Bytes) : Prop where
  perm : ls.Perm ((i.records.map fun r => r.toJson.bytes) ++ blanks.map Text.encode)
  blank : ∀ s ∈ blanks, Text.isBlankLine s.toList = true ∧ '\n' ∉ s.toList

namespace Rearranged

variable {i : Index} {blanks : List String} {ls : List Bytes} (h : i.Rearranged blanks ls)

include h

/-- Every line is the line of a record or a blank line. -/
theorem cases {l : Bytes} (hl : l ∈ ls) :
    (∃ r ∈ i.records, l = r.toJson.bytes) ∨ ∃ s ∈ blanks, l = Text.encode s := by
  rcases List.mem_append.mp (h.perm.mem_iff.mp hl) with hr | hs
  · obtain ⟨r, hmem, rfl⟩ := List.mem_map.mp hr
    exact .inl ⟨r, hmem, rfl⟩
  · obtain ⟨s, hmem, rfl⟩ := List.mem_map.mp hs
    exact .inr ⟨s, hmem, rfl⟩

theorem no_feed : ∀ l ∈ ls, 0x0A ∉ l := by
  intro l hl
  rcases h.cases hl with ⟨r, -, rfl⟩ | ⟨s, hs, rfl⟩
  · exact (Json.onLine_bytes r.allPlain_toJson).no_feed
  · intro hfeed
    exact (h.blank s hs).2 (Text.mem_of_mem_encoded (by decide) rfl hfeed)

theorem legible (fits : ∀ r ∈ i.records, r.Fits) (text : i.isText = true) :
    ∀ l ∈ ls.map Text.withoutReturn, Legible l := by
  intro l' hl'
  obtain ⟨l, hl, rfl⟩ := List.mem_map.mp hl'
  rcases h.cases hl with ⟨r, hr, rfl⟩ | ⟨s, hs, rfl⟩
  · exact .inr ⟨r, recordOn?_record (fits r hr) (isText_iff.mp text r hr)⟩
  · exact .inl (decode?_blank (h.blank s hs).1)

/-- From the lines the records are read, in some order. -/
theorem records_perm (fits : ∀ r ∈ i.records, r.Fits) (text : i.isText = true) :
    ((ls.map Text.withoutReturn).filterMap recordOn?).Perm i.records := by
  have hall := (h.perm.map Text.withoutReturn).filterMap recordOn?
  have hblanks : ∀ l ∈ (blanks.map Text.encode).map Text.withoutReturn, recordOn? l = none := by
    intro l hl
    obtain ⟨b, hb, rfl⟩ := List.mem_map.mp hl
    obtain ⟨s, hs, rfl⟩ := List.mem_map.mp hb
    exact recordOn?_blank (h.blank s hs).1
  rwa [List.map_append, List.filterMap_append, filterMap_recordOn? fits (isText_iff.mp text),
    List.filterMap_eq_nil_iff.mpr hblanks, List.append_nil] at hall

/-- A rearranged file is loaded as the index that was saved. -/
theorem load (savable : i.Savable) (text : i.isText = true) (apart : Apart i.records)
    {files : Folder} {path : Path}
    (hread : files.read path = .ok (Text.joinLines (i.header.toJson.bytes :: ls))) :
    Index.load files path = .ok i := by
  have hheader := Json.onLine_bytes i.header.allPlain_toJson
  have hlines : Text.byteLines (Text.joinLines (i.header.toJson.bytes :: ls)) =
      i.header.toJson.bytes :: ls.map Text.withoutReturn := by
    rw [Text.byteLines_joinLines_feeds (List.forall_mem_cons.mpr ⟨hheader.no_feed, h.no_feed⟩),
      List.map_cons, Text.withoutReturn_onLine hheader]
  have perm := h.records_perm savable.records text
  have hrecords := readRecords_legible (h.legible savable.records text) 2
  generalize (ls.map Text.withoutReturn).filterMap recordOn? = rs at perm hrecords
  have hcount : rs.length = i.header.records := by
    rw [perm.length_eq, savable.proper.counted]
  have hindex : ofRecords i.header rs = i := by
    rw [← ofRecords_perm i.header apart perm.symm]
    exact savable.proper.ofRecords_records
  unfold Index.load
  rw [hread]
  dsimp only
  rw [read_header savable.header hlines, hrecords]
  simp only [Except.bind, hcount, ne_eq, not_true_eq_false, if_false, hindex]

end Rearranged

end Index

/-- Different streams in any order make one index, or fail for one reason. What is written of that
index has a line for the header and, if all sources are texts, one for each record; and with the
lines of the records in any order, and blank lines among them, the file is loaded as the same index.
-/
theorem an_index_does_not_show_the_order_of_arrival {streams others : List Stream}
    (distinct : Distinct streams) (perm : streams.Perm others) :
    (∀ t : ThresholdTable, t.Made → ∀ window width mode,
      Index.build streams t window width mode = Index.build others t window width mode) ∧
    ∀ i : Index, i.Descends streams → i.isText = true →
      Text.encode (String.ofList i.written) = Text.joinLines
        (i.header.toJson.bytes :: i.records.map fun r => r.toJson.bytes) ∧
      ∀ blanks ls files path, i.Rearranged blanks ls →
        files.read path = .ok (Text.joinLines (i.header.toJson.bytes :: ls)) →
        Index.load files path = .ok i := by
  refine ⟨fun t made window width mode => Index.build_perm made distinct perm window width mode,
    fun i life text => ⟨Index.written_of_isText text ▸ i.encode_toChars, ?_⟩⟩
  intro blanks ls files path rearranged hread
  exact rearranged.load life.savable text (life.apart distinct) hread

/-- Two streams come in both orders, and the lines of their windows are turned around behind a blank
line that ends in a carriage return. -/
theorem two_streams_arrive_in_both_orders :
    let t : ThresholdTable := ⟨1, 0.5, [("a", 1), ("b", 1)]⟩
    let s : Stream := ⟨⟨⟨"d/s"⟩, none, 6⟩, [⟨6, ["a", "a"]⟩, ⟨8, ["a"]⟩, ⟨9, []⟩]⟩
    let r : Stream := ⟨⟨⟨"d//s"⟩, some "f", 6⟩, [⟨6, ["a", "a"]⟩, ⟨7, []⟩]⟩
    Distinct [s, r] ∧ ∃ i ls files, Index.build [s, r] t 1 1 .wholeFile = .ok i ∧
      Index.build [r, s] t 1 1 .wholeFile = .ok i ∧ i.isText = true ∧ i.Rearranged ["\t\r"] ls ∧
      files.read ⟨"i.jsonl"⟩ = .ok (Text.joinLines (i.header.toJson.bytes :: ls)) ∧
      Index.load files ⟨"i.jsonl"⟩ = .ok i := by
  intro t s r
  have ok : ThresholdTable.ofParts 1 0.5 t.entries = .ok t := rfl
  have made : t.Made := .given (by decide) ok
  have distinct : Distinct [s, r] := by
    unfold Distinct
    decide
  have hbuild := @build_eq t 1 (by decide) (by decide) (by decide) (by decide) [s, r] .wholeFile
  generalize Index.ofRecords _ _ = i at hbuild
  have fits : CorpusFits [s, r] := ⟨by decide, by decide, by decide⟩
  have life : i.Descends [s, r] :=
    .built made fits (by decide) (by decide) (by decide) hbuild
  have rearranged : i.Rearranged ["\t\r"]
      (Text.encode "\t\r" :: (i.records.map fun r => r.toJson.bytes).reverse) :=
    ⟨((List.reverse_perm _).cons _).trans (List.perm_append_singleton _ _).symm, by decide⟩
  have text := Index.isText_of_build hbuild (by simp [s, r])
  obtain ⟨hsame, hload⟩ := an_index_does_not_show_the_order_of_arrival distinct
    (List.Perm.swap r s [])
  have hread : (Folder.file "i.jsonl" (Text.joinLines (i.header.toJson.bytes ::
      Text.encode "\t\r" :: (i.records.map fun r => r.toJson.bytes).reverse)) .empty).read
        ⟨"i.jsonl"⟩ = .ok (Text.joinLines (i.header.toJson.bytes ::
          Text.encode "\t\r" :: (i.records.map fun r => r.toJson.bytes).reverse)) := rfl
  exact ⟨distinct, i, _, _, hbuild, (hsame t made 1 1 .wholeFile).symm.trans hbuild, text,
    rearranged, hread, (hload i life text).2 _ _ _ _ rearranged hread⟩

end Lookalike
