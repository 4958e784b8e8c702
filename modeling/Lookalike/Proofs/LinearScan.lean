-- An index answers as a scan of the whole corpus does. The scan counts the
-- tokens of each window from scratch and compares it with the query symbol by
-- symbol; it knows neither buckets nor words nor sliding counts.
import Lookalike.Proofs.Buckets
import Lookalike.Proofs.BuiltIndex
import Lookalike.Proofs.Packing
import Lookalike.Proofs.Recount
import Lookalike.Query

namespace Lookalike

/-! ## The scan -/

/-- Whether a symbol occurs in lines more often than its threshold. -/
def exceeds (e : String × UInt32) (ls : List Line) : Bool := e.2.toNat < occurrences e.1 ls

/-- A place of a stream at which a window is indexed. -/
structure Spot where
  stream : Stream
  place : Nat

namespace Spot

def lines (p : Spot) (width : Nat) : List Line := windowLines p.stream.lines width p.place

/-- Every place of every stream behind whose window a line is left. -/
def all (streams : List Stream) (width : Nat) : List Spot :=
  streams.flatMap fun s => (List.range (s.lines.length - width)).map fun i => ⟨s, i⟩

/-- Whether the window and the first lines of a query agree on the leading symbols. -/
def isHit (t : ThresholdTable) (width : Nat) (q : Stream) (p : Spot) : Bool :=
  (t.entries.take width).all fun e =>
    exceeds e (p.lines t.window) == exceeds e (q.lines.take t.window)

/-- The number of symbols on which the window and the first lines of a query differ. -/
def distance (t : ThresholdTable) (q : Stream) (p : Spot) : Nat :=
  t.entries.countP fun e => exceeds e (p.lines t.window) != exceeds e (q.lines.take t.window)

/-- The listing line of the first line of the window. -/
def line (p : Spot) : Nat := (p.stream.lines[p.place]?.map (·.number)).getD 0

/-- One less the share of symbols that differ. -/
def similarity (t : ThresholdTable) (q : Stream) (p : Spot) : Float :=
  1 - Decimal.nearest false (p.distance t q) 1 / Decimal.nearest false t.size 1

def toMatch (t : ThresholdTable) (q : Stream) (p : Spot) : Match :=
  ⟨p.stream.id, p.place, p.line, p.distance t q, p.similarity t q⟩

end Spot

/-- The windows of a corpus that agree with a query on the leading symbols. -/
def hits (t : ThresholdTable) (width : Nat) (streams : List Stream) (q : Stream) : List Spot :=
  (Spot.all streams t.window).filter (Spot.isHit t width q)

/-! ## The records of a corpus -/

def ThresholdTable.bitsOf (t : ThresholdTable) (ls : List Line) : BitVector :=
  t.entries.map fun e => exceeds e ls

theorem ThresholdTable.length_bitsOf (t : ThresholdTable) (ls : List Line) :
    (t.bitsOf ls).length = t.size := by
  rw [bitsOf, List.length_map, size]

theorem ThresholdTable.bits_eq_bitsOf (t : ThresholdTable) {c : Counts} {ls : List Line}
    (h : c.Recounts ls) : t.bits c = t.bitsOf ls := by
  unfold bits bitsOf exceeds
  simp only [h.get_eq]

def Encoder.fingerprint (e : Encoder) (ls : List Line) : Fingerprint :=
  ⟨(e.table.bitsOf ls).bucket e.width, (e.table.bitsOf ls).full⟩

theorem Encoder.encode_eq (e : Encoder) {c : Counts} {ls : List Line} (h : c.Recounts ls) :
    e.encode c = e.fingerprint ls := by
  rw [Encoder.encode, e.table.bits_eq_bitsOf h, Encoder.fingerprint]

def Spot.record (e : Encoder) (p : Spot) : Record :=
  let f := e.fingerprint (p.lines e.table.window)
  ⟨p.stream.id, p.place, p.line, f.bucket, f.full⟩

/-- The fingerprint of the first lines of a query. -/
def Encoder.queryPrint (e : Encoder) (q : Stream) : Fingerprint :=
  e.fingerprint (q.lines.take e.table.window)

theorem recordsOf_eq (e : Encoder) (hw : 0 < e.table.window) (s : Stream) :
    Index.recordsOf e e.table.window s =
      (List.range (s.lines.length - e.table.window)).map fun i => Spot.record e ⟨s, i⟩ := by
  have hlen := length_windows hw s.lines
  unfold Index.recordsOf
  apply List.ext_getElem
  · rw [List.length_map, List.length_zip, List.length_map, List.length_range, hlen]
    omega
  · intro i hi hi'
    rw [List.length_map, List.length_range] at hi'
    have hl : i < s.lines.length := by omega
    obtain ⟨-, -, hwin⟩ := window_at (List.getElem?_eq_getElem (hlen.symm ▸ hi'))
    simp only [List.getElem_map, List.getElem_zip, List.getElem_range]
    rw [e.encode_eq hwin.recounts, hwin.offset_eq]
    simp [Spot.record, Spot.line, Spot.lines, hl]

theorem flatMap_recordsOf (e : Encoder) (hw : 0 < e.table.window) (streams : List Stream) :
    streams.flatMap (Index.recordsOf e e.table.window) =
      (Spot.all streams e.table.window).map (Spot.record e) := by
  rw [Spot.all, List.map_flatMap]
  congr 1
  funext s
  rw [recordsOf_eq e hw, List.map_map]
  rfl

theorem Spot.of_mem_all {streams : List Stream} {width : Nat} {p : Spot}
    (h : p ∈ Spot.all streams width) :
    p.stream ∈ streams ∧ p.place < p.stream.lines.length - width := by
  obtain ⟨s, hs, hp⟩ := List.mem_flatMap.mp h
  obtain ⟨k, hk, rfl⟩ := List.mem_map.mp hp
  exact ⟨hs, List.mem_range.mp hk⟩

/-- There are as many spots as lines behind whole windows. -/
theorem Spot.length_all (streams : List Stream) (width : Nat) :
    (Spot.all streams width).length = (streams.map fun s => s.lines.length - width).sum := by
  rw [Spot.all, List.length_flatMap]
  simp only [List.length_map, List.length_range]

/-! ## The bucket of a query -/

theorem isHit_iff (t : ThresholdTable) (width : Nat) (q : Stream) (p : Spot) :
    p.isHit t width q = true ↔
      (t.bitsOf (p.lines t.window)).take width =
        (t.bitsOf (q.lines.take t.window)).take width := by
  unfold Spot.isHit ThresholdTable.bitsOf
  rw [← List.map_take, ← List.map_take, List.map_inj_left, List.all_eq_true]
  simp only [beq_iff_eq]

/-- The records in the bucket of a query are those of the hits. -/
theorem filter_bucket_eq (e : Encoder) (h64 : e.width ≤ 64) (streams : List Stream) (q : Stream) :
    ((Spot.all streams e.table.window).map (Spot.record e)).filter
        (fun r => r.bucket == (e.queryPrint q).bucket) =
      (hits e.table e.width streams q).map (Spot.record e) := by
  rw [List.filter_map, hits]
  congr 1
  apply List.filter_congr
  intro p _
  rw [Bool.eq_iff_iff, isHit_iff, Function.comp_apply, beq_iff_eq]
  exact BitVector.bucket_inj h64 (by simp [ThresholdTable.length_bitsOf])

theorem hamming_record (e : Encoder) (q : Stream) (p : Spot) :
    (p.record e).full.hamming (e.queryPrint q).full = p.distance e.table q := by
  have hlen : (e.table.bitsOf (p.lines e.table.window)).length =
      (e.table.bitsOf (q.lines.take e.table.window)).length := by
    simp [ThresholdTable.length_bitsOf]
  have hd := BitVector.hamming_full hlen
  unfold Encoder.queryPrint Spot.record Encoder.fingerprint
  simp only [hd]
  exact BitVector.differing_map _ _ _

/-! ## Building and asking -/

theorem isEmpty_of_fits {t : ThresholdTable} {width : Nat} (hsize : width < t.size) :
    t.isEmpty = false := by
  rw [ThresholdTable.isEmpty, List.isEmpty_eq_false_iff, ← List.length_pos_iff]
  exact Nat.lt_of_le_of_lt (Nat.zero_le _) hsize

theorem build_eq {t : ThresholdTable} {width : Nat} (hw : 0 < t.window) (h0 : 0 < width)
    (h64 : width ≤ 64) (hsize : width < t.size) (streams : List Stream) (mode : Segmentation) :
    Index.build streams t t.window width mode =
      .ok (Index.ofRecords (t.header width mode)
        ((Spot.all streams t.window).map (Spot.record ⟨t, width⟩))) := by
  rw [← flatMap_recordsOf ⟨t, width⟩ hw streams]
  exact Index.build_eq_ok_iff.mpr ⟨rfl, .inr ⟨isEmpty_of_fits hsize, ⟨h0, h64, hsize⟩, rfl⟩⟩

/-- What was built is a bare index of an empty table, or the index of the records of all spots. -/
theorem build_spots {t : ThresholdTable} (made : t.Made) {streams : List Stream}
    {window width : Nat} {mode : Segmentation} {i : Index}
    (h : Index.build streams t window width mode = .ok i) :
    window = t.window ∧ ((t.isEmpty = true ∧ i = ⟨t.header width mode, []⟩) ∨
      (t.isEmpty = false ∧ (0 < width ∧ width ≤ 64 ∧ width < t.size) ∧
        i = Index.ofRecords (t.header width mode)
          ((Spot.all streams t.window).map (Spot.record ⟨t, width⟩)))) := by
  rw [← flatMap_recordsOf ⟨t, width⟩ made.window_pos]
  exact Index.build_eq_ok_iff.mp h

theorem checkTable_ofRecords (t : ThresholdTable) (width : Nat) (mode : Segmentation)
    (rs : List Record) :
    (Index.ofRecords (t.header width mode) rs).checkTable t width = .ok () :=
  Index.checkTable_eq_ok_iff.mpr ⟨rfl, rfl, rfl, rfl⟩

theorem Engine.make_eq_ok_iff {i : Index} {t : ThresholdTable} {options : QueryOptions}
    {e : Engine} : Engine.make i t options = .ok e ↔
      i.checkTable t options.width = .ok () ∧
        ((i.header.degenerate = true ∧ e = ⟨i, none, t.size, options⟩) ∨
          (i.header.degenerate = false ∧
            (0 < options.width ∧ options.width ≤ 64 ∧ options.width < t.size) ∧
            e = ⟨i, some ⟨t, options.width⟩, t.size, options⟩)) := by
  unfold Engine.make
  rw [Attempt.bind_eq_ok_iff]
  constructor
  · rintro ⟨u, hcheck, h⟩
    refine ⟨hcheck, ?_⟩
    split_ifs at h with hdegenerate
    · cases h
      exact .inl ⟨hdegenerate, rfl⟩
    · obtain ⟨encoder, hmake, h⟩ := Attempt.bind_eq_ok_iff.mp h
      obtain ⟨hfits, rfl⟩ := Encoder.make_eq_ok_iff.mp hmake
      cases h
      exact .inr ⟨Bool.eq_false_iff.mpr hdegenerate, hfits, rfl⟩
  · rintro ⟨hcheck, ⟨hdegenerate, rfl⟩ | ⟨hdegenerate, hfits, rfl⟩⟩
    · exact ⟨(), hcheck, if_pos hdegenerate⟩
    · refine ⟨(), hcheck, ?_⟩
      rw [hdegenerate, Encoder.make_eq_ok_iff.mpr ⟨hfits, rfl⟩]
      rfl

theorem Engine.index_of_make {i : Index} {t : ThresholdTable} {options : QueryOptions} {e : Engine}
    (h : Engine.make i t options = .ok e) : e.index = i := by
  obtain ⟨-, ⟨-, rfl⟩ | ⟨-, -, rfl⟩⟩ := Engine.make_eq_ok_iff.mp h <;> rfl

theorem make_engine_eq {t : ThresholdTable} {width : Nat} (h0 : 0 < width) (h64 : width ≤ 64)
    (hsize : width < t.size) (mode : Segmentation) (rs : List Record) (limit : Option Nat)
    (least : Float) :
    Engine.make (Index.ofRecords (t.header width mode) rs) t ⟨width, limit, least⟩ =
      .ok ⟨Index.ofRecords (t.header width mode) rs, some ⟨t, width⟩, t.size,
        ⟨width, limit, least⟩⟩ :=
  Engine.make_eq_ok_iff.mpr ⟨checkTable_ofRecords t width mode rs,
    .inr ⟨isEmpty_of_fits hsize, ⟨h0, h64, hsize⟩, rfl⟩⟩

/-- A record beside the fingerprint of a query says what the scan says. -/
theorem toMatch_record (e : Encoder) (index : Index) (options : QueryOptions) (q : Stream)
    (hsize : e.table.size ≠ 0) (p : Spot) :
    Engine.toMatch ⟨index, some e, e.table.size, options⟩ (e.queryPrint q) (p.record e) =
      p.toMatch e.table q := by
  unfold Engine.toMatch FullVector.similarity
  rw [hamming_record, if_neg hsize]
  rfl

/-- The matches that an engine retains are the hits that are similar enough. -/
theorem retained_perm {e : Encoder} (h64 : e.width ≤ 64) (hsize : e.table.size ≠ 0)
    (streams : List Stream) (header : Header) (options : QueryOptions) (q : Stream) :
    (Engine.retained
        ⟨Index.ofRecords header ((Spot.all streams e.table.window).map (Spot.record e)), some e,
          e.table.size, options⟩ (e.queryPrint q)).Perm
      (((hits e.table e.width streams q).map (Spot.toMatch e.table q)).filter
        fun m => options.minSimilarity ≤ m.similarity) := by
  have hlook := Index.lookup_ofRecords_perm header
    ((Spot.all streams e.table.window).map (Spot.record e)) (e.queryPrint q).bucket
  rw [filter_bucket_eq e h64] at hlook
  have hmap : ((hits e.table e.width streams q).map (Spot.record e)).map
      (Engine.toMatch ⟨Index.ofRecords header ((Spot.all streams e.table.window).map
        (Spot.record e)), some e, e.table.size, options⟩ (e.queryPrint q)) =
      (hits e.table e.width streams q).map (Spot.toMatch e.table q) := by
    rw [List.map_map]
    exact List.map_congr_left fun p _ => toMatch_record e _ options q hsize p
  rw [← hmap]
  exact (hlook.map _).filter _

/-- What an engine reports on a query that is long enough. -/
theorem query_eq {engine : Engine} {e : Encoder} {q : Stream} (hengine : engine.encoder = some e)
    (hwindow : engine.index.header.window = e.table.window) (hw : 0 < e.table.window)
    (long : e.table.window ≤ q.lines.length) :
    engine.query q = .ok ⟨q.id.text, (e.queryPrint q).bucket, engine.bits,
      (engine.index.lookup (e.queryPrint q).bucket).length,
      limited engine.options.limit (rankMatches (engine.retained (e.queryPrint q))),
      groupMatches (engine.retained (e.queryPrint q)), false⟩ := by
  obtain ⟨w, hfirst, -, hcounts⟩ := firstWindow?_recounts hw long
  unfold Engine.query
  simp only [hwindow, hfirst, hengine, e.encode_eq hcounts]
  rfl

/-- An index finds for a query what a scan of the corpus finds: as many candidates as there are
hits, and without a limit each hit that is similar enough, once. -/
theorem an_index_answers_as_a_scan {t : ThresholdTable} (made : t.Made) {width : Nat}
    {encoder : Encoder} (fits : Encoder.make t width = .ok encoder) (streams : List Stream)
    (mode : Segmentation) {q : Stream} (long : t.window ≤ q.lines.length) (limit : Option Nat)
    (least : Float) :
    ∃ index engine report,
      Index.build streams t t.window width mode = .ok index ∧
      Engine.make index t ⟨width, limit, least⟩ = .ok engine ∧
      engine.query q = .ok report ∧
      report.candidates = (hits t width streams q).length ∧
      (limit = none → report.ranked.Perm
        (((hits t width streams q).map (Spot.toMatch t q)).filter
          fun m => least ≤ m.similarity)) := by
  obtain ⟨⟨h0, h64, hsize⟩, rfl⟩ := Encoder.make_eq_ok_iff.mp fits
  have hw := made.window_pos
  have hbuild := build_eq hw h0 h64 hsize streams mode
  generalize hrs : (Spot.all streams t.window).map (Spot.record ⟨t, width⟩) = rs at hbuild
  have hmake := make_engine_eq h0 h64 hsize mode rs limit least
  refine ⟨_, _, _, hbuild, hmake, query_eq (e := ⟨t, width⟩) rfl rfl hw long, ?_, ?_⟩
  · have hlook := Index.lookup_ofRecords_perm (t.header width mode) rs
      ((⟨t, width⟩ : Encoder).queryPrint q).bucket
    rw [← hrs, filter_bucket_eq ⟨t, width⟩ h64] at hlook
    rw [← hrs]
    simpa using hlook.length_eq
  · rintro rfl
    have hkept := retained_perm (e := ⟨t, width⟩) h64 (by simp only; omega) streams
      (t.header width mode) ⟨width, none, least⟩ q
    rw [← hrs]
    exact (List.mergeSort_perm _ _).trans hkept

/-- Two windows of a corpus agree with the query on the first symbol, one of them not on the
second. -/
theorem a_scan_of_two_streams :
    let t : ThresholdTable := ⟨1, 0.5, [("a", 1), ("b", 1)]⟩
    let s : Stream := ⟨⟨⟨"s"⟩, none, 6⟩, [⟨6, ["a", "a"]⟩, ⟨7, ["b"]⟩, ⟨9, ["b", "b"]⟩]⟩
    let r : Stream := ⟨⟨⟨"r"⟩, some "f", 2⟩, [⟨3, ["a", "b", "a", "b"]⟩, ⟨4, []⟩]⟩
    t.Made ∧ Encoder.make t 1 = .ok ⟨t, 1⟩ ∧ t.window ≤ s.lines.length ∧
      ∃ index engine report,
        Index.build [s, r] t 1 1 .wholeFile = .ok index ∧
        Engine.make index t ⟨1, none, 0⟩ = .ok engine ∧
        engine.query s = .ok report ∧ report.candidates = 2 := by
  intro t s r
  have ok : ThresholdTable.ofParts 1 0.5 t.entries = .ok t := rfl
  have made : t.Made := .given (by decide) ok
  have fits : Encoder.make t 1 = .ok ⟨t, 1⟩ := rfl
  have long : t.window ≤ s.lines.length := by decide
  obtain ⟨index, engine, report, hbuild, hmake, hquery, hcount, -⟩ :=
    an_index_answers_as_a_scan made fits [s, r] .wholeFile long none 0
  have hhits : (hits t 1 [s, r] s).length = 2 := by decide
  exact ⟨made, fits, long, index, engine, report, hbuild, hmake, hquery, hcount.trans hhits⟩

end Lookalike
