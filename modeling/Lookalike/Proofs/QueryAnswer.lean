-- What an engine answers. Of the records of one bucket it finds those that are
-- similar enough, and the report is made of what was found; so it can be read
-- off the index, the table and the first lines of the query.
import Lookalike.Proofs.ArrivalOrder

namespace Lookalike

/-! ## Records beside a query -/

/-- The bucket number of the first lines of a query. -/
def ThresholdTable.bucketOf (t : ThresholdTable) (width : Nat) (q : Stream) : UInt64 :=
  (t.bitsOf (q.lines.take t.window)).bucket width

/-- The full vector of the first lines of a query. -/
def ThresholdTable.vectorOf (t : ThresholdTable) (q : Stream) : FullVector :=
  (t.bitsOf (q.lines.take t.window)).full

/-- How similar a record is to a query. -/
def Record.score (t : ThresholdTable) (q : Stream) (r : Record) : Float :=
  r.full.similarity (t.vectorOf q) t.size

def Record.toMatch (t : ThresholdTable) (q : Stream) (r : Record) : Match :=
  ⟨r.id, r.offset, r.line, r.full.hamming (t.vectorOf q), r.score t q⟩

namespace Index

/-- The records with the bucket number of a query, in the order of the index. -/
def candidates (i : Index) (t : ThresholdTable) (width : Nat) (q : Stream) : List Record :=
  i.records.filter fun r => r.bucket == t.bucketOf width q

/-- The candidates that are similar enough, as matches. -/
def found (i : Index) (t : ThresholdTable) (options : QueryOptions) (q : Stream) : List Match :=
  ((i.candidates t options.width q).filter fun r => options.minSimilarity ≤ r.score t q).map
    (Record.toMatch t q)

/-- The report on a query. -/
def reportOn (i : Index) (t : ThresholdTable) (options : QueryOptions) (q : Stream) : Report :=
  ⟨q.id.text, t.bucketOf options.width q, t.size, (i.candidates t options.width q).length,
    limited options.limit (rankMatches (i.found t options q)), groupMatches (i.found t options q),
    i.header.degenerate⟩

theorem le_similarity_of_found {i : Index} {t : ThresholdTable} {options : QueryOptions}
    {q : Stream} {m : Match} (h : m ∈ i.found t options q) :
    options.minSimilarity ≤ m.similarity := by
  obtain ⟨r, hr, rfl⟩ := List.mem_map.mp h
  exact of_decide_eq_true (List.mem_filter.mp hr).2

/-- Without a limit, a record with the bucket number of a query that is similar enough is ranked. -/
theorem toMatch_mem_ranked {i : Index} {r : Record} (hr : r ∈ i.records) {t : ThresholdTable}
    {width : Nat} {q : Stream} (hbucket : r.bucket = t.bucketOf width q) {least : Float}
    (hscore : least ≤ r.score t q) :
    r.toMatch t q ∈ (i.reportOn t ⟨width, none, least⟩ q).ranked := by
  have hcandidate : r ∈ i.candidates t width q := List.mem_filter.mpr ⟨hr, beq_iff_eq.mpr hbucket⟩
  exact List.mem_mergeSort.mpr
    (List.mem_map_of_mem (List.mem_filter.mpr ⟨hcandidate, decide_eq_true hscore⟩))

end Index

/-- An engine for one limit and one least similarity is one for all of them. -/
theorem Engine.make_others {i : Index} {t : ThresholdTable} {options : QueryOptions} {e : Engine}
    (ready : Engine.make i t options = .ok e) (limit : Option Nat) (least : Float) :
    ∃ e', Engine.make i t ⟨options.width, limit, least⟩ = .ok e' := by
  obtain ⟨hcheck, ⟨hdegenerate, -⟩ | ⟨hfull, hfits, -⟩⟩ := Engine.make_eq_ok_iff.mp ready
  · exact ⟨_, Engine.make_eq_ok_iff.mpr ⟨hcheck, .inl ⟨hdegenerate, rfl⟩⟩⟩
  · exact ⟨_, Engine.make_eq_ok_iff.mpr ⟨hcheck, .inr ⟨hfull, hfits, rfl⟩⟩⟩

/-! ## Built indexes -/

/-- A bucket width that fits its table makes an index of the records of all spots, and an engine on
it. -/
theorem exists_engine {t : ThresholdTable} (hw : 0 < t.window) {width : Nat} (h0 : 0 < width)
    (h64 : width ≤ 64) (hsize : width < t.size) (streams : List Stream) (mode : Segmentation)
    (limit : Option Nat) (least : Float) :
    ∃ i e, Index.build streams t t.window width mode = .ok i ∧
      Engine.make i t ⟨width, limit, least⟩ = .ok e ∧ i.header.window = t.window ∧
      i.records.Perm ((Spot.all streams t.window).map (Spot.record ⟨t, width⟩)) :=
  ⟨_, _, build_eq hw h0 h64 hsize streams mode, make_engine_eq h0 h64 hsize mode _ limit least, rfl,
    Index.records_ofRecords_perm _ _⟩

section

variable {streams : List Stream} {t₀ : ThresholdTable} (made : t₀.Made) {window width : Nat}
  {mode : Segmentation} {i : Index}
  (built : Index.build streams t₀ window width mode = .ok i ∨
    ∃ n, Index.buildStamped streams t₀ n window width mode = .ok i)

include made built

namespace Index

theorem soundFor_of_built : i.SoundFor streams := by
  rcases built with h | ⟨n, h⟩
  · exact soundFor_build made h
  · obtain ⟨plain, hplain, rfl⟩ := buildStamped_eq_ok_iff.mp h
    exact (soundFor_build made hplain).stamp n.identity

theorem apart_of_built (distinct : Distinct streams) : Apart i.records := by
  rcases built with h | ⟨n, h⟩
  · exact apart_build made h distinct
  · obtain ⟨plain, hplain, rfl⟩ := buildStamped_eq_ok_iff.mp h
    have apart : Apart plain.records := apart_build made hplain distinct
    exact apart

end Index

/-! ## Answers -/

variable {t : ThresholdTable} {options : QueryOptions} {e : Engine}
  (ready : Engine.make i t options = .ok e) (q : Stream)

include ready

/-- A stream that is shorter than the window is refused; every other one gets its report. -/
theorem Engine.query_eq_report :
    e.query q = if q.lines.length < i.header.window then
        .error (.of (.queryTooShort q.lines.length i.header.window))
      else .ok (i.reportOn t options q) := by
  have sound := Index.soundFor_of_built made built
  obtain ⟨hcheck, hcases⟩ := Engine.make_eq_ok_iff.mp ready
  obtain ⟨hwindow, hsize, -, -⟩ := Index.checkTable_eq_ok_iff.mp hcheck
  have hpositive : 0 < i.header.window :=
    (Index.notes_of_built built).1 ▸ made.window_pos
  split_ifs with hlength
  · have hfirst : firstWindow? q.lines i.header.window = none := if_pos (.inr hlength)
    unfold Engine.query
    rw [Engine.index_of_make ready, hfirst]
  · have hlong := Nat.le_of_not_lt hlength
    rcases hcases with ⟨hdegenerate, rfl⟩ | ⟨hfull, -, rfl⟩
    · -- without symbols there is one bucket number, no bit and no record
      have hentries : t.entries = [] :=
        List.length_eq_zero_iff.mp (hsize.symm.trans (sound.degenerate.mp hdegenerate))
      obtain ⟨w, hfirst, -, -⟩ := firstWindow?_recounts hpositive hlong
      unfold Engine.query Index.reportOn Index.found Index.candidates
      rw [hfirst, sound.bare hdegenerate, hdegenerate]
      cases hlimit : options.limit <;>
        simp [limited, rankMatches, groupMatches, Report.degenerate, ThresholdTable.size,
          ThresholdTable.bucketOf, ThresholdTable.bitsOf, BitVector.bucket, hentries]
    · rw [query_eq (e := ⟨t, options.width⟩) rfl hwindow (hwindow ▸ hpositive) (hwindow ▸ hlong),
        Engine.retained, sound.lookup, List.filter_map, Index.reportOn, hfull]
      rfl

end

end Lookalike
