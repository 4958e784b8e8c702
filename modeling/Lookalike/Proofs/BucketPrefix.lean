-- What a match differs in. The records of a bucket begin with the bits of the
-- query, so their distances count the bits behind the bucket prefix only. That
-- holds of an index that was built, and of one that was saved and loaded again.
import Lookalike.Proofs.Distance
import Lookalike.Proofs.Locations
import Lookalike.Proofs.QueryAnswer

namespace Lookalike

/-! ## Bits behind a prefix -/

namespace BitVector

variable {as bs : List Bool} (hlen : as.length = bs.length)

theorem differing_self (bits : List Bool) : differing bits bits = 0 := by
  induction bits with
  | nil => rfl
  | cons b bits ih =>
    rw [differing_cons, ih]
    cases b <;> rfl

include hlen

/-- Bits that begin alike differ as often as what is behind. -/
theorem differing_of_take_eq {width : Nat} (h : as.take width = bs.take width) :
    differing as bs =
      Nat.count (fun k => as[width + k]? ≠ bs[width + k]?) (as.length - width) := by
  have hprefix : (as.take width).length = (bs.take width).length := by rw [h]
  have hrest : (as.drop width).length = (bs.drop width).length := by
    rw [List.length_drop, List.length_drop, hlen]
  calc differing as bs
      = differing (as.take width ++ as.drop width) (bs.take width ++ bs.drop width) := by
        rw [List.take_append_drop, List.take_append_drop]
    _ = differing (as.drop width) (bs.drop width) := by
        rw [differing_append hprefix, h, differing_self, Nat.zero_add]
    _ = _ := by
        rw [differing_eq_count hrest, List.length_drop]
        simp only [List.getElem?_drop]

theorem differing_eq_zero_iff :
    differing as bs = 0 ↔ ∀ k < as.length, as[k]? = bs[k]? := by
  rw [differing_eq_count hlen, Nat.count_iff_forall_not]
  simp only [not_not]

end BitVector

/-! ## Spots and windows -/

theorem Spot.window_of_mem {streams : List Stream} {width : Nat} (hw : 0 < width) {p : Spot}
    (h : p ∈ Spot.all streams width) :
    ∃ w, (windows p.stream.lines width)[p.place]? = some w ∧ w.counts.Recounts (p.lines width) := by
  have hplace : p.place < (windows p.stream.lines width).length := by
    rw [length_windows hw]
    exact (Spot.of_mem_all h).2
  have hget := List.getElem?_eq_getElem hplace
  exact ⟨_, hget, (window_at hget).2.2.recounts⟩

/-! ## Indexes that are kept -/

theorem Index.savable_of_built {streams : List Stream} {t : ThresholdTable} {window width : Nat}
    {mode : Segmentation} {i : Index} (made : t.Made) (fits : CorpusFits streams)
    (hwindow : window < 2 ^ 64) (hwidth : width < 2 ^ 64) (hsize : t.size < 2 ^ 64)
    (built : build streams t window width mode = .ok i ∨
      ∃ n, buildStamped streams t n window width mode = .ok i) : i.Savable := by
  rcases built with h | ⟨n, h⟩
  · exact savable_of_build made fits hwindow hwidth hsize h
  · obtain ⟨plain, hplain, rfl⟩ := buildStamped_eq_ok_iff.mp h
    exact (savable_of_build made fits hwindow hwidth hsize hplain).stamp n.identity

/-- An index of streams: it is built; or, if its sources are texts, so that it can be saved, it is
loaded from a file that holds what is saved of it. -/
inductive Index.Kept (streams : List Stream) (t : ThresholdTable) (window width : Nat) :
    Index → Prop where
  | built {mode : Segmentation} {i : Index}
      (ok : build streams t window width mode = .ok i ∨
        ∃ n, buildStamped streams t n window width mode = .ok i) : Kept streams t window width i
  | reloaded {i j : Index} {files : Folder} {path : Path} (before : Kept streams t window width i)
      (fits : CorpusFits streams) (hwindow : window < 2 ^ 64) (hwidth : width < 2 ^ 64)
      (hsize : t.size < 2 ^ 64) (text : i.isText = true)
      (saved : files.read path = .ok (Text.encode (String.ofList i.toChars)))
      (ok : load files path = .ok j) : Kept streams t window width j

section

variable {streams : List Stream} {t : ThresholdTable} (made : t.Made) {window width : Nat}
  {i : Index} (kept : i.Kept streams t window width)

include made kept

theorem Index.Kept.built_before : ∃ mode, build streams t window width mode = .ok i ∨
    ∃ n, buildStamped streams t n window width mode = .ok i := by
  induction kept with
  | built ok => exact ⟨_, ok⟩
  | reloaded before fits hwindow hwidth hsize text saved ok ih =>
    obtain ⟨mode, hbuilt⟩ := ih
    rw [(savable_of_built made fits hwindow hwidth hsize hbuilt).load_saved text saved] at ok
    cases ok
    exact ⟨mode, hbuilt⟩

/-- A match is a spot whose window agrees with the query on the bits of the bucket number. -/
theorem Index.Kept.spot_of_match {options : QueryOptions} {e : Engine}
    (ready : Engine.make i t options = .ok e) {q : Stream} {report : Report}
    (ok : e.query q = .ok report) {m : Match} (hm : m ∈ report.ranked) :
    t.window ≤ q.lines.length ∧ ∃ p ∈ Spot.all streams t.window, p.isHit t width q = true ∧
      m = (p.record ⟨t, width⟩).toMatch t q := by
  obtain ⟨mode, hbuilt⟩ := kept.built_before made
  obtain ⟨hcheck, hcases⟩ := Engine.make_eq_ok_iff.mp ready
  obtain ⟨hwindow, -, -, hsame⟩ := Index.checkTable_eq_ok_iff.mp hcheck
  have hwidth : options.width = width := hsame.symm.trans (notes_of_built hbuilt).2.2.2
  rw [Engine.query_eq_report made hbuilt ready] at ok
  split_ifs at ok with hlength
  cases ok
  obtain ⟨r, hr, rfl⟩ := List.mem_map.mp (mem_of_mem_limited hm)
  obtain ⟨hrecord, hbucket⟩ := List.mem_filter.mp (List.mem_filter.mp hr).1
  obtain ⟨p, hp, rfl⟩ := spot_of_built made hbuilt hrecord
  refine ⟨hwindow ▸ Nat.le_of_not_lt hlength, p, hp, ?_, rfl⟩
  have h64 : width ≤ 64 := by
    rcases hcases with ⟨hdegenerate, -⟩ | ⟨-, ⟨-, h64, -⟩, -⟩
    · -- without symbols there is no record
      rw [(soundFor_of_built made hbuilt).bare hdegenerate] at hrecord
      cases hrecord
    · exact hwidth ▸ h64
  rw [isHit_iff, ← BitVector.bucket_inj h64 (by simp [ThresholdTable.length_bitsOf])]
  rw [hwidth] at hbucket
  exact beq_iff_eq.mp hbucket

end

/-- However an index is kept, a match of a query with its table begins with the bits of the bucket
number of the query. Its distance is the number of bits behind these that differ; so it is at most
the number of symbols behind the bucket width, and zero just if no bit differs at all. -/
theorem matches_differ_behind_the_bucket {streams : List Stream} {t : ThresholdTable}
    (made : t.Made) {window width : Nat} {i : Index} (kept : i.Kept streams t window width)
    {options : QueryOptions} {e : Engine} (ready : Engine.make i t options = .ok e) {q : Stream}
    {report : Report} (ok : e.query q = .ok report) {m : Match} (hm : m ∈ report.ranked) :
    ∃ s ∈ streams, s.id = m.id ∧ ∃ w, (windows s.lines t.window)[m.offset]? = some w ∧
      ∃ first, firstWindow? q.lines t.window = some first ∧
        let bits := t.bits w.counts
        let others := t.bits first.counts
        (∀ k < width, bits[k]? = others[k]?) ∧
          m.distance = Nat.count (fun k => bits[width + k]? ≠ others[width + k]?)
            (t.size - width) ∧
          m.distance ≤ t.size - width ∧
          (m.distance = 0 ↔ ∀ k < t.size, bits[k]? = others[k]?) := by
  obtain ⟨long, p, hp, hhit, rfl⟩ := kept.spot_of_match made ready ok hm
  obtain ⟨w, hw, hcounts⟩ := Spot.window_of_mem made.window_pos hp
  obtain ⟨first, hfirst, -, hfirsts⟩ := firstWindow?_recounts made.window_pos long
  refine ⟨p.stream, (Spot.line_of_mem hp).1, rfl, w, hw, first, hfirst, ?_⟩
  intro bits others
  have hbits : bits = t.bitsOf (p.lines t.window) := t.bits_eq_bitsOf hcounts
  have hothers : others = t.bitsOf (q.lines.take t.window) := t.bits_eq_bitsOf hfirsts
  have hsize : bits.length = t.size := hbits ▸ t.length_bitsOf _
  have hlen : bits.length = others.length := hsize.trans (hothers ▸ (t.length_bitsOf _).symm)
  have hlead : bits.take width = others.take width := by
    rw [hbits, hothers]
    exact (isHit_iff t width q p).mp hhit
  have hdistance : ((p.record ⟨t, width⟩).toMatch t q).distance =
      BitVector.differing bits others := by
    rw [← BitVector.hamming_full hlen, hbits, hothers]
    rfl
  have hbehind := BitVector.differing_of_take_eq hlen hlead
  have hzero := BitVector.differing_eq_zero_iff hlen
  rw [hsize] at hbehind hzero
  rw [hdistance]
  refine ⟨fun k hk => ?_, hbehind, hbehind ▸ Nat.count_le _, hzero⟩
  rw [← List.getElem?_take_of_lt hk, hlead, List.getElem?_take_of_lt hk]

/-- Of an index that was saved and loaded, a query for its own first window finds that window, and
one that differs in both bits behind the bucket. -/
theorem two_windows_of_one_bucket :
    let t : ThresholdTable := ⟨1, 0.5, [("a", 1), ("b", 1), ("c", 1)]⟩
    let s : Stream :=
      ⟨⟨⟨"s"⟩, none, 6⟩, [⟨6, ["a", "a"]⟩, ⟨7, ["a", "a", "b", "b", "c", "c"]⟩, ⟨9, []⟩]⟩
    t.Made ∧ ∃ i files e report,
      Index.build [s] t 1 1 .wholeFile = .ok i ∧ Index.load files ⟨"i.jsonl"⟩ = .ok i ∧
      i.Kept [s] t 1 1 ∧ Engine.make i t ⟨1, none, 0⟩ = .ok e ∧ e.query s = .ok report ∧
      ∃ same ∈ report.ranked, ∃ other ∈ report.ranked,
        same.distance = 0 ∧ other.distance = 2 ∧ other.distance ≤ t.size - 1 := by
  intro t s
  have given : ThresholdTable.ofParts 1 0.5 t.entries = .ok t := rfl
  have made : t.Made := .given (by decide) given
  obtain ⟨i, e, hbuild, ready, hwindow, hrecords⟩ := @exists_engine t (by decide) 1 (by decide)
    (by decide) (by decide) [s] .wholeFile none 0
  have fits : CorpusFits [s] := ⟨by decide, by decide, by decide⟩
  have hsaved : (Folder.file "i.jsonl" (Text.encode (String.ofList i.toChars)) .empty).read
      ⟨"i.jsonl"⟩ = .ok (Text.encode (String.ofList i.toChars)) := rfl
  have text := Index.isText_of_build hbuild (by simp [s])
  have hload := (Index.savable_of_build made fits (by decide) (by decide) (by decide)
    hbuild).load_saved text hsaved
  have kept : i.Kept [s] t 1 1 := .reloaded (.built (.inl hbuild)) fits (by decide) (by decide)
    (by decide) text hsaved hload
  have hquery := Engine.query_eq_report made (.inl hbuild) ready s
  rw [hwindow, if_neg (by decide)] at hquery
  have hrecord (p : Spot) (hp : p ∈ Spot.all [s] 1) : p.record ⟨t, 1⟩ ∈ i.records :=
    hrecords.mem_iff.mpr (List.mem_map_of_mem hp)
  have hsame : _ ∈ (i.reportOn t ⟨1, none, 0⟩ s).ranked :=
    Index.toMatch_mem_ranked (hrecord ⟨s, 0⟩ (.head _)) (by decide) (by decide)
  have hother : _ ∈ (i.reportOn t ⟨1, none, 0⟩ s).ranked :=
    Index.toMatch_mem_ranked (hrecord ⟨s, 1⟩ (.tail _ (.head _))) (by decide) (by decide)
  obtain ⟨-, -, -, -, -, -, -, -, -, hbound, -⟩ :=
    matches_differ_behind_the_bucket made kept ready hquery hother
  exact ⟨made, i, _, e, _, hbuild, hload, kept, ready, hquery, _, hsame, _, hother,
    by decide, by decide, hbound⟩

end Lookalike
