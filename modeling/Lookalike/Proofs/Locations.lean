-- Where records point. The line of a record is a line of its listing, and from
-- that raw line come the tokens with which the indexed window begins; the
-- function of a record opens above that line and no other opens in between.
import Lookalike.Proofs.FunctionBlocks
import Lookalike.Proofs.LinearScan
import Lookalike.Proofs.Orders
import Lookalike.Proofs.ProperIndex

namespace Lookalike

/-! ## Places in listings -/

/-- The text of a listing and the path it was read from. -/
structure Listing where
  path : Path
  text : List Char

namespace Listing

/-- The raw line of a number, counted from zero. -/
def line? (l : Listing) (k : Nat) : Option (List Char) := (Text.lines l.text)[k]?

def streams (l : Listing) (n : Normalizer) (mode : Segmentation) : List Stream :=
  mode.streams n l.path l.text

/-- A place of a stream stands at a raw line of the listing. The line lies behind the banner and
gives the tokens at that place. -/
structure Holds (l : Listing) (n : Normalizer) (s : Stream) (place k : Nat) : Prop where
  source : s.id.source = l.path
  banner : n.dialect.headerLines ≤ k
  line : ∃ raw first, l.line? k = some raw ∧ n.line? k raw = some first ∧
    s.lines[place]? = some first

/-- The function of a stream opens above a raw line, with a header that names it, and no other
function opens before the line. -/
structure Opens (l : Listing) (id : StreamId) (k : Nat) : Prop where
  above : id.startLine < k
  header : ∃ raw, l.line? id.startLine = some raw ∧ isHeader raw = true ∧
    id.function = some (functionName raw)
  between : ∀ j raw, id.startLine < j → j ≤ k → l.line? j = some raw → isHeader raw = false

end Listing

section

variable {l : Listing} {n : Normalizer} {mode : Segmentation} {s : Stream}

/-- Every line of a stream stands at the raw line of its number. -/
theorem Listing.holds_of_mem (hs : s ∈ l.streams n mode) {place : Nat} {first : Line}
    (hplace : s.lines[place]? = some first) : l.Holds n s place first.number := by
  obtain ⟨hsource, raws, hraws, hlines⟩ := Segmentation.mem_streams hs
  have hmem : first ∈ n.kept raws := hlines ▸ List.mem_of_getElem? hplace
  obtain ⟨raw, hraw, hline⟩ := n.mem_kept hmem
  obtain ⟨hbanner, hget⟩ := n.mem_body_iff.mp (hraws.subset hraw)
  exact ⟨hsource, hbanner, raw, first, hget, hline, hplace⟩

theorem Listing.numbers_ascend (hs : s ∈ l.streams n mode) :
    s.lines.Pairwise fun a b => a.number < b.number := by
  obtain ⟨-, raws, hraws, hlines⟩ := Segmentation.mem_streams hs
  rw [hlines]
  exact n.kept_ascend ((n.numbered_body l.text).sublist hraws)

/-- The lines of a function stand behind its header and before the next one. -/
theorem Listing.opens_of_mem (hs : s ∈ l.streams n .perFunction) {first : Line}
    (hfirst : first ∈ s.lines) : l.Opens s.id first.number := by
  obtain ⟨b, hb, rfl⟩ := Segmentation.mem_perFunction hs
  obtain ⟨hopens, hinside, before, behind, hbody⟩ := mem_blocks hb
  obtain ⟨raw, hraw, -⟩ := n.mem_kept hfirst
  have hnumbered := n.numbered_body l.text
  rw [hbody] at hnumbered
  obtain ⟨-, hfrom, hbefore⟩ := List.pairwise_append.mp hnumbered
  obtain ⟨habove, hbelow⟩ := List.pairwise_cons.mp hfrom
  obtain ⟨-, -, hbehind⟩ := List.pairwise_append.mp hbelow
  obtain ⟨hbanner, hheader⟩ := n.mem_body_iff.mp
    (hbody ▸ List.mem_append_right before List.mem_cons_self : b.header ∈ n.body l.text)
  refine ⟨habove _ (List.mem_append_left behind hraw), ⟨_, hheader, hopens, rfl⟩, ?_⟩
  intro j other hlow hhigh hother
  change b.header.2 < j at hlow
  have hmem := n.mem_body_iff.mpr ⟨hbanner.trans hlow.le, hother⟩
  -- a raw line with such a number can only stand among the lines of the block
  rw [hbody, List.mem_append, List.mem_cons, List.mem_append] at hmem
  rcases hmem with hmem | hmem | hmem | hmem
  · have hlt := hbefore _ hmem b.header List.mem_cons_self
    simp only at hlt
    omega
  · rw [← hmem] at hlow
    exact absurd hlow (lt_irrefl j)
  · exact hinside _ hmem
  · have hlt := hbehind _ hraw _ hmem
    simp only at hlt
    omega

end

/-! ## Records of a corpus -/

/-- The streams of several listings. -/
def corpusStreams (listings : List Listing) (n : Normalizer) (mode : Segmentation) : List Stream :=
  listings.flatMap fun l => l.streams n mode

/-- No two listings have one path, paths being compared by components. -/
def Listing.Distinct (listings : List Listing) : Prop :=
  listings.Pairwise fun l m => ¬ l.path.same m.path

section

variable {listings : List Listing} {n : Normalizer} {mode : Segmentation}

theorem eq_of_same (distinct : Listing.Distinct listings) {s s' : Stream}
    (hs : s ∈ corpusStreams listings n mode) (hs' : s' ∈ corpusStreams listings n mode)
    (same : s.id.same s'.id) : s = s' := by
  obtain ⟨l, hl, hs⟩ := List.mem_flatMap.mp hs
  obtain ⟨l', hl', hs'⟩ := List.mem_flatMap.mp hs'
  obtain ⟨hsource, -⟩ := Segmentation.mem_streams hs
  obtain ⟨hsource', -⟩ := Segmentation.mem_streams hs'
  simp only [StreamId.same, Bool.and_eq_true, beq_iff_eq] at same
  obtain ⟨⟨hpath, -⟩, hstart⟩ := same
  have hlisting : l = l' := by
    rw [hsource, hsource'] at hpath
    apply eq_of_apart _ distinct hl hl' hpath
    intro l m h
    rw [Path.same, beq_iff_eq] at h ⊢
    exact h.symm
  subst hlisting
  have hstarts := (Segmentation.starts_ascend mode n l.path l.text).imp fun h => Nat.ne_of_lt h
  exact eq_of_apart Eq.symm hstarts hs hs' hstart

end

namespace Index

variable {streams : List Stream} {t : ThresholdTable} {window width : Nat} {label : Segmentation}
  {i : Index}

/-- Every record of an index that was built is the record of a window of the corpus. -/
theorem spot_of_built (made : t.Made) (built : build streams t window width label = .ok i ∨
      ∃ n, buildStamped streams t n window width label = .ok i) {r : Record} (hr : r ∈ i.records) :
    ∃ p ∈ Spot.all streams t.window, r = p.record ⟨t, width⟩ := by
  have hplain : ∃ plain, build streams t window width label = .ok plain ∧ r ∈ plain.records := by
    rcases built with h | ⟨n, h⟩
    · exact ⟨i, h, hr⟩
    · obtain ⟨plain, hplain, rfl⟩ := buildStamped_eq_ok_iff.mp h
      exact ⟨plain, hplain, hr⟩
  obtain ⟨plain, hplain, hr⟩ := hplain
  obtain ⟨-, ⟨-, rfl⟩ | ⟨-, -, rfl⟩⟩ := build_spots made hplain
  · cases hr
  · obtain ⟨p, hp, rfl⟩ := List.mem_map.mp ((records_ofRecords_perm _ _).mem_iff.mp hr)
    exact ⟨p, hp, rfl⟩

theorem mem_of_mem_lookup {r : Record} {number : UInt64} (h : r ∈ i.lookup number) :
    r ∈ i.records := by
  unfold lookup at h
  split at h
  · rename_i b hb
    exact List.mem_flatMap.mpr ⟨b, List.mem_of_find?_eq_some hb, h⟩
  · cases h

end Index

theorem Spot.line_record (e : Encoder) (p : Spot) : (p.record e).line = p.line := rfl

theorem Spot.line_of_mem {streams : List Stream} {width : Nat} {p : Spot}
    (h : p ∈ Spot.all streams width) :
    p.stream ∈ streams ∧
      ∃ first, p.stream.lines[p.place]? = some first ∧ p.line = first.number := by
  obtain ⟨hs, hk⟩ := Spot.of_mem_all h
  have hplace : p.place < p.stream.lines.length := by omega
  refine ⟨hs, p.stream.lines[p.place], List.getElem?_eq_getElem hplace, ?_⟩
  rw [Spot.line, List.getElem?_eq_getElem hplace]
  rfl

/-! ## Matches -/

theorem mem_of_mem_limited {limit : Option Nat} {ms : List Match} {m : Match}
    (h : m ∈ limited limit (rankMatches ms)) : m ∈ ms := by
  have hranked : m ∈ rankMatches ms := by
    unfold limited at h
    cases limit with
    | none => exact h
    | some k => exact List.mem_of_mem_take h
  exact List.mem_mergeSort.mp hranked

/-- Every match of a query stands for a record of the index. -/
theorem record_of_match {q : Stream} {i : Index} {t : ThresholdTable} {n : Normalizer}
    {options : QueryOptions} {report : Report} (h : query q i t n options = .ok report) {m : Match}
    (hm : m ∈ report.ranked) :
    ∃ r ∈ i.records, m.id = r.id ∧ m.offset = r.offset ∧ m.line = r.line := by
  obtain ⟨u, -, h⟩ := Attempt.bind_eq_ok_iff.mp h
  obtain ⟨e, he, h⟩ := Attempt.bind_eq_ok_iff.mp h
  have hindex := Engine.index_of_make he
  unfold Engine.query at h
  split at h
  · cases h
  · split at h
    · cases h
      cases hm
    · rename_i w _ encoder _
      cases h
      obtain ⟨r, hr, rfl⟩ := List.mem_map.mp (List.mem_filter.mp (mem_of_mem_limited hm)).1
      exact ⟨r, hindex ▸ Index.mem_of_mem_lookup hr, rfl, rfl, rfl⟩

/-! ## Where records and matches point -/

/-- Every record of an index points into one of the listings: its line stands behind the banner, and
from that raw line come the tokens with which its window begins; cut by functions, the header of its
function stands above, and no other in between. At a later place of a stream the line is a later
one. Every match points where a record does. -/
theorem every_record_points_at_its_line {listings : List Listing} {n : Normalizer}
    {mode : Segmentation} (distinct : Listing.Distinct listings) {t : ThresholdTable}
    (made : t.Made) {window width : Nat} {label : Segmentation} {i : Index}
    (built : Index.build (corpusStreams listings n mode) t window width label = .ok i ∨
      ∃ n', Index.buildStamped (corpusStreams listings n mode) t n' window width label = .ok i) :
    (∀ r ∈ i.records, ∃ l ∈ listings, ∃ s ∈ l.streams n mode,
      r = (⟨s, r.offset⟩ : Spot).record ⟨t, width⟩ ∧ l.Holds n s r.offset r.line ∧
        (mode = .perFunction → l.Opens r.id r.line)) ∧
    (∀ r ∈ i.records, ∀ r' ∈ i.records, r.id.same r'.id → r.offset < r'.offset →
      r.line < r'.line) ∧
    ∀ q t' n' options report, query q i t' n' options = .ok report →
      ∀ m ∈ report.ranked,
        ∃ r ∈ i.records, m.id = r.id ∧ m.offset = r.offset ∧ m.line = r.line := by
  refine ⟨?_, ?_, fun q t' n' options report h m => record_of_match h⟩
  · intro r hr
    obtain ⟨p, hp, rfl⟩ := Index.spot_of_built made built hr
    obtain ⟨hstream, first, hfirst, hline⟩ := Spot.line_of_mem hp
    obtain ⟨l, hl, hs⟩ := List.mem_flatMap.mp hstream
    refine ⟨l, hl, p.stream, hs, rfl, ?_, ?_⟩
    · rw [Spot.line_record, hline]
      exact Listing.holds_of_mem hs hfirst
    · rintro rfl
      rw [Spot.line_record, hline]
      exact Listing.opens_of_mem hs (List.mem_of_getElem? hfirst)
  · intro r hr r' hr' same hlt
    obtain ⟨⟨s, j⟩, hp, rfl⟩ := Index.spot_of_built made built hr
    obtain ⟨⟨s', k⟩, hp', rfl⟩ := Index.spot_of_built made built hr'
    obtain ⟨hs, first, hfirst, hline⟩ := Spot.line_of_mem hp
    obtain ⟨hs', first', hfirst', hline'⟩ := Spot.line_of_mem hp'
    obtain rfl := eq_of_same distinct hs hs' same
    obtain ⟨l, -, hmem⟩ := List.mem_flatMap.mp hs
    obtain ⟨hj, rfl⟩ := List.getElem?_eq_some_iff.mp hfirst
    obtain ⟨hk, rfl⟩ := List.getElem?_eq_some_iff.mp hfirst'
    have hascend := List.pairwise_iff_getElem.mp (Listing.numbers_ascend hmem) j k hj hk hlt
    rw [Spot.line_record, Spot.line_record, hline, hline']
    exact hascend

/-- Two functions of one name and one of another listing: behind a prologue, around a blank line,
and with the shortest window, three records point into the first listing and one into the second. -/
theorem four_records_point_at_their_lines :
    let n : Normalizer := ⟨Rules.default, ⟨1, 1, []⟩⟩
    let t : ThresholdTable := ⟨1, 0.5, [("mov", 1), ("ret", 1)]⟩
    let listings : List Listing := [
      ⟨⟨"a.asm"⟩,
        "banner\n mov\n0 <f>:\n mov\n\n mov mov\n mov\n0 <f>:\n mov mov\n ret\n".toList⟩,
      ⟨⟨"b.asm"⟩, "banner\ng:\n ret ret\n mov".toList⟩]
    Listing.Distinct listings ∧ t.Made ∧
      ∃ i, Index.build (corpusStreams listings n .perFunction) t 1 1 .perFunction = .ok i ∧
        (i.records.map fun r => (r.line, r.id.startLine)).Perm [(3, 2), (5, 2), (8, 7), (2, 1)] ∧
        (∀ r ∈ i.records, ∃ l ∈ listings, ∃ s ∈ l.streams n .perFunction,
          r = (⟨s, r.offset⟩ : Spot).record ⟨t, 1⟩ ∧ l.Holds n s r.offset r.line ∧
            l.Opens r.id r.line) ∧
        ∀ r ∈ i.records, ∀ r' ∈ i.records, r.id.same r'.id → r.offset < r'.offset →
          r.line < r'.line := by
  intro n t listings
  have ok : ThresholdTable.ofParts 1 0.5 t.entries = .ok t := rfl
  have made : t.Made := .given (by decide) ok
  have distinct : Listing.Distinct listings := by
    unfold Listing.Distinct
    decide
  have hbuild := @build_eq t 1 (by decide) (by decide) (by decide) (by decide)
    (corpusStreams listings n .perFunction) .perFunction
  have hspots : ((Spot.all (corpusStreams listings n .perFunction) t.window).map
      (Spot.record ⟨t, 1⟩)).map (fun r => (r.line, r.id.startLine)) =
        [(3, 2), (5, 2), (8, 7), (2, 1)] := by decide
  have hrecords := (Index.records_ofRecords_perm (t.header 1 .perFunction)
    ((Spot.all (corpusStreams listings n .perFunction) t.window).map (Spot.record ⟨t, 1⟩))).map
      fun r => (r.line, r.id.startLine)
  rw [hspots] at hrecords
  obtain ⟨hplaces, hascend, -⟩ := @every_record_points_at_its_line listings n .perFunction distinct
    t made 1 1 .perFunction _ (.inl hbuild)
  refine ⟨distinct, made, _, hbuild, hrecords, fun r hr => ?_, hascend⟩
  obtain ⟨l, hl, s, hs, hrecord, hholds, hopens⟩ := hplaces r hr
  exact ⟨l, hl, s, hs, hrecord, hholds, hopens rfl⟩

end Lookalike
