-- The life of an index. It is built, rules are noted in it, it is saved and
-- loaded again. In all of that it keeps its shape: records lie in order under
-- their numbers, they are counted, and the numbers are those of the bits.
import Lookalike.Proofs.SavedIndex

namespace Lookalike

/-! ## The order of all records -/

/-- By bucket number, then by stream and place. -/
def Record.comparePlace (a b : Record) : Ordering :=
  (compare a.bucket b.bucket).then (a.compareKey b)

instance : Std.TransCmp Record.comparePlace :=
  transCmp_then (transCmp_on Record.bucket) inferInstance

theorem Record.comparePlace_of_lt {a b : Record} (h : a.bucket < b.bucket) :
    (a.comparePlace b).isLE = true := by
  unfold comparePlace
  rw [Std.compare_eq_lt.mpr h]
  rfl

theorem Record.comparePlace_of_eq {a b : Record} (h : a.bucket = b.bucket) :
    a.comparePlace b = a.compareKey b := by
  unfold comparePlace
  rw [Std.compare_eq_iff_eq.mpr h]
  rfl

namespace Index

/-- One bucket behind the other, the records are in order. -/
theorem Proper.ordered {i : Index} (h : i.Proper) :
    i.records.Pairwise fun x y => (x.comparePlace y).isLE := by
  unfold records
  rw [List.pairwise_flatMap]
  constructor
  · intro b hb
    have hhome := (h.filled b hb).home
    apply (h.sorted b hb).imp_of_mem
    intro x y hx hy hle
    rw [Record.comparePlace_of_eq ((hhome x hx).trans (hhome y hy).symm)]
    exact hle
  · apply h.ascending.imp_of_mem
    intro a b ha hb hlt x hx y hy
    apply Record.comparePlace_of_lt
    rw [(h.filled a ha).home x hx, (h.filled b hb).home y hy]
    exact hlt

end Index

/-- In ascending buckets the records of a number are those that lie under it. -/
theorem Bucket.recordsAt_eq_filter {bs : List Bucket} (hasc : Ascending bs)
    (hfilled : ∀ b ∈ bs, b.Filled) (n : UInt64) :
    recordsAt n bs = (bs.flatMap records).filter fun r => r.bucket == n := by
  induction bs with
  | nil => rfl
  | cons b rest ih =>
    obtain ⟨hb, hrest⟩ := List.forall_mem_cons.mp hfilled
    obtain ⟨hfirst, hasc⟩ := List.pairwise_cons.mp hasc
    rw [recordsAt, List.flatMap_cons, List.filter_append, ← ih hasc hrest]
    split_ifs with hn
    · subst hn
      have hall : b.records.filter (fun r => r.bucket == b.number) = b.records :=
        List.filter_eq_self.mpr fun r hr => beq_iff_eq.mpr (hb.home r hr)
      rw [hall, recordsAt_of_lt hfirst, List.append_nil]
    · have hnone : b.records.filter (fun r => r.bucket == n) = [] := by
        apply List.filter_eq_nil_iff.mpr
        intro r hr hbeq
        exact hn ((hb.home r hr).symm.trans (beq_iff_eq.mp hbeq))
      rw [hnone, List.nil_append]

theorem Index.Proper.lookup_eq {i : Index} (h : i.Proper) (n : UInt64) :
    i.lookup n = i.records.filter fun r => r.bucket == n := by
  rw [lookup_eq_recordsAt, Bucket.recordsAt_eq_filter h.ascending h.filled, records]

/-! ## The numbers of a record -/

/-- The vector has a bit for each symbol, and the bucket number consists of its leading bits. -/
structure Record.Packed (symbols width : Nat) (r : Record) : Prop where
  full : r.full.toNat < 2 ^ symbols
  bucket : r.bucket.toNat < 2 ^ width
  leading : r.bucket.toNat = r.full.toNat / 2 ^ (symbols - width)

theorem Spot.packed_record {e : Encoder} (hwidth : e.width ≤ 64) (hfits : e.width < e.table.size)
    (p : Spot) : (p.record e).Packed e.table.size e.width := by
  have hlength := e.table.length_bitsOf (p.lines e.table.window)
  have hfull := FullVector.toNat_full_lt (e.table.bitsOf (p.lines e.table.window))
  have hleading := FullVector.toNat_bucket_eq_div hwidth (e.table.bitsOf (p.lines e.table.window))
  rw [hlength] at hfull hleading
  have hsplit : 2 ^ e.table.size = 2 ^ (e.table.size - e.width) * 2 ^ e.width := by
    rw [← Nat.pow_add, Nat.sub_add_cancel (Nat.le_of_lt hfits)]
  have hbucket : ((e.table.bitsOf (p.lines e.table.window)).bucket e.width).toNat <
      2 ^ e.width := by
    rw [hleading]
    exact Nat.div_lt_of_lt_mul (hsplit ▸ hfull)
  exact ⟨hfull, hbucket, hleading⟩

/-! ## What every index keeps -/

/-- What an index of streams is like: its records lie in order, and they are counted; without
thresholds there are none, and with thresholds there is one for each line behind a whole window,
with the bits of its window. -/
structure Index.SoundFor (streams : List Stream) (i : Index) : Prop where
  proper : i.Proper
  lookup : ∀ n, i.lookup n = i.records.filter fun r => r.bucket == n
  ordered : i.records.Pairwise fun x y => (x.comparePlace y).isLE
  size : i.size = i.records.length
  degenerate : i.header.degenerate = true ↔ i.header.tableSize = 0
  bare : i.header.degenerate = true → i.records = []
  complete : i.header.degenerate = false →
    i.records.length = (streams.map fun s => s.lines.length - i.header.window).sum
  packed : i.header.degenerate = false →
    ∀ r ∈ i.records, r.Packed i.header.tableSize i.header.width

namespace Index

variable {streams : List Stream} {i : Index}

theorem SoundFor.stamp (h : i.SoundFor streams) (rulesId : String) :
    (i.stamp rulesId).SoundFor streams :=
  ⟨h.proper.stamp rulesId, h.lookup, h.ordered, h.size, h.degenerate, h.bare, h.complete, h.packed⟩

theorem soundFor_build {t : ThresholdTable} {window width : Nat} {mode : Segmentation}
    (made : t.Made) (h : build streams t window width mode = .ok i) : i.SoundFor streams := by
  obtain ⟨rfl, ⟨hempty, rfl⟩ | ⟨hempty, ⟨-, hwidth, hfits⟩, rfl⟩⟩ := build_spots made h
  · have hzero : t.size = 0 := List.length_eq_zero_iff.mpr (List.isEmpty_iff.mp hempty)
    exact {
      proper := ⟨List.Pairwise.nil, by simp, by simp, rfl⟩
      lookup := fun n => rfl
      ordered := List.Pairwise.nil
      size := rfl
      degenerate := iff_of_true hempty hzero
      bare := fun _ => rfl
      complete := fun hfull => absurd (hempty.symm.trans hfull) (by decide)
      packed := fun _ _ hr => absurd hr List.not_mem_nil }
  · have hproper := proper_ofRecords (t.header width mode)
      ((Spot.all streams t.window).map (Spot.record ⟨t, width⟩))
    have hperm := records_ofRecords_perm (t.header width mode)
      ((Spot.all streams t.window).map (Spot.record ⟨t, width⟩))
    have hsome : t.size ≠ 0 := Nat.ne_of_gt (Nat.lt_of_le_of_lt (Nat.zero_le _) hfits)
    exact {
      proper := hproper
      lookup := hproper.lookup_eq
      ordered := hproper.ordered
      size := hproper.counted
      degenerate := iff_of_false (fun h => absurd (h.symm.trans hempty) (by decide)) hsome
      bare := fun h => absurd (h.symm.trans hempty) (by decide)
      complete := fun _ => by
        rw [hperm.length_eq, List.length_map, Spot.length_all]
        rfl
      packed := fun _ r hr => by
        obtain ⟨p, -, rfl⟩ := List.mem_map.mp (hperm.mem_iff.mp hr)
        exact Spot.packed_record (e := ⟨t, width⟩) hwidth hfits p }

/-- The life of an index of streams: it is built; rules are noted in it; and, if its sources are
texts, so that it can be saved, it is loaded from a file that holds what is saved of it. -/
inductive Descends (streams : List Stream) : Index → Prop where
  | built {table : ThresholdTable} {window width : Nat} {mode : Segmentation} {i : Index}
      (made : table.Made) (fits : CorpusFits streams) (hwindow : window < 2 ^ 64)
      (hwidth : width < 2 ^ 64) (hsize : table.size < 2 ^ 64)
      (ok : build streams table window width mode = .ok i) : Descends streams i
  | stamped {i : Index} (before : Descends streams i) (rulesId : String) :
      Descends streams (i.stamp rulesId)
  | reloaded {i j : Index} {files : Folder} {path : Path} (before : Descends streams i)
      (text : i.isText = true)
      (saved : files.read path = .ok (Text.encode (String.ofList i.toChars)))
      (ok : load files path = .ok j) : Descends streams j

theorem Descends.savable (h : i.Descends streams) : i.Savable := by
  induction h with
  | built made fits hwindow hwidth hsize ok =>
    exact savable_of_build made fits hwindow hwidth hsize ok
  | stamped before rulesId ih => exact ih.stamp rulesId
  | reloaded before text saved ok ih => exact savable_of_load ok

end Index

/-- Whatever is built, stamped, saved and loaded, the index keeps its shape. -/
theorem an_index_keeps_its_shape {streams : List Stream} {i : Index} (h : i.Descends streams) :
    i.SoundFor streams := by
  induction h with
  | built made fits hwindow hwidth hsize ok => exact Index.soundFor_build made ok
  | stamped before rulesId ih => exact ih.stamp rulesId
  | reloaded before text saved ok ih =>
    -- what is loaded is what was saved
    rw [before.savable.load_saved text saved] at ok
    cases ok
    exact ih

/-- Three windows under two numbers, of three bits each, are found again in the file with the rules
that were noted before it was written. -/
theorem an_index_of_three_windows_keeps_its_shape :
    let t : ThresholdTable := ⟨1, 0.5, [("a", 1), ("b", 1), ("c", 1)]⟩
    let streams : List Stream := [
      ⟨⟨⟨"s"⟩, none, 6⟩, [⟨6, ["a", "a"]⟩, ⟨8, ["b", "b", "c", "c"]⟩, ⟨9, []⟩]⟩,
      ⟨⟨⟨"r"⟩, some "f", 2⟩, [⟨3, ["a", "a", "c", "c"]⟩, ⟨4, []⟩]⟩]
    ∃ i files, Index.build streams t 1 1 .wholeFile = .ok i ∧
      Index.load files ⟨"i.jsonl"⟩ = .ok (i.stamp "rules") ∧
      (i.stamp "rules").Descends streams ∧ (i.stamp "rules").SoundFor streams ∧
      (i.stamp "rules").records.length = 3 := by
  intro t streams
  have ok : ThresholdTable.ofParts 1 0.5 t.entries = .ok t := rfl
  have made : t.Made := .given (by decide) ok
  have hbuild := @build_eq t 1 (by decide) (by decide) (by decide) (by decide) streams .wholeFile
  generalize Index.ofRecords _ _ = i at hbuild
  have fits : CorpusFits streams := ⟨by decide, by decide, by decide⟩
  have before : (i.stamp "rules").Descends streams :=
    .stamped (.built made fits (by decide) (by decide) (by decide) hbuild) "rules"
  have hsaved : (Folder.file "i.jsonl" (Text.encode (String.ofList (i.stamp "rules").toChars))
      .empty).read ⟨"i.jsonl"⟩ = .ok (Text.encode (String.ofList (i.stamp "rules").toChars)) := rfl
  have text : i.isText = true := Index.isText_of_build hbuild (by simp [streams])
  have hload := before.savable.load_saved text hsaved
  have after : (i.stamp "rules").Descends streams := .reloaded before text hsaved hload
  have sound := an_index_keeps_its_shape after
  obtain ⟨hwindow, hsize, -, -⟩ := Index.build_notes hbuild
  have hfull : (i.stamp "rules").header.degenerate = false := by
    rw [Bool.eq_false_iff, Ne, sound.degenerate]
    exact hsize ▸ (by decide)
  have hcount := sound.complete hfull
  rw [show (i.stamp "rules").header.window = 1 from hwindow] at hcount
  exact ⟨i, _, hbuild, hload, after, sound, hcount⟩

end Lookalike
