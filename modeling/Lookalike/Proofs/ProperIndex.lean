-- Indexes whose records lie where they belong. Every index of records is one,
-- and from its records, one bucket behind the other, the same index comes
-- about again.
import Lookalike.Proofs.Buckets
import Lookalike.Proofs.Orders

namespace Lookalike

/-! ## Buckets that are filled -/

namespace Bucket

/-- A bucket holds records, all of its number. -/
structure Filled (b : Bucket) : Prop where
  some : b.records ≠ []
  home : ∀ r ∈ b.records, r.bucket = b.number

theorem filled_insert {r : Record} {bs : List Bucket} (h : ∀ b ∈ bs, b.Filled) :
    ∀ b ∈ insert r bs, b.Filled := by
  have hnew : Filled ⟨r.bucket, [r]⟩ := ⟨List.cons_ne_nil _ _, by simp⟩
  induction bs with
  | nil =>
    intro b hb
    rw [insert, List.mem_singleton] at hb
    exact hb ▸ hnew
  | cons c rest ih =>
    obtain ⟨hc, hrest⟩ := List.forall_mem_cons.mp h
    rw [insert]
    split_ifs with hlt heq
    · exact List.forall_mem_cons.mpr ⟨hnew, h⟩
    · refine List.forall_mem_cons.mpr ⟨⟨List.cons_ne_nil _ _, ?_⟩, hrest⟩
      exact List.forall_mem_cons.mpr ⟨heq, hc.home⟩
    · exact List.forall_mem_cons.mpr ⟨hc, ih hrest⟩

theorem filled_foldr (rs : List Record) : ∀ b ∈ rs.foldr insert [], b.Filled := by
  induction rs with
  | nil => exact fun _ h => absurd h List.not_mem_nil
  | cons r rs ih => exact filled_insert ih

theorem filled_sort {b : Bucket} (h : b.Filled) : b.sort.Filled := by
  have hperm : b.sort.records.Perm b.records := List.mergeSort_perm _ _
  refine ⟨fun hnil => h.some ?_, fun r hr => h.home r (hperm.mem_iff.mp hr)⟩
  rw [hnil] at hperm
  exact hperm.nil_eq.symm

theorem flatMap_insert_perm (r : Record) (bs : List Bucket) :
    ((insert r bs).flatMap records).Perm (r :: bs.flatMap records) := by
  induction bs with
  | nil => simp [insert]
  | cons b rest ih =>
    rw [insert]
    split_ifs
    · simp
    · simp
    · rw [List.flatMap_cons, List.flatMap_cons]
      exact (ih.append_left _).trans List.perm_middle

theorem flatMap_foldr_perm (rs : List Record) :
    ((rs.foldr insert []).flatMap records).Perm rs := by
  induction rs with
  | nil => exact List.Perm.nil
  | cons r rs ih => exact (flatMap_insert_perm r _).trans (ih.cons r)

theorem flatMap_sort_perm (bs : List Bucket) :
    ((bs.map sort).flatMap records).Perm (bs.flatMap records) := by
  induction bs with
  | nil => exact List.Perm.nil
  | cons b rest ih => exact (List.mergeSort_perm _ _).append ih

/-! ## Buckets from their own records -/

/-- Records of a number below all others make one bucket in front. -/
theorem foldr_insert_bucket {n : UInt64} {rs : List Record} {bs : List Bucket} (hne : rs ≠ [])
    (hn : ∀ r ∈ rs, r.bucket = n) (hbs : ∀ b ∈ bs, n < b.number) :
    rs.foldr insert bs = ⟨n, rs⟩ :: bs := by
  induction rs with
  | nil => exact absurd rfl hne
  | cons r rs ih =>
    obtain ⟨rfl, hrest⟩ := List.forall_mem_cons.mp hn
    rw [List.foldr_cons]
    cases rs with
    | nil =>
      cases bs with
      | nil => rfl
      | cons b bs => rw [List.foldr_nil, insert, if_pos (hbs b List.mem_cons_self)]
    | cons r' rs =>
      rw [ih (List.cons_ne_nil r' rs) hrest, insert, if_neg (by simp), if_pos rfl]

theorem foldr_insert_flatMap {bs : List Bucket} (hasc : Ascending bs) (h : ∀ b ∈ bs, b.Filled) :
    (bs.flatMap records).foldr insert [] = bs := by
  induction bs with
  | nil => rfl
  | cons b rest ih =>
    obtain ⟨hb, hrest⟩ := List.forall_mem_cons.mp h
    obtain ⟨hfirst, hasc⟩ := List.pairwise_cons.mp hasc
    rw [List.flatMap_cons, List.foldr_append, ih hasc hrest,
      foldr_insert_bucket hb.some hb.home hfirst]

end Bucket

/-! ## Proper indexes -/

/-- Buckets ascend, none is empty, each record lies under its number, by stream and place, and the
header counts them. -/
structure Index.Proper (i : Index) : Prop where
  ascending : Bucket.Ascending i.buckets
  filled : ∀ b ∈ i.buckets, b.Filled
  sorted : ∀ b ∈ i.buckets, b.records.Pairwise fun x y => (x.compareKey y).isLE
  counted : i.header.records = i.records.length

namespace Index

/-- Every index of records is proper. -/
theorem proper_ofRecords (h : Header) (rs : List Record) : (ofRecords h rs).Proper where
  ascending := by
    unfold Bucket.Ascending
    exact List.pairwise_map.mpr (Bucket.ascending_foldr rs)
  filled := List.forall_mem_map.mpr fun b hb => Bucket.filled_sort (Bucket.filled_foldr rs b hb)
  sorted := List.forall_mem_map.mpr fun b _ => pairwise_mergeSort Record.compareKey b.records
  counted :=
    ((Bucket.flatMap_sort_perm _).trans (Bucket.flatMap_foldr_perm rs)).length_eq.symm

/-- The records of an index of records are those records, in another order. -/
theorem records_ofRecords_perm (h : Header) (rs : List Record) :
    (ofRecords h rs).records.Perm rs :=
  (Bucket.flatMap_sort_perm _).trans (Bucket.flatMap_foldr_perm rs)

/-- A proper index is the index of its own records. -/
theorem Proper.ofRecords_records {i : Index} (h : i.Proper) : ofRecords i.header i.records = i := by
  have hbuckets : Bucket.ofRecords i.records = i.buckets := by
    rw [Bucket.ofRecords, records, Bucket.foldr_insert_flatMap h.ascending h.filled]
    refine (List.map_congr_left fun b hb => ?_).trans (List.map_id _)
    rw [Bucket.sort, List.mergeSort_of_pairwise (h.sorted b hb)]
    rfl
  rw [ofRecords, hbuckets, ← h.counted]

theorem Proper.stamp {i : Index} (h : i.Proper) (rulesId : String) : (i.stamp rulesId).Proper :=
  ⟨h.ascending, h.filled, h.sorted, h.counted⟩

end Index
end Lookalike
