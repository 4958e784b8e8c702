-- The laws of the buckets of an index: they stand in ascending order, each
-- record is in the bucket of its number, and a look-up gives the records of
-- that number in the order of streams and places.
import Lookalike.Index.Basic

namespace Lookalike

namespace Bucket

/-! ## Buckets in ascending order -/

/-- The bucket numbers ascend. -/
def Ascending (bs : List Bucket) : Prop := bs.Pairwise fun a b => a.number < b.number

/-- The records of a bucket number. -/
def recordsAt (n : UInt64) : List Bucket → List Record
  | [] => []
  | b :: rest => if b.number = n then b.records else recordsAt n rest

theorem recordsAt_of_lt {n : UInt64} {bs : List Bucket} (h : ∀ b ∈ bs, n < b.number) :
    recordsAt n bs = [] := by
  induction bs with
  | nil => rfl
  | cons b rest ih =>
    have hb : b.number ≠ n := fun he => UInt64.lt_irrefl n (he ▸ h b (List.mem_cons_self ..))
    rw [recordsAt, if_neg hb]
    exact ih fun b hb => h b (List.mem_cons_of_mem _ hb)

theorem mem_insert {r : Record} {bs : List Bucket} {x : Bucket} (h : x ∈ insert r bs) :
    x.number = r.bucket ∨ ∃ b ∈ bs, x.number = b.number := by
  induction bs with
  | nil =>
    rw [insert, List.mem_singleton] at h
    exact Or.inl (by rw [h])
  | cons b rest ih =>
    rw [insert] at h
    split at h
    · rcases List.mem_cons.mp h with he | hr
      · exact Or.inl (by rw [he])
      · exact Or.inr ⟨x, hr, rfl⟩
    · split at h
      · rcases List.mem_cons.mp h with he | hr
        · exact Or.inr ⟨b, List.mem_cons_self .., by rw [he]⟩
        · exact Or.inr ⟨x, List.mem_cons_of_mem _ hr, rfl⟩
      · rcases List.mem_cons.mp h with he | hr
        · exact Or.inr ⟨b, List.mem_cons_self .., by rw [he]⟩
        · rcases ih hr with hn | ⟨y, hy, hn⟩
          · exact Or.inl hn
          · exact Or.inr ⟨y, List.mem_cons_of_mem _ hy, hn⟩

theorem ascending_insert {r : Record} {bs : List Bucket} (h : Ascending bs) :
    Ascending (insert r bs) := by
  induction bs with
  | nil => exact List.pairwise_singleton _ _
  | cons b rest ih =>
    obtain ⟨hb, hrest⟩ := List.pairwise_cons.mp h
    rw [insert]
    split
    · rename_i hlt
      refine List.pairwise_cons.mpr ⟨fun c hc => ?_, h⟩
      rcases List.mem_cons.mp hc with rfl | hc
      · exact hlt
      · exact UInt64.lt_trans hlt (hb c hc)
    · split
      · exact List.pairwise_cons.mpr ⟨hb, hrest⟩
      · rename_i hnlt hne
        refine List.pairwise_cons.mpr ⟨fun c hc => ?_, ih hrest⟩
        rcases mem_insert hc with hn | ⟨d, hd, hn⟩
        · rw [hn]
          exact UInt64.lt_of_le_of_ne (UInt64.not_lt.mp hnlt) (Ne.symm hne)
        · rw [hn]
          exact hb d hd

/-- A record comes in front of the records of its number and changes no others. -/
theorem recordsAt_insert {r : Record} {bs : List Bucket} (h : Ascending bs) (n : UInt64) :
    recordsAt n (insert r bs) =
      if r.bucket = n then r :: recordsAt n bs else recordsAt n bs := by
  induction bs with
  | nil =>
    rw [insert, recordsAt]
    rfl
  | cons b rest ih =>
    obtain ⟨hb, hrest⟩ := List.pairwise_cons.mp h
    rw [insert]
    split
    · rename_i hlt
      rw [recordsAt]
      split
      · rename_i hn
        have hnone : recordsAt n (b :: rest) = [] := by
          apply recordsAt_of_lt
          intro c hc
          rw [← hn]
          rcases List.mem_cons.mp hc with rfl | hc
          · exact hlt
          · exact UInt64.lt_trans hlt (hb c hc)
        rw [hnone]
      · rfl
    · split
      · rename_i heq
        rw [recordsAt, recordsAt, heq]
        split <;> rfl
      · rename_i hne
        rw [recordsAt, recordsAt, ih hrest]
        by_cases hbn : b.number = n
        · rw [if_pos hbn, if_pos hbn, if_neg (fun he => hne (he.trans hbn.symm))]
        · rw [if_neg hbn, if_neg hbn]

theorem ascending_foldr (rs : List Record) : Ascending (rs.foldr insert []) := by
  induction rs with
  | nil => exact List.Pairwise.nil
  | cons r rs ih => exact ascending_insert ih

theorem recordsAt_foldr (rs : List Record) (n : UInt64) :
    recordsAt n (rs.foldr insert []) = rs.filter fun r => r.bucket == n := by
  induction rs with
  | nil => rfl
  | cons r rs ih =>
    rw [List.foldr_cons, recordsAt_insert (ascending_foldr rs), ih, List.filter_cons]
    simp only [beq_iff_eq]

/-! ## Sorted buckets -/

/-- Records by stream and place; equal ones keep their order. -/
def sorted (rs : List Record) : List Record := rs.mergeSort fun x y => (x.compareKey y).isLE

theorem recordsAt_map_sort (n : UInt64) (bs : List Bucket) :
    recordsAt n (bs.map sort) = sorted (recordsAt n bs) := by
  induction bs with
  | nil => simp [recordsAt, sorted]
  | cons b rest ih =>
    rw [List.map_cons, recordsAt, recordsAt, ih]
    split
    · rename_i h
      rw [if_pos (show b.number = n from h)]
      rfl
    · rename_i h
      rw [if_neg (show ¬ b.number = n from h)]

end Bucket

/-! ## Look-ups -/

theorem Index.lookup_eq_recordsAt (i : Index) (n : UInt64) :
    i.lookup n = Bucket.recordsAt n i.buckets := by
  unfold Index.lookup
  induction i.buckets with
  | nil => rfl
  | cons b rest ih =>
    rw [Bucket.recordsAt, List.find?_cons]
    by_cases h : b.number = n
    · simp [h]
    · simp only [beq_eq_false_iff_ne.mpr h, if_neg h]
      exact ih

/-- A look-up gives the records of the number, by stream and place. -/
theorem Index.lookup_ofRecords (h : Header) (rs : List Record) (n : UInt64) :
    (Index.ofRecords h rs).lookup n = Bucket.sorted (rs.filter fun r => r.bucket == n) := by
  rw [Index.lookup_eq_recordsAt, ← Bucket.recordsAt_foldr]
  exact Bucket.recordsAt_map_sort n _

theorem Index.lookup_ofRecords_perm (h : Header) (rs : List Record) (n : UInt64) :
    ((Index.ofRecords h rs).lookup n).Perm (rs.filter fun r => r.bucket == n) := by
  rw [Index.lookup_ofRecords]
  exact List.mergeSort_perm _ _

end Lookalike
