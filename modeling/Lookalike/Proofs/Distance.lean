-- The distance of full vectors is the number of places at which the binary
-- digits of their numbers differ. Places that differ are neither lost nor made
-- up on the way, so the distance is a metric.
import Mathlib.Data.Nat.Count
import Mathlib.Data.Set.Card
import Lookalike.Proofs.Hexadecimal

namespace Lookalike

/-! ## Counting places -/

theorem count_congr_below {P Q : Nat → Prop} [DecidablePred P] [DecidablePred Q] {n : Nat}
    (h : ∀ i < n, P i ↔ Q i) : Nat.count P n = Nat.count Q n := by
  rw [Nat.count_eq_card_filter_range, Nat.count_eq_card_filter_range]
  congr 1
  exact Finset.filter_congr fun i hi => h i (Finset.mem_range.mp hi)

/-- A property that does not hold behind a border holds as often as it does below. -/
theorem encard_eq_count {P : Nat → Prop} [DecidablePred P] {n : Nat} (h : ∀ i, P i → i < n) :
    {i | P i}.encard = Nat.count P n := by
  have hset : {i | P i} = ({i ∈ Finset.range n | P i} : Finset Nat) := by
    ext i
    simp only [Set.mem_ofPred_eq, Finset.coe_filter, Finset.mem_range]
    exact ⟨fun hi => ⟨h i hi, hi⟩, fun hi => hi.2⟩
  rw [hset, Set.encard_coe_eq_coe_finsetCard, Nat.count_eq_card_filter_range]

/-! ## Places at which bits differ -/

/-- Bits are compared index by index. -/
theorem BitVector.differing_eq_count {as bs : List Bool} (hlen : as.length = bs.length) :
    differing as bs = Nat.count (fun i => as[i]? ≠ bs[i]?) as.length := by
  induction as generalizing bs with
  | nil => rfl
  | cons a as ih =>
    cases bs with
    | nil => simp at hlen
    | cons b bs =>
      rw [differing_cons, ih (by simpa using hlen), List.length_cons, Nat.count_succ']
      simp only [List.getElem?_cons_succ, List.getElem?_cons_zero]
      cases a <;> cases b <;> simp [Nat.add_comm]

/-! ## Places at which numbers differ -/

namespace FullVector

theorem countOnes_eq_count (n v : Nat) : countOnes n v = Nat.count (fun i => v.testBit i) n := by
  induction n generalizing v with
  | zero => rfl
  | succ n ih =>
    rw [countOnes, ih, Nat.count_succ', Nat.add_comm]
    simp only [Nat.testBit_add_one, Nat.testBit_zero, decide_eq_true_eq]
    split_ifs <;> omega

/-- The set bits of a combined word are the places at which the two words differ. -/
theorem ones_xor (a b : UInt64) :
    ones (a ^^^ b) = Nat.count (fun i => a.toNat.testBit i ≠ b.toNat.testBit i) 64 := by
  rw [ones, countOnes_eq_count, UInt64.toNat_xor]
  simp only [Nat.testBit_xor, bne_iff_ne]

/-- The number of words is the lowest word and, above it, the number of the others. -/
theorem denote_eq_head (limbs : List UInt64) :
    denote limbs = 2 ^ 64 * denote limbs.tail + (limbs.headD 0).toNat := by
  cases limbs with
  | nil => rfl
  | cons l limbs => exact Nat.add_comm _ _

/-- Words are compared from the lowest on; a missing word is zero. -/
theorem hammingLimbs_eq_head (as bs : List UInt64) :
    hammingLimbs as bs = ones (as.headD 0 ^^^ bs.headD 0) + hammingLimbs as.tail bs.tail := by
  cases as with
  | nil =>
    cases bs with
    | nil => rfl
    | cons b bs =>
      rw [List.headD_nil, List.headD_cons, UInt64.zero_xor]
      rfl
  | cons a as =>
    cases bs with
    | nil =>
      rw [List.headD_nil, List.headD_cons, UInt64.xor_zero]
      cases as <;> rfl
    | cons b bs => rfl

theorem testBit_denote (limbs : List UInt64) (i : Nat) :
    (denote limbs).testBit i =
      if i < 64 then (limbs.headD 0).toNat.testBit i else (denote limbs.tail).testBit (i - 64) := by
  rw [denote_eq_head, Nat.testBit_two_pow_mul_add _ (limbs.headD 0).toNat_lt]

/-- Words differ in the places of their numbers, sixty-four to a word. -/
theorem hammingLimbs_eq_count {n : Nat} {as bs : List UInt64} (ha : as.length ≤ n)
    (hb : bs.length ≤ n) :
    hammingLimbs as bs =
      Nat.count (fun i => (denote as).testBit i ≠ (denote bs).testBit i) (64 * n) := by
  induction n generalizing as bs with
  | zero =>
    rw [List.length_eq_zero_iff.mp (Nat.le_zero.mp ha), List.length_eq_zero_iff.mp
      (Nat.le_zero.mp hb)]
    rfl
  | succ n ih =>
    have hlow : Nat.count (fun i => (denote as).testBit i ≠ (denote bs).testBit i) 64 =
        ones (as.headD 0 ^^^ bs.headD 0) := by
      rw [ones_xor]
      apply count_congr_below
      intro i hi
      rw [testBit_denote as, testBit_denote bs, if_pos hi, if_pos hi]
    have hhigh (k : Nat) : (denote as).testBit (64 + k) ≠ (denote bs).testBit (64 + k) ↔
        (denote as.tail).testBit k ≠ (denote bs.tail).testBit k := by
      rw [testBit_denote as, testBit_denote bs, if_neg (by omega), if_neg (by omega),
        Nat.add_sub_cancel_left]
    rw [hammingLimbs_eq_head, Nat.mul_succ, Nat.add_comm (64 * n), Nat.count_add, hlow,
      ih (by rw [List.length_tail]; omega) (by rw [List.length_tail]; omega)]
    exact congrArg _ (count_congr_below fun k _ => (hhigh k).symm)

theorem denote_lt (limbs : List UInt64) : denote limbs < 2 ^ (64 * limbs.length) := by
  induction limbs with
  | nil => simp [denote]
  | cons l limbs ih =>
    have hl := l.toNat_lt
    rw [denote, List.length_cons, Nat.mul_succ, Nat.pow_add, Nat.mul_comm (2 ^ (64 * _))]
    omega

/-! ## The metric -/

/-- The places at which the numbers of two vectors differ. -/
def places (v w : FullVector) : Set Nat := {i | v.toNat.testBit i ≠ w.toNat.testBit i}

theorem lt_of_mem_places {v w : FullVector} {i : Nat} (h : i ∈ places v w) :
    i < 64 * max v.limbs.length w.limbs.length := by
  have hbelow (u : FullVector) (hu : u.limbs.length ≤ max v.limbs.length w.limbs.length)
      (hi : 64 * max v.limbs.length w.limbs.length ≤ i) : u.toNat.testBit i = false :=
    Nat.testBit_lt_two_pow ((denote_lt u.limbs).trans_le
      (Nat.pow_le_pow_right (by decide) ((Nat.mul_le_mul_left 64 hu).trans hi)))
  by_contra hge
  have hi := Nat.le_of_not_lt hge
  exact h ((hbelow v (Nat.le_max_left _ _) hi).trans (hbelow w (Nat.le_max_right _ _) hi).symm)

/-- The distance is the number of places that differ. -/
theorem hamming_eq_encard (v w : FullVector) : (v.hamming w : ℕ∞) = (places v w).encard := by
  have hbelow (i : Nat) (hi : v.toNat.testBit i ≠ w.toNat.testBit i) :
      i < 64 * max v.limbs.length w.limbs.length := lt_of_mem_places hi
  rw [places, encard_eq_count hbelow, hamming,
    hammingLimbs_eq_count (Nat.le_max_left _ _) (Nat.le_max_right _ _)]
  rfl

theorem hamming_le (v w : FullVector) :
    v.hamming w ≤ 64 * max v.limbs.length w.limbs.length := by
  rw [hamming, hammingLimbs_eq_count (Nat.le_max_left _ _) (Nat.le_max_right _ _)]
  exact Nat.count_le _

theorem hamming_comm (v w : FullVector) : v.hamming w = w.hamming v :=
  BitVector.hammingLimbs_comm v.limbs w.limbs

/-- Where the ends of a way differ, one of its two steps differs. -/
theorem places_subset (u v w : FullVector) : places u w ⊆ places u v ∪ places v w := by
  intro i hi
  by_contra hneither
  simp only [places, Set.mem_union, Set.mem_ofPred_eq, not_or, not_not] at hneither
  exact hi (hneither.1.trans hneither.2)

theorem hamming_triangle (u v w : FullVector) :
    u.hamming w ≤ u.hamming v + v.hamming w := by
  have h := (Set.encard_le_encard (places_subset u v w)).trans (Set.encard_union_le _ _)
  rw [← hamming_eq_encard, ← hamming_eq_encard, ← hamming_eq_encard] at h
  exact_mod_cast h

theorem Made.hamming_eq_zero_iff {v w : FullVector} (hv : v.Made) (hw : w.Made) :
    v.hamming w = 0 ↔ v = w := by
  constructor
  · intro h
    have hnone : places v w = ∅ := by
      rw [← Set.encard_eq_zero, ← hamming_eq_encard, h]
      rfl
    apply hv.eq_of_toNat hw
    apply Nat.eq_of_testBit_eq
    intro i
    by_contra hi
    exact Set.notMem_empty i (hnone ▸ hi)
  · rintro rfl
    have hnone : places v v = ∅ := Set.eq_empty_of_forall_notMem fun i hi => hi rfl
    have hzero := hamming_eq_encard v v
    rw [hnone, Set.encard_empty] at hzero
    exact_mod_cast hzero

/-- However vectors are made, of words, of bits or of a text, their distance is the number of places
at which the binary digits of their numbers differ, and for bits of one length the number of indices
at which the bits do. It is a metric: symmetric, zero just for equal vectors, and no longer than the
way around a third one. It never exceeds the number of places. -/
theorem the_distance_counts_the_places_that_differ :
    (∀ v w : FullVector, v.Made → w.Made →
      (v.hamming w : ℕ∞) = {i | v.toNat.testBit i ≠ w.toNat.testBit i}.encard ∧
        v.hamming w ≤ 64 * max v.limbs.length w.limbs.length ∧
        v.hamming w = w.hamming v ∧
        (v.hamming w = 0 ↔ v = w) ∧
        ∀ u : FullVector, u.Made → v.hamming w ≤ v.hamming u + u.hamming w) ∧
    ∀ as bs : BitVector, as.length = bs.length →
      (as.full.hamming bs.full : ℕ∞) = {i : Nat | as[i]? ≠ bs[i]?}.encard := by
  refine ⟨fun v w hv hw => ⟨hamming_eq_encard v w, hamming_le v w, hamming_comm v w,
    hv.hamming_eq_zero_iff hw, fun u _ => hamming_triangle v u w⟩, ?_⟩
  intro as bs hlen
  have hbelow (i : Nat) (hi : as[i]? ≠ bs[i]?) : i < as.length := by
    by_contra hge
    exact hi (by rw [List.getElem?_eq_none (by omega), List.getElem?_eq_none (by omega)])
  rw [encard_eq_count hbelow, BitVector.hamming_full hlen, BitVector.differing_eq_count hlen]

/-- A vector of words with a zero at the high end, one of sixty-six bits, and one of a text with a
zero in front. -/
theorem three_vectors_differ_in_their_places :
    let v : FullVector := .ofLimbs [5, 1, 0]
    let w : FullVector := BitVector.full (true :: List.replicate 65 false)
    let u : FullVector := ⟨[31]⟩
    (v.Made ∧ w.Made ∧ u.Made) ∧ v ≠ w ∧
      (v.hamming w : ℕ∞) = {i | v.toNat.testBit i ≠ w.toNat.testBit i}.encard ∧
      v.hamming w = 4 ∧ v.hamming w = w.hamming v ∧ v.hamming w ≤ v.hamming u + u.hamming w ∧
      v.hamming w ≤ 64 * 2 ∧
      ((BitVector.full [true, false]).hamming (BitVector.full [true, true]) : ℕ∞) =
        {i : Nat | ([true, false] : BitVector)[i]? ≠ ([true, true] : BitVector)[i]?}.encard := by
  intro v w u
  have hv : v.Made := .ofLimbs _
  have hw : w.Made := .full _
  have hu : u.Made := .read (s := "0x01F") rfl
  obtain ⟨hvectors, hbits⟩ := the_distance_counts_the_places_that_differ
  obtain ⟨hcount, hbound, hcomm, hzero, htriangle⟩ := hvectors v w hv hw
  have hfour : v.hamming w = 4 := by decide +kernel
  refine ⟨⟨hv, hw, hu⟩, fun heq => ?_, hcount, hfour, hcomm, htriangle u hu, hbound,
    hbits _ _ rfl⟩
  exact absurd (hfour.symm.trans (hzero.mpr heq)) (by decide)

end FullVector
end Lookalike
