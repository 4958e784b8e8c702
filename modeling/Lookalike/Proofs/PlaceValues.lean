-- The two packings of a bit vector as numbers. The words of the full vector
-- and the set bits are two sums of powers of two with one value, and the bucket
-- number is that value without its low bits.
import Mathlib.Algebra.BigOperators.Fin
import Lookalike.Proofs.Hexadecimal

namespace Lookalike

/-! ## Sums of powers of two -/

/-- The number of words is the sum of the words, each at its place. -/
theorem FullVector.denote_eq_sum (limbs : List UInt64) :
    denote limbs = ∑ k : Fin limbs.length, limbs[k].toNat * 2 ^ (64 * k.val) := by
  induction limbs with
  | nil => rfl
  | cons l limbs ih =>
    change _ = ∑ k : Fin (limbs.length + 1), (l :: limbs)[k].toNat * 2 ^ (64 * k.val)
    rw [denote, ih, Fin.sum_univ_succ, Finset.mul_sum]
    simp only [Fin.getElem_fin, Fin.val_zero, Fin.val_succ, List.getElem_cons_zero,
      List.getElem_cons_succ, Nat.mul_zero, Nat.pow_zero, Nat.mul_one]
    refine congrArg _ (Finset.sum_congr rfl fun k _ => ?_)
    rw [Nat.mul_add, Nat.mul_one, Nat.pow_add]
    ring

namespace BitVector

/-- The number of bits, the first one highest, is the sum of the powers of two at the set bits. -/
theorem value_reverse_eq_sum (bits : List Bool) :
    value bits.reverse =
      ∑ i : Fin bits.length with bits[i] = true, 2 ^ (bits.length - 1 - i.val) := by
  rw [Finset.sum_filter]
  induction bits with
  | nil => rfl
  | cons b bits ih =>
    have hhead : value [b] = b.toNat := by simp [value]
    rw [List.reverse_cons, value_append, ih, hhead, List.length_reverse, Nat.add_comm]
    change _ = ∑ i : Fin (bits.length + 1),
      if (b :: bits)[i] = true then 2 ^ (bits.length + 1 - 1 - i.val) else 0
    rw [Fin.sum_univ_succ]
    simp only [Fin.getElem_fin, Fin.val_zero, Fin.val_succ, List.getElem_cons_zero,
      List.getElem_cons_succ, Nat.add_sub_cancel, Nat.sub_zero]
    congr 1
    · cases b <;> simp
    · refine Finset.sum_congr rfl fun i _ => ?_
      rw [show bits.length - (i.val + 1) = bits.length - 1 - i.val by omega]

/-! ## The packings side by side -/

theorem full_inj {as bs : BitVector} (hlen : as.length = bs.length) :
    full as = full bs ↔ as = bs := by
  refine ⟨fun h => ?_, fun h => by rw [h]⟩
  have hvalue : value as.reverse = value bs.reverse := by
    rw [← FullVector.toNat_full, ← FullVector.toNat_full, h]
  exact List.reverse_inj.mp ((value_inj (by simpa using hlen)).mp hvalue)

theorem bucket_lt {width : Nat} (hw : width ≤ 64) (bits : BitVector) :
    (bucket width bits).toNat < 2 ^ width := by
  rw [toNat_bucket hw]
  calc value (bits.take width).reverse < 2 ^ (bits.take width).reverse.length := value_lt _
    _ ≤ 2 ^ width := Nat.pow_le_pow_right (by decide) (by simp [List.length_take])

/-- The words of a full vector, each at its place, sum up to the powers of two at the set bits, the
first bit highest. No zero word stands at the high end, so vectors of one length are equal just
when their words are. The bucket number is the sum without the bits behind the leading ones. -/
theorem both_packings_hold_the_leading_bits (bits : BitVector) :
    let words := bits.full.limbs
    let sum := ∑ k : Fin words.length, words[k].toNat * 2 ^ (64 * k.val)
    sum = ∑ i : Fin bits.length with bits[i] = true, 2 ^ (bits.length - 1 - i.val) ∧
      words.getLast? ≠ some 0 ∧
      (∀ others : BitVector, others.length = bits.length →
        (others.full = bits.full ↔ others = bits)) ∧
      ∀ width, 1 ≤ width → width ≤ 64 → width < bits.length →
        (bits.bucket width).toNat = sum / 2 ^ (bits.length - width) ∧
          (bits.bucket width).toNat < 2 ^ width := by
  intro words sum
  have hsum : sum = bits.full.toNat := (FullVector.denote_eq_sum words).symm
  refine ⟨?_, FullVector.trimmed_trim _, fun others hlen => full_inj hlen, ?_⟩
  · rw [hsum, FullVector.toNat_full]
    exact value_reverse_eq_sum bits
  · intro width _ hword _
    rw [hsum]
    exact ⟨FullVector.toNat_bucket_eq_div hword bits, bucket_lt hword bits⟩

/-- Two bits of seventy, the first of them behind three zeros: two words, and a bucket number of a
whole word. -/
theorem seventy_bits_are_packed_twice :
    let bits : BitVector := List.replicate 3 false ++ true :: List.replicate 65 false ++ [true]
    bits.full.limbs = [1, 4] ∧ (1 ≤ 64 ∧ 64 ≤ 64 ∧ 64 < bits.length) ∧
      (bits.bucket 64).toNat = (1 * 2 ^ 0 + 4 * 2 ^ 64) / 2 ^ (70 - 64) ∧
      (bits.bucket 64).toNat < 2 ^ 64 := by
  intro bits
  obtain ⟨-, -, -, hbucket⟩ := both_packings_hold_the_leading_bits bits
  have hwide : 64 < bits.length := by decide
  obtain ⟨hdiv, hlt⟩ := hbucket 64 (by decide) (by decide) hwide
  have hsum : ∑ k : Fin bits.full.limbs.length, bits.full.limbs[k].toNat * 2 ^ (64 * k.val) =
      1 * 2 ^ 0 + 4 * 2 ^ 64 := by decide +kernel
  refine ⟨by decide +kernel, ⟨by decide, by decide, hwide⟩, ?_, hlt⟩
  rw [hdiv, hsum]
  rfl

end BitVector
end Lookalike
