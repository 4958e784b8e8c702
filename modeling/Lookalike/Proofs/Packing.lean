-- The laws of the two packings of a bit vector. The bucket number and the
-- words of the full vector hold the same bits, and the distance of two full
-- vectors is the number of places at which their bits differ.
import Mathlib.Data.List.TakeWhile
import Mathlib.Data.Nat.Bitwise
import Mathlib.Tactic.Ring
import Lookalike.Fingerprint.Bits

namespace Lookalike.BitVector

/-! ## Bits as a number -/

/-- The number that bits stand for, the lowest one first. -/
def value : List Bool → Nat
  | [] => 0
  | b :: bits => b.toNat + 2 * value bits

theorem value_lt (bits : List Bool) : value bits < 2 ^ bits.length := by
  induction bits with
  | nil => simp [value]
  | cons b bits ih =>
    have hb : b.toNat < 2 := Bool.toNat_lt b
    rw [value, List.length_cons, Nat.pow_succ]
    omega

theorem value_append (low high : List Bool) :
    value (low ++ high) = value low + 2 ^ low.length * value high := by
  induction low with
  | nil => simp [value]
  | cons b low ih =>
    rw [List.cons_append, value, value, ih, List.length_cons, Nat.pow_succ]
    ring

theorem value_inj {as bs : List Bool} (hlen : as.length = bs.length) :
    value as = value bs ↔ as = bs := by
  refine ⟨fun h => ?_, fun h => by rw [h]⟩
  induction as generalizing bs with
  | nil => exact (List.length_eq_zero_iff.mp hlen.symm).symm
  | cons a as ih =>
    cases bs with
    | nil => simp at hlen
    | cons b bs =>
      have ha : a.toNat < 2 := Bool.toNat_lt a
      have hb : b.toNat < 2 := Bool.toNat_lt b
      rw [value, value] at h
      have hhead : a = b := by cases a <;> cases b <;> simp at h ⊢ <;> omega
      have htail : as = bs := ih (by simpa using hlen) (by omega)
      rw [hhead, htail]

/-! ## Words -/

theorem toNat_limb {bits : List Bool} (h : bits.length ≤ 64) : (limb bits).toNat = value bits := by
  induction bits with
  | nil => rfl
  | cons b bits ih =>
    have hlen : bits.length ≤ 63 := Nat.le_of_succ_le_succ h
    have hlt : value bits < 2 ^ 63 :=
      lt_of_lt_of_le (value_lt bits) (Nat.pow_le_pow_right (by omega) hlen)
    have hb : b.toUInt64.toNat = b.toNat := by cases b <;> rfl
    have hstep : limb (b :: bits) = (limb bits <<< 1) ||| b.toUInt64 := rfl
    have hshift : (limb bits <<< 1).toNat = value bits <<< 1 := by
      rw [UInt64.toNat_shiftLeft, ih (by omega)]
      exact Nat.mod_eq_of_lt (by rw [Nat.shiftLeft_eq]; simp; omega)
    rw [hstep, UInt64.toNat_or, hshift, hb,
      ← Nat.shiftLeft_add_eq_or_of_lt (by simpa using Bool.toNat_lt b), Nat.shiftLeft_eq, value]
    omega

theorem bucket_eq_limb (width : Nat) (bits : BitVector) :
    bucket width bits = limb (bits.take width).reverse := by
  unfold bucket limb
  rw [List.foldr_reverse]

/-- The bucket number is the number of the leading bits. -/
theorem toNat_bucket {width : Nat} (hw : width ≤ 64) (bits : BitVector) :
    (bucket width bits).toNat = value (bits.take width).reverse := by
  rw [bucket_eq_limb]
  apply toNat_limb
  rw [List.length_reverse, List.length_take]
  omega

/-- Bits of one length fall into one bucket when they begin alike. -/
theorem bucket_inj {width : Nat} (hw : width ≤ 64) {as bs : BitVector}
    (hlen : as.length = bs.length) :
    bucket width as = bucket width bs ↔ as.take width = bs.take width := by
  rw [← UInt64.toNat_inj, toNat_bucket hw, toNat_bucket hw, value_inj (by simp [hlen]),
    List.reverse_inj]

/-! ## The places that differ -/

/-- The number of places at which bits differ. -/
def differing (as bs : List Bool) : Nat := (List.zipWith (· != ·) as bs).count true

@[simp] theorem differing_nil (bs : List Bool) : differing [] bs = 0 := by simp [differing]

@[simp] theorem differing_cons (a b : Bool) (as bs : List Bool) :
    differing (a :: as) (b :: bs) = (a != b).toNat + differing as bs := by
  unfold differing
  rw [List.zipWith_cons_cons, List.count_cons]
  cases a <;> cases b <;> simp <;> omega

theorem differing_append {as bs : List Bool} (h : as.length = bs.length) (cs ds : List Bool) :
    differing (as ++ cs) (bs ++ ds) = differing as bs + differing cs ds := by
  unfold differing
  rw [List.zipWith_append h, List.count_append]

theorem differing_reverse {as bs : List Bool} (h : as.length = bs.length) :
    differing as.reverse bs.reverse = differing as bs := by
  unfold differing
  rw [← List.reverse_zipWith h, List.count_reverse]

/-- Two tests on one list differ at as many places as there are members on which they differ. -/
theorem differing_map {α : Type} (f g : α → Bool) (xs : List α) :
    differing (xs.map f) (xs.map g) = xs.countP fun x => f x != g x := by
  induction xs with
  | nil => rfl
  | cons x xs ih =>
    rw [List.map_cons, List.map_cons, differing_cons, ih, List.countP_cons]
    cases f x != g x <;> simp; omega

/-! ## Words that differ -/

open FullVector (countOnes ones hammingLimbs trim)

theorem countOnes_xor {n : Nat} {as bs : List Bool} (hlen : as.length = bs.length)
    (h : as.length ≤ n) : countOnes n (value as ^^^ value bs) = differing as bs := by
  induction as generalizing bs n with
  | nil =>
    rw [List.length_eq_zero_iff.mp hlen.symm]
    have hzero : countOnes n 0 = 0 := by
      induction n with
      | zero => rfl
      | succ n ih => simpa [countOnes] using ih (by simp)
    simpa [value] using hzero
  | cons a as ih =>
    cases bs with
    | nil => simp at hlen
    | cons b bs =>
      obtain ⟨n, rfl⟩ : ∃ m, n = m + 1 := ⟨n - 1, by simp at h; omega⟩
      have ha : a.toNat < 2 := Bool.toNat_lt a
      have hb : b.toNat < 2 := Bool.toNat_lt b
      have hlow : (value (a :: as) ^^^ value (b :: bs)) % 2 = (a != b).toNat := by
        rw [value, value, Nat.xor_mod_two_eq]
        cases a <;> cases b <;> simp
        omega
      have hhigh : (value (a :: as) ^^^ value (b :: bs)) / 2 = value as ^^^ value bs := by
        rw [Nat.xor_div_two, value, value]
        congr 1 <;> omega
      rw [countOnes, hlow, hhigh, ih (by simpa using hlen) (by simpa using h), differing_cons]

theorem ones_limb_xor {as bs : List Bool} (hlen : as.length = bs.length) (h : as.length ≤ 64) :
    ones (limb as ^^^ limb bs) = differing as bs := by
  rw [ones, UInt64.toNat_xor, toNat_limb h, toNat_limb (hlen ▸ h), countOnes_xor hlen h]

theorem hammingLimbs_limbs {fuel : Nat} {as bs : List Bool} (hlen : as.length = bs.length)
    (h : as.length ≤ fuel) :
    hammingLimbs (limbs fuel as) (limbs fuel bs) = differing as bs := by
  induction fuel generalizing as bs with
  | zero =>
    rw [List.length_eq_zero_iff.mp (Nat.le_zero.mp h)]
    rfl
  | succ fuel ih =>
    cases as with
    | nil =>
      rw [List.length_eq_zero_iff.mp hlen.symm]
      rfl
    | cons a as =>
      cases bs with
      | nil => simp at hlen
      | cons b bs =>
        have htake : ((a :: as).take 64).length = ((b :: bs).take 64).length := by
          rw [List.length_take, List.length_take, hlen]
        have hdrop : ((a :: as).drop 64).length = ((b :: bs).drop 64).length := by
          rw [List.length_drop, List.length_drop, hlen]
        have hfuel : ((a :: as).drop 64).length ≤ fuel := by
          rw [List.length_drop]
          omega
        have hword : ((a :: as).take 64).length ≤ 64 := by
          rw [List.length_take]
          omega
        simp only [limbs, List.isEmpty_cons, Bool.false_eq_true, if_false, hammingLimbs]
        rw [ones_limb_xor htake hword, ih hdrop hfuel, ← differing_append htake,
          List.take_append_drop, List.take_append_drop]

/-! ## Zero words at the high end -/

theorem ones_zero : ones 0 = 0 := rfl

theorem hammingLimbs_comm (as bs : List UInt64) : hammingLimbs as bs = hammingLimbs bs as := by
  induction as generalizing bs with
  | nil => cases bs <;> rfl
  | cons a as ih =>
    cases bs with
    | nil => rfl
    | cons b bs => rw [hammingLimbs, hammingLimbs, UInt64.xor_comm, ih]

theorem hammingLimbs_zeros (as bs : List UInt64) (k : Nat) :
    hammingLimbs (as ++ List.replicate k 0) bs = hammingLimbs as bs := by
  induction as generalizing bs with
  | nil =>
    induction k generalizing bs with
    | zero => rfl
    | succ k ih =>
      cases bs with
      | nil => simp [hammingLimbs, List.replicate_succ, ones_zero]
      | cons b bs =>
        have := ih bs
        simp only [List.nil_append] at this
        simp only [List.nil_append, List.replicate_succ, hammingLimbs, UInt64.zero_xor, this]
        cases bs <;> rfl
  | cons a as ih =>
    cases bs with
    | nil => simp [hammingLimbs, ones_zero]
    | cons b bs => rw [List.cons_append, hammingLimbs, ih, hammingLimbs]

theorem trim_append_zeros (as : List UInt64) : ∃ k, as = trim as ++ List.replicate k 0 := by
  have hzeros : as.reverse.takeWhile (· == 0) =
      List.replicate (as.reverse.takeWhile (· == 0)).length 0 := by
    rw [List.eq_replicate_iff]
    exact ⟨rfl, fun x hx => by simpa using List.mem_takeWhile_imp hx⟩
  refine ⟨(as.reverse.takeWhile (· == 0)).length, ?_⟩
  rw [← List.reverse_replicate, ← hzeros, trim, ← List.reverse_append,
    List.takeWhile_append_dropWhile, List.reverse_reverse]

theorem hammingLimbs_trim (as bs : List UInt64) :
    hammingLimbs (trim as) (trim bs) = hammingLimbs as bs := by
  obtain ⟨j, hj⟩ := trim_append_zeros as
  obtain ⟨k, hk⟩ := trim_append_zeros bs
  conv_rhs => rw [hj, hk]
  rw [hammingLimbs_zeros, hammingLimbs_comm (trim as) (_ ++ _), hammingLimbs_zeros,
    hammingLimbs_comm]

/-- The distance of two full vectors is the number of bits that differ. -/
theorem hamming_full {as bs : BitVector} (hlen : as.length = bs.length) :
    (full as).hamming (full bs) = differing as bs := by
  have hrev : as.reverse.length = bs.reverse.length := by simpa using hlen
  unfold full FullVector.hamming FullVector.ofLimbs
  rw [hammingLimbs_trim, ← hlen, hammingLimbs_limbs hrev (by simp), differing_reverse hlen]

end Lookalike.BitVector
