-- The laws of dividing doubles: the quotient of two finite positive doubles is
-- the double nearest to the quotient of their values.
import Mathlib.Tactic.Linarith
import Mathlib.Tactic.Ring
import Lookalike.Proofs.Doubles

open Float.Model Float.Model.UnpackedFloat

namespace Lookalike.Decimal

/-! ## Two bits more -/

/-- A mantissa is the whole part of a fraction; the two bits behind it tell whether a half of it or
more is left over, and whether anything else is. -/
def Tells (em : ExtendedMantissa) (n d : Nat) : Prop :=
  ∃ r, r < d ∧ n = em.mantissa * d + r ∧ (em.roundBit = true ↔ d ≤ 2 * r) ∧
    (em.stickyBit = true ↔ 2 * r ≠ 0 ∧ 2 * r ≠ d)

theorem tells_quotient (n : Nat) {d : Nat} (hd : 0 < d) :
    Tells (.ofMantissaAndAccuracy (n / d) (accuracyOfFraction (n % d) d)) n d := by
  refine ⟨n % d, Nat.mod_lt n hd, ?_⟩
  have hsplit : n = n / d * d + n % d := (Nat.div_add_mod' n d).symm
  generalize n % d = r at *
  unfold accuracyOfFraction
  by_cases hr : r = 0
  · rw [if_pos hr]
    refine ⟨hsplit, ?_, ?_⟩
    all_goals simp [ExtendedMantissa.ofMantissaAndAccuracy]
    all_goals omega
  · rw [if_neg hr]
    cases hc : compare (2 * r) d with
    | lt =>
      have hlt := Nat.compare_eq_lt.mp hc
      refine ⟨hsplit, ?_, ?_⟩
      all_goals simp [ExtendedMantissa.ofMantissaAndAccuracy]
      all_goals omega
    | eq =>
      have heq := Nat.compare_eq_eq.mp hc
      refine ⟨hsplit, ?_, ?_⟩
      all_goals simp [ExtendedMantissa.ofMantissaAndAccuracy]
      all_goals omega
    | gt =>
      have hgt := Nat.compare_eq_gt.mp hc
      refine ⟨hsplit, ?_, ?_⟩
      all_goals simp [ExtendedMantissa.ofMantissaAndAccuracy]
      all_goals omega

theorem Tells.shiftRightOne {em : ExtendedMantissa} {n d : Nat} (h : Tells em n d) :
    Tells em.shiftRightOne n (d * 2) := by
  obtain ⟨r, hr, hn, hround, hsticky⟩ := h
  have hrest : (em.roundBit || em.stickyBit) = true ↔ r ≠ 0 := by
    rw [Bool.or_eq_true, hround, hsticky]
    omega
  have hlast : (em.mantissa % 2 != 0) = true ↔ em.mantissa % 2 = 1 := by
    rw [bne_iff_ne]
    omega
  have hsplit : em.mantissa / 2 * (d * 2) + em.mantissa % 2 * d = em.mantissa * d := by
    calc em.mantissa / 2 * (d * 2) + em.mantissa % 2 * d
        = (em.mantissa / 2 * 2 + em.mantissa % 2) * d := by ring
      _ = em.mantissa * d := by rw [Nat.div_add_mod']
  have hbit : em.mantissa % 2 = 0 ∧ em.mantissa % 2 * d = 0 ∨
      em.mantissa % 2 = 1 ∧ em.mantissa % 2 * d = d := by
    rcases Nat.mod_two_eq_zero_or_one em.mantissa with hbit | hbit <;> simp [hbit]
  unfold ExtendedMantissa.shiftRightOne
  refine ⟨em.mantissa % 2 * d + r, ?_, ?_, ?_, ?_⟩
  · omega
  · dsimp only
    omega
  · rw [hlast]
    omega
  · rw [hrest]
    omega

theorem Tells.shiftRight {em : ExtendedMantissa} {n d : Nat} (h : Tells em n d) (k : Nat) :
    Tells (em >>> k) n (d * 2 ^ k) := by
  change Tells (k.repeat ExtendedMantissa.shiftRightOne em) n (d * 2 ^ k)
  induction k with
  | zero => rwa [pow_zero, Nat.mul_one]
  | succ k ih =>
    rw [pow_succ, ← Nat.mul_assoc]
    exact ih.shiftRightOne

/-- The two bits settle how to round. -/
theorem Tells.near {em : ExtendedMantissa} {n d : Nat} (h : Tells em n d) :
    Near n d em.roundedMantissa := by
  obtain ⟨m, round, sticky⟩ := em
  obtain ⟨r, hr, rfl, hround, hsticky⟩ := h
  have hnext : (m + 1) * d = m * d + d := Nat.succ_mul m d
  unfold Near
  cases round <;> cases sticky <;>
    simp only [reduceCtorEq, false_iff, true_iff] at hround hsticky <;>
    simp only [ExtendedMantissa.roundedMantissa, ExtendedMantissa.accuracy,
      Accuracy.roundToNearestEven]
  · omega
  · omega
  · rcases Nat.mod_two_eq_zero_or_one m with hbit | hbit
    · rw [hbit, Nat.add_zero]
      omega
    · rw [hbit]
      omega
  · omega

/-! ## Rounding to a place -/

theorem targetExponent_eq (x : Int) : Format.binary64.targetExponent x = max (x - 53) (-1074) := rfl

/-- The place to round to is the last one that 53 digits of the fraction reach. -/
theorem atPlace_of_quotient {q n d e s : Nat} (hlow : q * d ≤ n) (hhigh : n < (q + 1) * d)
    (h : q.log2 + 1 ≤ s + 53) (he : e = 0 ∨ q.log2 + 1 = s + 53) :
    n < 2 ^ 53 * (d * 2 ^ s) ∧ (e = 0 ∨ 2 ^ 52 * (d * 2 ^ s) ≤ n) := by
  refine ⟨?_, ?_⟩
  · have hq : q + 1 ≤ 2 ^ (s + 53) :=
      le_trans Nat.lt_log2_self (Nat.pow_le_pow_right (by decide) h)
    calc n < (q + 1) * d := hhigh
      _ ≤ 2 ^ (s + 53) * d := Nat.mul_le_mul_right _ hq
      _ = 2 ^ 53 * (d * 2 ^ s) := by ring
  · rcases he with he | he
    · exact .inl he
    · right
      have hq : 2 ^ (s + 52) ≤ q := by
        have hlog : s + 52 = q.log2 := by omega
        rw [hlog]
        exact Nat.log2_self_le fun hzero => by simp [hzero] at hlog
      calc 2 ^ 52 * (d * 2 ^ s) = 2 ^ (s + 52) * d := by ring
        _ ≤ q * d := Nat.mul_le_mul_right _ hq
        _ ≤ n := hlow

/-- Shifting drops as many digits as lie behind the place. -/
theorem shiftToTargetExponent_eq {q s : Nat} {t e : Int} (a : Accuracy)
    (hs : (max (q.log2 + 1 + t - 53) (-1074) - t).toNat = s) (he : t + s = e) :
    shiftToTargetExponent Format.binary64 q t a =
      (ExtendedMantissa.ofMantissaAndAccuracy q a >>> s, e) := by
  unfold shiftToTargetExponent shiftToExponent totalExponent
  dsimp only
  rw [targetExponent_eq, hs, he]

theorem shiftToTargetExponent_placed {r e : Nat} (hless : r < 2 ^ 53) :
    shiftToTargetExponent Format.binary64 r ((e : Int) - 1074) .exact =
      (⟨r, false, false⟩, (e : Int) - 1074) := by
  have hlog : r.log2 ≤ 52 := by
    rcases Nat.eq_zero_or_pos r with rfl | hr
    · decide
    · exact Nat.le_of_lt_succ ((Nat.log2_lt (Nat.pos_iff_ne_zero.mp hr)).mpr hless)
  exact shiftToTargetExponent_eq (s := 0) .exact (by omega) (by omega)

/-- Digits that were all ones and carried over move the place by one. -/
theorem shiftToTargetExponent_carried (e : Nat) :
    shiftToTargetExponent Format.binary64 (2 ^ 53) ((e : Int) - 1074) .exact =
      (⟨2 ^ 52, false, false⟩, ((e + 1 : Nat) : Int) - 1074) := by
  have hlog : (2 ^ 53).log2 = 53 := Nat.log2_two_pow
  exact shiftToTargetExponent_eq (s := 1) .exact (by rw [hlog]; omega) (by omega)

/-- What rounding packs is the digits at the place, counted from the smallest double. -/
theorem toNat_pack_round {q n d e s : Nat} {t : Int} {a : Accuracy} (hd : 0 < d)
    (htells : Tells (.ofMantissaAndAccuracy q a) n d)
    (he : (e : Int) - 1074 = max (q.log2 + 1 + t - 53) (-1074)) (hs : t + s = e - 1074)
    (hhigh : n < 2 ^ 53 * (d * 2 ^ s)) (hlow : e = 0 ∨ 2 ^ 52 * (d * 2 ^ s) ≤ n) :
    (UnpackedFloat.pack Format.binary64
      (roundWithAccuracy Format.binary64 .positive q t a)).toNat =
      min (e * 2 ^ 52 + roundHalfEven n (d * 2 ^ s)) infiniteBits := by
  have hpos : 0 < d * 2 ^ s := Nat.mul_pos hd (Nat.two_pow_pos s)
  have hround := (htells.shiftRight s).near.round_eq hpos
  have hmost : roundHalfEven n (d * 2 ^ s) ≤ 2 ^ 53 := roundHalfEven_le hpos (Nat.le_of_lt hhigh)
  have hleast : e = 0 ∨ 2 ^ 52 ≤ roundHalfEven n (d * 2 ^ s) :=
    hlow.imp_right (le_roundHalfEven hpos)
  unfold roundWithAccuracy
  rw [shiftToTargetExponent_eq a (by omega) hs]
  dsimp only
  rw [← hround]
  clear hround
  generalize roundHalfEven n (d * 2 ^ s) = r at *
  rcases Nat.lt_or_eq_of_le hmost with hless | rfl
  · rw [shiftToTargetExponent_placed hless]
    dsimp only
    by_cases hr : r = 0
    · have hzero : e = 0 := hleast.resolve_right (by omega)
      rw [dif_pos hr, hr, hzero]
      rfl
    · rw [dif_neg hr]
      exact toNat_pack_finite ⟨Nat.pos_of_ne_zero hr, hless, hleast⟩ _
  · have hcarry : (e + 1) * 2 ^ 52 + 2 ^ 52 = e * 2 ^ 52 + 2 ^ 53 := by ring
    rw [shiftToTargetExponent_carried]
    dsimp only
    rw [dif_neg (by decide), toNat_pack_finite ⟨by decide, by decide, .inr (by decide)⟩, hcarry]

/-! ## Dividing -/

/-- A quotient is divided far enough to have all the digits of a double. -/
theorem divCore_reaches {m₁ m₂ k : Nat} {t e : Int} (hm₁ : 0 < m₁) (hm₂ : 0 < m₂)
    (hk : t + k = e) (ht : t ≤ max (m₁.log2 - m₂.log2 + e - 53) (-1074)) :
    t ≤ max ((m₁ * 2 ^ k / m₂).log2 + 1 + t - 53) (-1074) := by
  by_cases hsmall : t ≤ -1074
  · omega
  · have hnum : 2 ^ m₁.log2 ≤ m₁ := Nat.log2_self_le (Nat.pos_iff_ne_zero.mp hm₁)
    have hden : m₂ < 2 ^ (m₂.log2 + 1) := Nat.lt_log2_self
    have hpow : 2 ^ 52 * 2 ^ (m₂.log2 + 1) ≤ 2 ^ m₁.log2 * 2 ^ k := by
      rw [← pow_add, ← pow_add]
      exact Nat.pow_le_pow_right (by decide) (by omega)
    have hquotient : 2 ^ 52 ≤ m₁ * 2 ^ k / m₂ := by
      rw [Nat.le_div_iff_mul_le hm₂]
      calc 2 ^ 52 * m₂ ≤ 2 ^ 52 * 2 ^ (m₂.log2 + 1) := Nat.mul_le_mul_left _ (Nat.le_of_lt hden)
        _ ≤ 2 ^ m₁.log2 * 2 ^ k := hpow
        _ ≤ m₁ * 2 ^ k := Nat.mul_le_mul_right _ hnum
    have hlog := (Nat.le_log2 (by omega)).mpr hquotient
    omega

theorem AtPlace.congr {n₁ d₁ n₂ d₂ e : Nat} (hd₁ : 0 < d₁) (hd₂ : 0 < d₂)
    (h : n₁ * (d₂ * 2 ^ e) = n₂ * d₁) (hhigh : n₁ < 2 ^ 53 * d₁)
    (hlow : e = 0 ∨ 2 ^ 52 * d₁ ≤ n₁) : AtPlace n₂ d₂ e := by
  have hpos : 0 < d₂ * 2 ^ e := Nat.mul_pos hd₂ (Nat.two_pow_pos e)
  unfold AtPlace
  generalize d₂ * 2 ^ e = unit at *
  refine ⟨Nat.lt_of_mul_lt_mul_right (a := d₁) ?_, hlow.imp_right fun hle =>
    Nat.le_of_mul_le_mul_right ?_ hd₁⟩
  · calc n₂ * d₁ = n₁ * unit := h.symm
      _ < 2 ^ 53 * d₁ * unit := Nat.mul_lt_mul_of_pos_right hhigh hpos
      _ = 2 ^ 53 * unit * d₁ := by ring
  · calc 2 ^ 52 * unit * d₁ = 2 ^ 52 * d₁ * unit := by ring
      _ ≤ n₁ * unit := Nat.mul_le_mul_right _ hle
      _ = n₂ * d₁ := h

theorem toNat_pack_div {m₁ e₁ m₂ e₂ : Nat} (hm₁ : 0 < m₁) (hm₂ : 0 < m₂) :
    (UnpackedFloat.pack Format.binary64 (UnpackedFloat.div Format.binary64
      (.finite .positive m₁ ((e₁ : Int) - 1074) hm₁)
      (.finite .positive m₂ ((e₂ : Int) - 1074) hm₂))).toNat =
      nearestBits (m₁ * 2 ^ e₁) (m₂ * 2 ^ e₂) := by
  unfold UnpackedFloat.div divCore totalExponent
  dsimp only
  rw [targetExponent_eq, Nat.shiftLeft_eq]
  generalize ht : min ((e₁ : Int) - 1074 - (e₂ - 1074)) _ = t
  obtain ⟨k, hk⟩ : ∃ k : Nat, ((e₁ : Int) - 1074 - (e₂ - 1074) - t).toNat = k := ⟨_, rfl⟩
  rw [hk]
  have hreach := divCore_reaches (k := k) (t := t) (e := e₁ - e₂) hm₁ hm₂ (by omega) (by omega)
  obtain ⟨e, he⟩ : ∃ e : Nat,
      (e : Int) - 1074 = max ((m₁ * 2 ^ k / m₂).log2 + 1 + t - 53) (-1074) :=
    ⟨(max ((m₁ * 2 ^ k / m₂).log2 + 1 + t - 53) (-1074) + 1074).toNat, by omega⟩
  obtain ⟨s, hs⟩ : ∃ s : Nat, t + s = (e : Int) - 1074 := ⟨((e : Int) - 1074 - t).toNat, by omega⟩
  have hsplit := Nat.div_add_mod' (m₁ * 2 ^ k) m₂
  have hmod := Nat.mod_lt (m₁ * 2 ^ k) hm₂
  obtain ⟨hhigh, hlow⟩ := atPlace_of_quotient (q := m₁ * 2 ^ k / m₂) (n := m₁ * 2 ^ k) (d := m₂)
    (e := e) (s := s) (by omega) (by rw [Nat.succ_mul]; omega) (by omega) (by omega)
  have hsign : Sign.positive / Sign.positive = Sign.positive := rfl
  rw [hsign, toNat_pack_round hm₂ (tells_quotient _ hm₂) he hs hhigh hlow]
  -- the place counts from the digits of the quotient, and so does the place of the fraction
  have hpow : 2 ^ k * (2 ^ e₂ * 2 ^ e) = 2 ^ e₁ * grain * 2 ^ s := by
    have hexponent : k + (e₂ + e) = e₁ + 1074 + s := by omega
    rw [grain, ← pow_add, ← pow_add, ← pow_add, ← pow_add, hexponent]
  have hcross : m₁ * 2 ^ k * (m₂ * 2 ^ e₂ * 2 ^ e) = m₁ * 2 ^ e₁ * grain * (m₂ * 2 ^ s) := by
    calc m₁ * 2 ^ k * (m₂ * 2 ^ e₂ * 2 ^ e) = m₁ * m₂ * (2 ^ k * (2 ^ e₂ * 2 ^ e)) := by ring
      _ = m₁ * m₂ * (2 ^ e₁ * grain * 2 ^ s) := by rw [hpow]
      _ = m₁ * 2 ^ e₁ * grain * (m₂ * 2 ^ s) := by ring
  have hpos : 0 < m₂ * 2 ^ s := Nat.mul_pos hm₂ (Nat.two_pow_pos s)
  have hunits : 0 < m₂ * 2 ^ e₂ := Nat.mul_pos hm₂ (Nat.two_pow_pos e₂)
  have hplace : AtPlace (m₁ * 2 ^ e₁ * grain) (m₂ * 2 ^ e₂) e :=
    AtPlace.congr hpos hunits hcross hhigh hlow
  rw [nearestBits_eq (Nat.mul_pos hm₁ (Nat.two_pow_pos e₁)) hunits hplace, bitsAt,
    roundHalfEven_congr hpos (Nat.mul_pos hunits (Nat.two_pow_pos e)) hcross]
  rfl

/-- The quotient of two finite positive doubles is the double nearest to it. -/
theorem toNat_div {x y : Float} (hx : 0 < x.toBits.toNat) (hx' : x.toBits.toNat < infiniteBits)
    (hy : 0 < y.toBits.toNat) (hy' : y.toBits.toNat < infiniteBits) :
    (x / y).toBits.toNat =
      nearestBits (unitsOfBits x.toBits.toNat) (unitsOfBits y.toBits.toNat) := by
  have hmodel : (x / y).toBits.toNat = (UnpackedFloat.pack Format.binary64
      (UnpackedFloat.div Format.binary64 x.toModel.unpack y.toModel.unpack)).toNat := rfl
  rw [hmodel, unpack_toModel hx hx', unpack_toModel hy hy', toNat_pack_div]
  rfl

end Lookalike.Decimal
