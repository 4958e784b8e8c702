-- The laws of doubles as bits: what a positive double stands for, which bits
-- are between zero and one, and that a quotient is the nearest double.
import Mathlib.Tactic.Linarith
import Mathlib.Tactic.Ring
import Lookalike.Proofs.Rounding

open Float.Model Float.Model.UnpackedFloat

namespace Lookalike.Decimal

/-! ## Bits -/

/-- The bits of infinity; those of a finite positive double are below. -/
def infiniteBits : Nat := 2047 * 2 ^ 52

/-- The place of the last digit of a double, counted from the smallest double. -/
def placeOfBits (b : Nat) : Nat := b / 2 ^ 52 - 1

/-- The digits of a double. -/
def digitsOfBits (b : Nat) : Nat := b - placeOfBits b * 2 ^ 52

theorem bits_split (b : Nat) : placeOfBits b * 2 ^ 52 + digitsOfBits b = b := by
  unfold digitsOfBits placeOfBits
  omega

theorem digits_bits {b : Nat} (h : 0 < b) : Digits (digitsOfBits b) (placeOfBits b) := by
  unfold Digits digitsOfBits placeOfBits
  omega

theorem digitsOfBits_small {b : Nat} (h : b < 2 ^ 52) : digitsOfBits b = b := by
  unfold digitsOfBits placeOfBits
  omega

theorem digitsOfBits_large {b : Nat} (h : 2 ^ 52 ≤ b) : digitsOfBits b = 2 ^ 52 + b % 2 ^ 52 := by
  unfold digitsOfBits placeOfBits
  omega

/-- The value of a double as a number of smallest doubles. -/
def unitsOfBits (b : Nat) : Nat := digitsOfBits b * 2 ^ placeOfBits b

theorem toBits_inj {x y : Float} (h : x.toBits.toNat = y.toBits.toNat) : x = y := by
  obtain ⟨⟨b, hb⟩⟩ := x
  obtain ⟨⟨c, hc⟩⟩ := y
  obtain rfl : b = c := UInt64.toNat_inj.mp h
  rfl

/-! ## Packing -/

theorem toNat_packComponents (s : Sign) (e : BitVec 11) (m : BitVec 52) :
    (packComponents Format.binary64 s e m).toNat =
      (s.toBitVec.toNat * 2 ^ 11 + e.toNat) * 2 ^ 52 + m.toNat := by
  unfold packComponents
  rw [BitVec.toNat_append, ← Nat.shiftLeft_add_eq_or_of_lt m.isLt, BitVec.toNat_append,
    ← Nat.shiftLeft_add_eq_or_of_lt e.isLt, Nat.shiftLeft_eq, Nat.shiftLeft_eq]

/-- The bits of a positive double with its digits at their place. -/
theorem toNat_pack_finite {m e : Nat} (h : Digits m e) (hm : 0 < m) :
    (UnpackedFloat.pack Format.binary64 (.finite .positive m ((e : Int) - 1074) hm)).toNat =
      min (e * 2 ^ 52 + m) infiniteBits := by
  obtain ⟨-, hlt, hfull⟩ := h
  have hbias : (((e : Int) - 1074) + Format.binary64.exponentBias +
      Format.binary64.mantissaBitsWithoutImplicit).toNat = e + 1 := by
    have hvalue : (Format.binary64.exponentBias : Int) +
        Format.binary64.mantissaBitsWithoutImplicit = 1075 := rfl
    omega
  have hlog : m.log2 + 1 = Format.binary64.mantissaBits ↔ 2 ^ 52 ≤ m := by
    have hle := Nat.le_log2 (k := 52) (Nat.pos_iff_ne_zero.mp hm)
    have hless := (Nat.log2_lt (k := 53) (Nat.pos_iff_ne_zero.mp hm)).mpr hlt
    have hbits : Format.binary64.mantissaBits = 53 := rfl
    rw [← hle, hbits]
    omega
  have hpositive : Sign.positive.toBitVec.toNat = 0 := rfl
  unfold UnpackedFloat.pack infiniteBits
  dsimp only
  rw [hbias]
  split_ifs with hover hnormal
  · have hbits : (packedInfinity Format.binary64 .positive).toNat = 2047 * 2 ^ 52 := rfl
    rw [hbits]
    omega
  · rw [toNat_packComponents, BitVec.toNat_ofNat, BitVec.toNat_ofNat, hpositive]
    have hge := hlog.mp hnormal
    omega
  · rw [toNat_packComponents, BitVec.toNat_ofNat, BitVec.toNat_ofNat, hpositive]
    have hless := hlog.not.mp hnormal
    omega

/-! ## Unpacking -/

theorem toNat_unpackMantissa (v : BitVec Format.binary64.numBits) :
    (unpackMantissa v).toNat = v.toNat % 2 ^ 52 := by
  unfold unpackMantissa
  rw [BitVec.toNat_cast, BitVec.extractLsb, BitVec.extractLsb'_toNat, Nat.shiftRight_zero]
  rfl

theorem toNat_unpackExponent (v : BitVec Format.binary64.numBits) :
    (unpackExponent v).toNat = v.toNat / 2 ^ 52 % 2 ^ 11 := by
  unfold unpackExponent
  rw [BitVec.toNat_cast, BitVec.extractLsb, BitVec.extractLsb'_toNat, Nat.shiftRight_eq_div_pow]
  rfl

theorem toNat_unpackSign (v : BitVec Format.binary64.numBits) :
    (unpackSign v).toNat = v.toNat / 2 ^ 63 % 2 := by
  unfold unpackSign
  rw [BitVec.toNat_cast, BitVec.extractLsb, BitVec.extractLsb'_toNat, Nat.shiftRight_eq_div_pow]
  rfl

theorem finite_congr {s : Sign} {m m' : Nat} {e e' : Int} {hm : 0 < m} {hm' : 0 < m'} (h : m = m')
    (he : e = e') : UnpackedFloat.finite s m e hm = .finite s m' e' hm' := by
  subst h he
  rfl

/-- The bits of a finite positive double are unpacked to its digits at their place. -/
theorem unpack_finite {v : BitVec Format.binary64.numBits} {b : Nat} (hv : v.toNat = b)
    (hpos : 0 < b) (hb : b < infiniteBits) :
    UnpackedFloat.unpack Format.binary64 v =
      .finite .positive (digitsOfBits b) ((placeOfBits b : Int) - 1074) (digits_bits hpos).1 := by
  have hmantissa := toNat_unpackMantissa v
  have hexponent := toNat_unpackExponent v
  have hsign := toNat_unpackSign v
  rw [hv] at hmantissa hexponent hsign
  unfold infiniteBits at hb
  have hfield : b / 2 ^ 52 < 2047 := Nat.div_lt_of_lt_mul (by omega)
  have hpositive : Sign.ofBitVec (unpackSign v) = .positive := by
    apply if_pos
    apply BitVec.eq_of_toNat_eq
    rw [hsign, Nat.div_eq_of_lt (by omega)]
    rfl
  have hbias : (Format.binary64.exponentBias : Int) + Format.binary64.mantissaBitsWithoutImplicit =
      1075 := rfl
  have hinfinite : unpackExponent v ≠ -1#_ := by
    intro h
    have hall : (unpackExponent v).toNat = 2047 := congrArg BitVec.toNat h
    omega
  unfold UnpackedFloat.unpack
  dsimp only
  rw [if_neg hinfinite, hpositive, hbias]
  by_cases hsub : b < 2 ^ 52
  · have hzero : unpackExponent v = 0#_ := by
      apply BitVec.eq_of_toNat_eq
      rw [hexponent, Nat.div_eq_of_lt hsub]
      rfl
    have hfraction : unpackMantissa v ≠ 0#_ := by
      intro h
      rw [h, Nat.mod_eq_of_lt hsub] at hmantissa
      exact absurd hmantissa.symm (Nat.pos_iff_ne_zero.mp hpos)
    rw [if_pos hzero, dif_neg hfraction]
    apply finite_congr
    · rw [hmantissa, digitsOfBits_small hsub, Nat.mod_eq_of_lt hsub]
    · rw [hexponent, placeOfBits, Nat.div_eq_of_lt hsub]
      rfl
  · have hnormal : unpackExponent v ≠ 0#_ := by
      intro h
      have hnone : (unpackExponent v).toNat = 0 := congrArg BitVec.toNat h
      omega
    have hfull : (1#1 ++ unpackMantissa v).toNat = 2 ^ 52 + b % 2 ^ 52 := by
      rw [BitVec.toNat_append, ← Nat.shiftLeft_add_eq_or_of_lt (unpackMantissa v).isLt, hmantissa]
      rfl
    rw [if_neg hnormal]
    have hwhole : 1 ≤ b / 2 ^ 52 := Nat.div_pos (Nat.le_of_not_lt hsub) (Nat.two_pow_pos 52)
    apply finite_congr
    · rw [hfull, digitsOfBits_large (Nat.le_of_not_lt hsub)]
    · rw [hexponent, placeOfBits]
      clear hmantissa hexponent hsign
      omega

theorem fields_of_unpack {v : BitVec Format.binary64.numBits} {m : Nat} {e : Int} {hm : 0 < m}
    (h : UnpackedFloat.unpack Format.binary64 v = .finite .positive m e hm) :
    Sign.ofBitVec (unpackSign v) = .positive ∧ unpackExponent v ≠ -1#_ ∧
      (unpackExponent v = 0#_ → unpackMantissa v ≠ 0#_) := by
  unfold UnpackedFloat.unpack at h
  dsimp only at h
  by_cases hall : unpackExponent v = -1#_
  · rw [if_pos hall] at h
    by_cases hany : unpackMantissa v = 0#_
    · rw [if_pos hany] at h
      cases h
    · rw [if_neg hany] at h
      cases h
  · rw [if_neg hall] at h
    by_cases hzero : unpackExponent v = 0#_
    · rw [if_pos hzero] at h
      by_cases hany : unpackMantissa v = 0#_
      · rw [dif_pos hany] at h
        cases h
      · rw [dif_neg hany] at h
        exact ⟨(UnpackedFloat.finite.inj h).1, hall, fun _ => hany⟩
    · rw [if_neg hzero] at h
      exact ⟨(UnpackedFloat.finite.inj h).1, hall, fun hzero' => absurd hzero' hzero⟩

/-- Only finite positive doubles are unpacked to positive digits. -/
theorem bits_of_unpack {v : BitVec Format.binary64.numBits} {m : Nat} {e : Int} {hm : 0 < m}
    (h : UnpackedFloat.unpack Format.binary64 v = .finite .positive m e hm) :
    0 < v.toNat ∧ v.toNat < infiniteBits := by
  obtain ⟨hpositive, hall, hsome⟩ := fields_of_unpack h
  have hplus : unpackSign v = 0#1 := by
    unfold Sign.ofBitVec at hpositive
    split_ifs at hpositive with hzero
    exact hzero
  have hlow : v.toNat / 2 ^ 63 % 2 = 0 := by rw [← toNat_unpackSign, hplus]; rfl
  have hfield : v.toNat / 2 ^ 52 % 2 ^ 11 ≠ 2047 := by
    rw [← toNat_unpackExponent]
    exact fun heq => hall (BitVec.eq_of_toNat_eq heq)
  have hlt : v.toNat < 2 ^ 64 := v.isLt
  refine ⟨?_, ?_⟩
  · by_contra hzero
    have hnone : v.toNat = 0 := by omega
    apply hsome
    · apply BitVec.eq_of_toNat_eq
      rw [toNat_unpackExponent, hnone]
      rfl
    · apply BitVec.eq_of_toNat_eq
      rw [toNat_unpackMantissa, hnone]
      rfl
  · unfold infiniteBits
    omega

/-! ## Doubles by their bits -/

theorem unpack_toModel {x : Float} (hpos : 0 < x.toBits.toNat)
    (hx : x.toBits.toNat < infiniteBits) :
    x.toModel.unpack = .finite .positive (digitsOfBits x.toBits.toNat)
      ((placeOfBits x.toBits.toNat : Int) - 1074) (digits_bits hpos).1 :=
  unpack_finite rfl hpos hx

theorem toNat_ofBits {b : Nat} (h : b ≤ infiniteBits) :
    (Float.ofBits (UInt64.ofNat b)).toBits.toNat = b := by
  have hv : (UInt64.ofNat b).toBitVec.toNat = b := by
    unfold infiniteBits at h
    exact Nat.mod_eq_of_lt (by omega)
  have hbits : (Float.ofBits (UInt64.ofNat b)).toBits.toNat =
      (UnpackedFloat.pack Format.binary64
        (UnpackedFloat.unpack Format.binary64 (UInt64.ofNat b).toBitVec)).toNat := rfl
  rw [hbits]
  rcases Nat.eq_zero_or_pos b with rfl | hpos
  · rfl
  rcases Nat.lt_or_eq_of_le h with hlt | rfl
  · rw [unpack_finite hv hpos hlt, toNat_pack_finite (digits_bits hpos), bits_split,
      Nat.min_eq_left h]
  · rfl

theorem ofFloat_eq {x : Float} (hpos : 0 < x.toBits.toNat) (hx : x.toBits.toNat < infiniteBits) :
    Value.ofFloat x = .finite false (digitsOfBits x.toBits.toNat)
      ((placeOfBits x.toBits.toNat : Int) - 1074) := by
  unfold Value.ofFloat
  generalize x.toBits.toNat = b at *
  unfold infiniteBits at hx
  have hnegative : decide (2 ^ 63 ≤ b) = false := decide_eq_false (by omega)
  have hfield : b / 2 ^ 52 % 2 ^ 11 = b / 2 ^ 52 :=
    Nat.mod_eq_of_lt (Nat.div_lt_of_lt_mul (by omega))
  dsimp only
  rw [hnegative, hfield, if_neg (by omega)]
  by_cases hsub : b < 2 ^ 52
  · rw [if_pos (Nat.div_eq_of_lt hsub), Nat.mod_eq_of_lt hsub, digitsOfBits_small hsub, placeOfBits,
      Nat.div_eq_of_lt hsub]
    rfl
  · have hwhole : 1 ≤ b / 2 ^ 52 := Nat.div_pos (Nat.le_of_not_lt hsub) (Nat.two_pow_pos 52)
    rw [if_neg (by omega), digitsOfBits_large (Nat.le_of_not_lt hsub), placeOfBits]
    congr 1
    omega

/-! ## Order -/

theorem lt_iff_compare (x y : Float) :
    x < y ↔ x.toModel.unpack.compare y.toModel.unpack = some .lt := by
  have h : x < y ↔ decide (x.toModel < y.toModel) = true := Iff.rfl
  rw [h, decide_eq_true_iff]
  exact beq_iff_eq

theorem le_iff_compare (x y : Float) :
    x ≤ y ↔ ∃ o, x.toModel.unpack.compare y.toModel.unpack = some o ∧ o.isLE = true := by
  have h : x ≤ y ↔ decide (x.toModel ≤ y.toModel) = true := Iff.rfl
  rw [h, decide_eq_true_iff]
  exact Option.any_eq_true _ _

theorem compare_positive {m m' : Nat} {e e' : Int} {hm : 0 < m} {hm' : 0 < m'} :
    (UnpackedFloat.finite .positive m e hm).compare (.finite .positive m' e' hm') =
      some ((compare e e').then (compare m m')) := rfl

theorem positive_of_compare {u : UnpackedFloat}
    (h : (UnpackedFloat.zero .positive).compare u = some .lt) :
    u = .infinity .positive ∨ ∃ m e hm, u = .finite .positive m e hm := by
  cases u with
  | infinity s =>
    cases s with
    | negative => cases h
    | positive => exact .inl rfl
  | notANumber => cases h
  | zero s => cases h
  | finite s m e hm =>
    cases s with
    | negative => cases h
    | positive => exact .inr ⟨m, e, hm, rfl⟩

theorem le_iff_bits {x y : Float} (hx : 0 < x.toBits.toNat) (hx' : x.toBits.toNat < infiniteBits)
    (hy : 0 < y.toBits.toNat) (hy' : y.toBits.toNat < infiniteBits) :
    x ≤ y ↔ x.toBits.toNat ≤ y.toBits.toNat := by
  have hsplit := bits_split x.toBits.toNat
  have hsplit' := bits_split y.toBits.toNat
  obtain ⟨-, hless, hfull⟩ := digits_bits hx
  obtain ⟨-, hless', hfull'⟩ := digits_bits hy
  rw [le_iff_compare, unpack_toModel hx hx', unpack_toModel hy hy']
  rw [compare_positive]
  simp only [Option.some.injEq, exists_eq_left', Ordering.isLE_then_iff_or, Int.compare_eq_lt,
    Int.compare_eq_eq, Nat.isLE_compare]
  omega

/-- The bits of one. -/
def oneBits : Nat := 1023 * 2 ^ 52

theorem toNat_one : (1 : Float).toBits.toNat = oneBits := by decide

/-- A rank lies above zero and not above one just when its bits do. -/
theorem rank_iff_bits (x : Float) :
    (0 < x ∧ x ≤ 1) ↔ 0 < x.toBits.toNat ∧ x.toBits.toNat ≤ oneBits := by
  have hone : 0 < (1 : Float).toBits.toNat ∧ (1 : Float).toBits.toNat < infiniteBits := by
    rw [toNat_one]
    decide
  have hzero : (0 : Float).toModel.unpack = .zero .positive := rfl
  constructor
  · rintro ⟨hlow, hhigh⟩
    have hrange : 0 < x.toBits.toNat ∧ x.toBits.toNat < infiniteBits := by
      rw [lt_iff_compare, hzero] at hlow
      rw [le_iff_compare, unpack_toModel hone.1 hone.2] at hhigh
      obtain ⟨o, hcompare, ho⟩ := hhigh
      rcases positive_of_compare hlow with hx | ⟨m, e, hm, hx⟩
      · rw [hx] at hcompare
        obtain rfl : Ordering.gt = o := Option.some.inj hcompare
        cases ho
      · exact bits_of_unpack hx
    refine ⟨hrange.1, ?_⟩
    rw [← toNat_one]
    exact (le_iff_bits hrange.1 hrange.2 hone.1 hone.2).mp hhigh
  · rintro ⟨hlow, hhigh⟩
    have hfinite : x.toBits.toNat < infiniteBits := lt_of_le_of_lt hhigh (by decide)
    rw [← toNat_one] at hhigh
    refine ⟨?_, (le_iff_bits hlow hfinite hone.1 hone.2).mpr hhigh⟩
    rw [lt_iff_compare, hzero, unpack_toModel hlow hfinite]
    rfl

/-! ## The nearest double -/

theorem nearestBits_le (num den : Nat) : nearestBits num den ≤ infiniteBits := by
  unfold nearestBits
  dsimp only
  split_ifs
  · exact Nat.zero_le _
  · exact Nat.min_le_right _ _

theorem toNat_nearest (num den : Nat) :
    (nearest false num den).toBits.toNat = nearestBits num den :=
  toNat_ofBits (nearestBits_le num den)

/-- Digits rounded at a place are the units of their bits, also when they carried over. -/
theorem unitsOfBits_eq {e r : Nat} (hr : r ≤ 2 ^ 53) (he : e = 0 ∨ 2 ^ 52 ≤ r) :
    unitsOfBits (e * 2 ^ 52 + r) = r * 2 ^ e := by
  unfold unitsOfBits digitsOfBits
  rcases Nat.lt_or_eq_of_le hr with hless | hfull
  · have hplace : placeOfBits (e * 2 ^ 52 + r) = e := by
      unfold placeOfBits
      omega
    rw [hplace, Nat.add_sub_cancel_left]
  · have hplace : placeOfBits (e * 2 ^ 52 + r) = e + 1 := by
      unfold placeOfBits
      omega
    rw [hplace, hfull, show e * 2 ^ 52 + 2 ^ 53 - (e + 1) * 2 ^ 52 = 2 ^ 52 by omega]
    ring

theorem unitsOfBits_mono {b c : Nat} (h : b ≤ c) : unitsOfBits b ≤ unitsOfBits c := by
  rcases Nat.eq_zero_or_pos b with rfl | hb
  · rw [show unitsOfBits 0 = 0 from rfl]
    exact Nat.zero_le _
  obtain ⟨-, hless, -⟩ := digits_bits hb
  obtain ⟨-, -, hfull⟩ := digits_bits (Nat.lt_of_lt_of_le hb h)
  have hb' := bits_split b
  have hc' := bits_split c
  unfold unitsOfBits
  rcases Nat.lt_or_ge (placeOfBits b) (placeOfBits c) with hlt | hge
  · have hpow : 2 ^ (placeOfBits b + 1) ≤ 2 ^ placeOfBits c := Nat.pow_le_pow_right (by decide) hlt
    calc digitsOfBits b * 2 ^ placeOfBits b
        ≤ 2 ^ 53 * 2 ^ placeOfBits b := Nat.mul_le_mul_right _ (Nat.le_of_lt hless)
      _ = 2 ^ 52 * 2 ^ (placeOfBits b + 1) := by ring
      _ ≤ digitsOfBits c * 2 ^ placeOfBits c := Nat.mul_le_mul (by omega) hpow
  · have hsame : placeOfBits b = placeOfBits c := by
      have hle : placeOfBits b ≤ placeOfBits c := by
        unfold placeOfBits
        omega
      omega
    rw [hsame]
    exact Nat.mul_le_mul_right _ (by omega)

/-- The value of the nearest double, by the place of its last digit. -/
theorem unitsOfBits_nearest {num den e : Nat} (hn : 0 < num) (hd : 0 < den)
    (hfinite : nearestBits num den < infiniteBits) (h : AtPlace (num * grain) den e) :
    unitsOfBits (nearestBits num den) = roundHalfEven (num * grain) (den * 2 ^ e) * 2 ^ e := by
  have hbits := nearestBits_eq hn hd h
  have hleast : e = 0 ∨ 2 ^ 52 ≤ roundHalfEven (num * grain) (den * 2 ^ e) := by
    by_cases he : e = 0
    · exact .inl he
    · exact .inr (h.le_round hd he)
  unfold bitsAt at hbits
  unfold infiniteBits at hfinite
  rw [hbits, Nat.min_eq_left (by omega), unitsOfBits_eq (h.round_le hd) hleast]

/-- From four of the smallest doubles on, the nearest double is off by less than an eighth. -/
theorem unitsOfBits_nearest_bounds {num den : Nat} (hd : 0 < den)
    (hfinite : nearestBits num den < infiniteBits) (hfour : 4 * den ≤ num * grain) :
    7 * (num * grain) ≤ 8 * (unitsOfBits (nearestBits num den) * den) ∧
      8 * (unitsOfBits (nearestBits num den) * den) ≤ 9 * (num * grain) := by
  have hn : 0 < num := by
    apply Nat.pos_of_ne_zero
    rintro rfl
    omega
  have hplace := atPlace_placeOf hn hd
  rw [unitsOfBits_nearest hn hd hfinite hplace]
  generalize placeOf num den = e at *
  have hpos : 0 < den * 2 ^ e := Nat.mul_pos hd (Nat.two_pow_pos e)
  obtain ⟨hhigh, hlow, -, -⟩ := near_roundHalfEven hpos (num * grain)
  have hunit : 4 * (den * 2 ^ e) ≤ num * grain := by
    rcases hplace.2 with rfl | h
    · have hone : den * 2 ^ 0 = den := Nat.mul_one den
      omega
    · omega
  have hvalue : roundHalfEven (num * grain) (den * 2 ^ e) * 2 ^ e * den =
      roundHalfEven (num * grain) (den * 2 ^ e) * (den * 2 ^ e) := by ring
  rw [hvalue]
  omega

/-- A fraction lies among those of its nearest double. -/
theorem within_of_nearestBits {num den b : Nat} (hd : 0 < den) (hb : 0 < b)
    (hfinite : b < infiniteBits) (h : nearestBits num den = b) :
    Within (num * grain) den (digitsOfBits b) (placeOfBits b) := by
  have hn : 0 < num := by
    apply Nat.pos_of_ne_zero
    rintro rfl
    rw [← h] at hb
    exact Nat.lt_irrefl 0 hb
  have hplace := atPlace_placeOf hn hd
  apply Within.of_bits hd (digits_bits hb) hplace
  rw [nearestBits_eq hn hd hplace] at h
  unfold bitsAt at h
  rw [bits_split, ← h]
  exact (Nat.min_eq_left (by unfold infiniteBits at hfinite; omega)).symm

/-- More than half of the smallest double is not rounded to zero. -/
theorem nearestBits_pos {num den : Nat} (hd : 0 < den) (h : den < 2 * (num * grain)) :
    0 < nearestBits num den := by
  have hn : 0 < num := by
    apply Nat.pos_of_ne_zero
    rintro rfl
    omega
  have hplace := atPlace_placeOf hn hd
  rw [nearestBits_eq hn hd hplace]
  generalize placeOf num den = e at *
  have hpos : 0 < den * 2 ^ e := Nat.mul_pos hd (Nat.two_pow_pos e)
  obtain ⟨hhigh, -, -, -⟩ := near_roundHalfEven hpos (num * grain)
  unfold bitsAt
  rcases Nat.eq_zero_or_pos e with rfl | he
  · have hround : roundHalfEven (num * grain) (den * 2 ^ 0) ≠ 0 := by
      intro hzero
      rw [hzero] at hhigh
      rw [pow_zero, Nat.mul_one] at hhigh
      omega
    omega
  · have hround := hplace.le_round hd (by omega)
    omega

end Lookalike.Decimal
