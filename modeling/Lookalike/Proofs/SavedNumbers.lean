-- The laws of saved numbers: a rank that was written is read as a rank again,
-- and as the same one when it is a decimal of few digits.
import Lookalike.Proofs.Numerals
import Lookalike.Proofs.ShortestDigits

namespace Lookalike

namespace Json

open Decimal

/-! ## Leading digits -/

theorem le_foldl_digits (n : Nat) (cs : List Char) :
    n ≤ cs.foldl (fun n c => n * 10 + (c.toNat - 48)) n := by
  induction cs generalizing n with
  | nil => exact Nat.le_refl _
  | cons c cs ih => exact le_trans (by omega) (ih (n * 10 + (c.toNat - 48)))

theorem takeWord_eq {n : Nat} {cs : List Char}
    (h : cs.foldl (fun n c => n * 10 + (c.toNat - 48)) n < 2 ^ 64) :
    takeWord n cs = (cs.foldl (fun n c => n * 10 + (c.toNat - 48)) n, []) := by
  induction cs generalizing n with
  | nil => rfl
  | cons c cs ih =>
    have hnext := le_foldl_digits (n * 10 + (c.toNat - 48)) cs
    unfold takeWord
    dsimp only
    rw [List.foldl_cons] at h ⊢
    rw [if_pos (lt_of_le_of_lt hnext h), ih h]

theorem leadingWord_eq {n : Numeral} (h : ofDigits (n.whole ++ n.fraction) < 2 ^ 64) :
    leadingWord n = (ofDigits (n.whole ++ n.fraction), n.power - n.fraction.length) := by
  unfold ofDigits at h ⊢
  rw [List.foldl_append] at h ⊢
  have hwhole := lt_of_le_of_lt (le_foldl_digits _ n.fraction) h
  unfold leadingWord
  rw [takeWord_eq hwhole]
  dsimp only
  rw [takeWord_eq h]
  dsimp only
  rw [List.length_nil, Int.natCast_zero, Int.add_zero, Int.sub_zero]

theorem ofDigits_zeros (k : Nat) (cs : List Char) :
    ofDigits (List.replicate k '0' ++ cs) = ofDigits cs := by
  induction k with
  | zero => rfl
  | succ k ih => exact ih

theorem saved_digits {d : Nat} {p : Int} (hd : 0 < d) (hp : p < 0) :
    ofDigits ((Layout.saved.numeral false d p).whole ++
        (Layout.saved.numeral false d p).fraction) = d ∧
      (Layout.saved.numeral false d p).power -
        (Layout.saved.numeral false d p).fraction.length = p := by
  have hlen : 0 < (digits d).length := List.length_pos_of_ne_nil (digits_ne_nil d)
  unfold Layout.numeral
  dsimp only
  rw [if_neg (Nat.pos_iff_ne_zero.mp hd), if_neg (Int.not_le.mpr hp)]
  split_ifs with hpositional hfirst
  · refine ⟨?_, ?_⟩
    · rw [List.take_append_drop, ofDigits_digits]
    · simp only [Numeral.power, List.length_drop]
      omega
  · refine ⟨?_, ?_⟩
    · have hzero : ['0'] = List.replicate 1 '0' := rfl
      rw [hzero, ← List.append_assoc, List.replicate_append_replicate, ofDigits_zeros,
        ofDigits_digits]
    · simp only [Numeral.power, List.length_append, List.length_replicate]
      omega
  · refine ⟨?_, ?_⟩
    · rw [List.take_append_drop, ofDigits_digits]
    · simp only [Numeral.power, ofDigits_digits, List.length_drop, decide_eq_true_iff]
      split_ifs <;> omega

theorem leadingWord_saved {d : Nat} {p : Int} (hd : 0 < d) (hlt : d < 2 ^ 64) (hp : p < 0) :
    leadingWord (Layout.saved.numeral false d p) = (d, p) := by
  obtain ⟨hdigits, hplace⟩ := saved_digits hd hp
  rw [leadingWord_eq (by rwa [hdigits]), hdigits, hplace]

theorem saved_not_negative (d : Nat) (p : Int) :
    (Layout.saved.numeral false d p).negative = false := by
  unfold Layout.numeral
  dsimp only
  split_ifs <;> rfl

/-- A number below one is read by dividing its digits by a power of ten. -/
theorem double?_saved {d : Nat} {p : Int} (hd : 0 < d) (hlt : d < 2 ^ 64) (hp : p < 0) :
    double? (Layout.saved.numeral false d p) = scale? 5 (nearest false d 1) p := by
  unfold double?
  rw [leadingWord_saved hd hlt hp, saved_not_negative]
  dsimp only
  cases scale? 5 (nearest false d 1) p <;> rfl

/-! ## Powers of ten -/

theorem nearest_one_bits : nearestBits 1 1 = oneBits := nearestBits_two_pow (k := 0) (by decide)

/-- The values of the powers of ten, the last one as far as one division goes. -/
def tenUnits (k : Nat) : Nat := unitsOfBits (nearestBits (10 ^ k) 1)

/-- The ranges of powers of ten and of doubles. -/
theorem ten_pow_range : nearestBits (10 ^ 308) 1 < infiniteBits ∧
    4 * tenUnits 308 ≤ grain * grain ∧ 4 * (10 ^ 18 * grain) ≤ 5 * (10 ^ 171 * 10 ^ 171) ∧
    ∀ k < 23, tenUnits k = 10 ^ k * grain := by
  decide +kernel

theorem toNat_tenTo (k : Nat) : (tenTo k).toBits.toNat = nearestBits (10 ^ k) 1 := toNat_nearest _ _

theorem tenTo_bits_mono {j k : Nat} (h : j ≤ k) : nearestBits (10 ^ j) 1 ≤ nearestBits (10 ^ k) 1 :=
  nearestBits_mono Nat.one_pos Nat.one_pos
    (Nat.mul_le_mul_right _ (Nat.pow_le_pow_right (by decide) h))

theorem unitsOfBits_one : unitsOfBits oneBits = grain := by
  have hsplit : oneBits = 1022 * 2 ^ 52 + 2 ^ 52 := rfl
  have hgrain := grain_eq (show 52 + 1022 = 1074 from rfl)
  rw [hsplit, unitsOfBits_eq (by decide) (.inr (Nat.le_refl _)), hgrain]

theorem tenTo_finite {k : Nat} (hk : k ≤ 308) : nearestBits (10 ^ k) 1 < infiniteBits :=
  lt_of_le_of_lt (tenTo_bits_mono hk) ten_pow_range.1

theorem one_le_tenTo (k : Nat) : oneBits ≤ nearestBits (10 ^ k) 1 := by
  rw [← nearest_one_bits]
  exact tenTo_bits_mono (Nat.zero_le k)

theorem grain_le_tenUnits (k : Nat) : grain ≤ tenUnits k := by
  rw [← unitsOfBits_one]
  exact unitsOfBits_mono (one_le_tenTo k)

theorem tenUnits_mono {j k : Nat} (h : j ≤ k) : tenUnits j ≤ tenUnits k :=
  unitsOfBits_mono (tenTo_bits_mono h)

theorem four_le_grain {v : Nat} (hv : 0 < v) : 4 * 1 ≤ v * grain :=
  le_mul_grain (a := 0) (b := 2) hv (by decide)

/-- Eighteen digits at a place below are less than the smallest double. -/
theorem ten_pow_out_of_range {k : Nat} (h : 342 ≤ k) : 4 * (10 ^ 18 * grain) ≤ 5 * 10 ^ k := by
  have hhalf : 10 ^ 171 ≤ 10 ^ (k - 171) := Nat.pow_le_pow_right (by decide) (by omega)
  have hwhole : 10 ^ 171 * 10 ^ 171 ≤ 10 ^ k := by
    rw [← Nat.pow_sub_mul_pow 10 (show 171 ≤ k by omega)]
    exact Nat.mul_le_mul_right _ hhalf
  exact Nat.le_trans ten_pow_range.2.2.1 (Nat.mul_le_mul_left 5 hwhole)

theorem tenUnits_le {k : Nat} (hk : k ≤ 308) : 8 * tenUnits k ≤ 9 * (10 ^ k * grain) := by
  have hbounds :=
    (unitsOfBits_nearest_bounds Nat.one_pos (tenTo_finite hk) (four_le_grain (ten_pow_pos k))).2
  rwa [Nat.mul_one] at hbounds

theorem whole_bits {v : Nat} (hv : 0 < v) (h : v ≤ 10 ^ 18) :
    oneBits ≤ nearestBits v 1 ∧ nearestBits v 1 ≤ nearestBits (10 ^ 18) 1 := by
  rw [← nearest_one_bits]
  exact ⟨nearestBits_mono Nat.one_pos Nat.one_pos (by omega),
    nearestBits_mono Nat.one_pos Nat.one_pos (by omega)⟩

/-! ## Dividing by a power of ten -/

theorem div_tenTo {x : Float} {k : Nat} (hk : k ≤ 308) (hx : 0 < x.toBits.toNat)
    (hle : x.toBits.toNat ≤ nearestBits (10 ^ k) 1) :
    (x / tenTo k).toBits.toNat = nearestBits (unitsOfBits x.toBits.toNat) (tenUnits k) ∧
      (x / tenTo k).toBits.toNat ≤ oneBits := by
  have hfinite := tenTo_finite hk
  have hone := one_le_tenTo k
  have hpos : 0 < tenUnits k := lt_of_lt_of_le grain_pos (grain_le_tenUnits k)
  have hbits : (x / tenTo k).toBits.toNat =
      nearestBits (unitsOfBits x.toBits.toNat) (tenUnits k) := by
    rw [toNat_div hx (by omega) (by rw [toNat_tenTo]; unfold oneBits at hone; omega)
      (by rwa [toNat_tenTo]), toNat_tenTo]
    rfl
  refine ⟨hbits, ?_⟩
  rw [hbits, ← nearest_one_bits]
  apply nearestBits_mono hpos Nat.one_pos
  rw [Nat.mul_one, Nat.one_mul]
  exact unitsOfBits_mono hle

theorem scale?_near {fuel : Nat} {x : Float} {k : Nat} (hpos : 0 < k) (hk : k ≤ 308) :
    scale? (fuel + 1) x (-k) = some (x / tenTo k) := by
  unfold scale?
  rw [show (-(k : Int)).natAbs = k by omega, if_pos hk, if_neg (by omega)]

theorem beq_zero {x : Float} (hx : 0 < x.toBits.toNat) (hx' : x.toBits.toNat < infiniteBits) :
    (x == 0) = false := by
  have hmodel : (x == 0) =
      (x.toModel.unpack.compare (Float.toModel 0).unpack == some Ordering.eq) := rfl
  have hzero : (Float.toModel 0).unpack = .zero .positive := rfl
  rw [hmodel, hzero, unpack_toModel hx hx']
  rfl

theorem scale?_far {fuel : Nat} {x : Float} {k : Nat} (hx : 0 < x.toBits.toNat)
    (hx' : x.toBits.toNat < infiniteBits) (hk : 308 < k) :
    scale? (fuel + 1) x (-k) = scale? fuel (x / tenTo 308) (-(k - 308 : Nat)) := by
  have hplace : (-(k : Int)).natAbs = k := by omega
  have hrest : -(k : Int) + 308 = -(k - 308 : Nat) := by omega
  rw [scale?, hplace, if_neg (by omega), beq_zero hx hx', if_neg (by simp), if_neg (by omega),
    hrest]

/-- Two quotients and three roundings, each off by an eighth at most, keep more than half. -/
theorem two_quotients {v x u t s j a g : Nat} (hg : 0 < g) (hx : 7 * (v * g) ≤ 8 * x)
    (hu : 7 * (x * g) ≤ 8 * (u * t)) (ht : 8 * t ≤ 9 * (a * g)) (hs : 8 * s ≤ 9 * (j * g))
    (hv : 5 * (a * j) < 4 * (v * g)) : s < 2 * (u * g) := by
  have hquotient : 49 * (v * g) ≤ 72 * (u * a) := by
    apply Nat.le_of_mul_le_mul_right (c := g) _ hg
    calc 49 * (v * g) * g = 7 * (7 * (v * g)) * g := by ring
      _ ≤ 7 * (8 * x) * g := Nat.mul_le_mul_right _ (Nat.mul_le_mul_left _ hx)
      _ = 8 * (7 * (x * g)) := by ring
      _ ≤ 8 * (8 * (u * t)) := Nat.mul_le_mul_left _ hu
      _ = 8 * u * (8 * t) := by ring
      _ ≤ 8 * u * (9 * (a * g)) := Nat.mul_le_mul_left _ ht
      _ = 72 * (u * a) * g := by ring
  have hten : 245 * j < 288 * u := by
    apply Nat.lt_of_mul_lt_mul_right (a := a)
    have hleft : 245 * j * a = 49 * (5 * (a * j)) := by ring
    have hright : 288 * u * a = 4 * (72 * (u * a)) := by ring
    omega
  have hlast : 245 * (j * g) ≤ 288 * (u * g) := by
    rw [← Nat.mul_assoc, ← Nat.mul_assoc]
    exact Nat.mul_le_mul_right _ (Nat.le_of_lt hten)
  have hpos : 0 < u * g := Nat.mul_pos (by omega) hg
  omega

section

variable {v k : Nat} (hv : 0 < v) (hword : v ≤ 10 ^ 18)

include hv hword

theorem grain_le_units : grain ≤ unitsOfBits (nearestBits v 1) := by
  rw [← unitsOfBits_one]
  exact unitsOfBits_mono (whole_bits hv hword).1

theorem whole_pos : 0 < (nearest false v 1).toBits.toNat := by
  have hone := (whole_bits hv hword).1
  unfold oneBits at hone
  rw [toNat_nearest]
  omega

/-- One division is enough for up to 308 places. -/
theorem scale?_rank_near (hk : 0 < k) (hnear : k ≤ 308) (hle : v ≤ 10 ^ k) :
    ∃ y, scale? 5 (nearest false v 1) (-k) = some y ∧
      0 < y.toBits.toNat ∧ y.toBits.toNat ≤ oneBits := by
  have hbits : (nearest false v 1).toBits.toNat = nearestBits v 1 := toNat_nearest v 1
  have hless : (nearest false v 1).toBits.toNat ≤ nearestBits (10 ^ k) 1 := by
    rw [hbits]
    exact nearestBits_mono Nat.one_pos Nat.one_pos (Nat.mul_le_mul_right 1 hle)
  obtain ⟨hquotient, hrank⟩ := div_tenTo hnear (whole_pos hv hword) hless
  refine ⟨_, scale?_near hk hnear, ?_, hrank⟩
  rw [hquotient, hbits]
  apply nearestBits_pos (lt_of_lt_of_le grain_pos (grain_le_tenUnits k))
  have hlast : 4 * tenUnits 308 ≤ unitsOfBits (nearestBits v 1) * grain :=
    le_trans ten_pow_range.2.1 (Nat.mul_le_mul_right _ (grain_le_units hv hword))
  have hmono := tenUnits_mono hnear
  have hten : 0 < tenUnits k := lt_of_lt_of_le grain_pos (grain_le_tenUnits k)
  omega

/-- For more places there are two, and the second one is not too much. -/
theorem scale?_rank_far (hfar : 308 < k) (hsome : 5 * 10 ^ k < 4 * (v * grain)) :
    ∃ y, scale? 5 (nearest false v 1) (-k) = some y ∧
      0 < y.toBits.toNat ∧ y.toBits.toNat ≤ oneBits := by
  have hbits : (nearest false v 1).toBits.toNat = nearestBits v 1 := toNat_nearest v 1
  have hpos := whole_pos hv hword
  have hmost := (whole_bits hv hword).2
  have hless : (nearest false v 1).toBits.toNat ≤ nearestBits (10 ^ 308) 1 := by
    rw [hbits]
    exact le_trans hmost (tenTo_bits_mono (show 18 ≤ 308 by decide))
  have hfinite : nearestBits v 1 < infiniteBits := lt_of_le_of_lt hmost (tenTo_finite (by decide))
  obtain ⟨hquotient, hrank⟩ := div_tenTo (Nat.le_refl 308) hpos hless
  rw [hbits] at hquotient
  have hlast : 4 * tenUnits 308 ≤ unitsOfBits (nearestBits v 1) * grain :=
    le_trans ten_pow_range.2.1 (Nat.mul_le_mul_right _ (grain_le_units hv hword))
  have hten : 0 < tenUnits 308 := lt_of_lt_of_le grain_pos (grain_le_tenUnits 308)
  have hfirst : 0 < (nearest false v 1 / tenTo 308).toBits.toNat := by
    rw [hquotient]
    exact nearestBits_pos hten (by omega)
  have hsmall : k - 308 ≤ 308 := by
    by_contra hlarge
    have hword' : v * grain ≤ 10 ^ 18 * grain := Nat.mul_le_mul_right _ hword
    have hnone := ten_pow_out_of_range (k := k) (by omega)
    omega
  obtain ⟨hquotient', hrank'⟩ := div_tenTo hsmall hfirst (le_trans hrank (one_le_tenTo _))
  refine ⟨nearest false v 1 / tenTo 308 / tenTo (k - 308), ?_, ?_, hrank'⟩
  · rw [scale?_far hpos (lt_of_eq_of_lt hbits hfinite) hfar, scale?_near (by omega) hsmall]
  · have hx := (unitsOfBits_nearest_bounds Nat.one_pos hfinite (four_le_grain hv)).1
    have hfinite' : nearestBits (unitsOfBits (nearestBits v 1)) (tenUnits 308) < infiniteBits := by
      rw [← hquotient]
      exact lt_of_le_of_lt hrank (by decide)
    have hu := (unitsOfBits_nearest_bounds hten hfinite' hlast).1
    rw [Nat.mul_one] at hx
    rw [hquotient', hquotient]
    apply nearestBits_pos (lt_of_lt_of_le grain_pos (grain_le_tenUnits _))
    apply two_quotients grain_pos hx hu (tenUnits_le (Nat.le_refl 308)) (tenUnits_le hsmall)
    have hplaces : 308 + (k - 308) = k := by omega
    rw [← pow_add, hplaces]
    exact hsome

/-- Reading a decimal that is not above one and more than the smallest double gives a rank. -/
theorem scale?_rank (hk : 0 < k) (hle : v ≤ 10 ^ k) (hsome : 5 * 10 ^ k < 4 * (v * grain)) :
    ∃ y, scale? 5 (nearest false v 1) (-k) = some y ∧
      0 < y.toBits.toNat ∧ y.toBits.toNat ≤ oneBits := by
  rcases Nat.lt_or_ge 308 k with hfar | hnear
  · exact scale?_rank_far hv hword hfar hsome
  · exact scale?_rank_near hv hword hk hnear hle

end

/-! ## Exact divisions -/

theorem units_of_whole {v : Nat} (hv : 0 < v) (h : v < 2 ^ 53) :
    unitsOfBits (nearestBits v 1) = v * grain := by
  have hfinite : nearestBits v 1 < infiniteBits :=
    lt_of_le_of_lt (whole_bits hv (by omega)).2 (tenTo_finite (by decide))
  have hplace := atPlace_placeOf hv Nat.one_pos
  rw [unitsOfBits_nearest hv Nat.one_pos hfinite hplace]
  generalize placeOf v 1 = e at *
  have he : e ≤ 1074 := by
    by_contra hlarge
    have hlow := hplace.2.resolve_left (by omega)
    have hless : v * grain < 2 ^ (52 + e) := mul_grain_lt h (by omega)
    rw [pow_add] at hless
    omega
  have hexact : v * grain = v * 2 ^ (1074 - e) * (1 * 2 ^ e) := by
    rw [grain_eq (show 1074 - e + e = 1074 by omega)]
    ring
  have hpos : 0 < 1 * 2 ^ e := Nat.mul_pos Nat.one_pos (Nat.two_pow_pos e)
  rw [hexact, roundHalfEven_exact hpos]
  ring

/-- With both of them exact, the quotient is the double nearest to the decimal. -/
theorem toNat_div_exact {v k : Nat} (hv : 0 < v) (h : v < 2 ^ 53) (hle : v ≤ 10 ^ k) (hk : k < 23) :
    (nearest false v 1 / tenTo k).toBits.toNat = nearestBits v (10 ^ k) := by
  have hbits : (nearest false v 1).toBits.toNat = nearestBits v 1 := toNat_nearest v 1
  have hone := (whole_bits hv (by omega)).1
  have hquotient := (div_tenTo (x := nearest false v 1) (k := k) (by omega)
    (by rw [hbits]; unfold oneBits at hone; omega)
    (by rw [hbits]; exact nearestBits_mono Nat.one_pos Nat.one_pos (Nat.mul_le_mul_right 1 hle))).1
  rw [hquotient, hbits, units_of_whole hv h, ten_pow_range.2.2.2 k hk]
  apply nearestBits_congr (Nat.mul_pos (ten_pow_pos k) grain_pos) (ten_pow_pos k)
  ring

/-! ## Reading what was written -/

/-- What the numeral of a double is read as. -/
def reread (x : Float) : Option Float := (Layout.saved.numeral? x).bind double?

theorem numeral?_of_value {x : Float} {m d : Nat} {e p : Int}
    (h : Value.ofFloat x = .finite false m e) (hm : 0 < m) (hshortest : shortest m e = (d, p)) :
    Layout.saved.numeral? x = some (Layout.saved.numeral false d p) := by
  unfold Layout.numeral?
  rw [h]
  dsimp only
  rw [if_neg (Nat.pos_iff_ne_zero.mp hm), hshortest]

/-- What is written for a rank is a decimal that rounds to it. -/
theorem numeral?_rank {x : Float} (hpos : 0 < x.toBits.toNat) (hone : x.toBits.toNat ≤ oneBits) :
    ∃ d p, Layout.saved.numeral? x = some (Layout.saved.numeral false d p) ∧
      decimalBits d p = x.toBits.toNat ∧ d ≤ 10 ^ 18 ∧
      ∀ d' k : Nat, nearestBits d' (10 ^ k) = x.toBits.toNat →
        -(k : Int) ≤ p ∨ d ≤ 10 ∧ -(k : Int) - 1 ≤ p := by
  have hfinite : x.toBits.toNat < infiniteBits := lt_of_le_of_lt hone (by decide)
  have hvalue := ofFloat_eq hpos hfinite
  generalize x.toBits.toNat = b at *
  have hdigits := digits_bits hpos
  have hsplit := bits_split b
  have hless := hdigits.2.1
  unfold oneBits at hone
  have hplace : placeOfBits b ≤ 1022 := by
    unfold placeOfBits
    omega
  have hbelow : 4 * digitsOfBits b ≤ 2 ^ (1076 - placeOfBits b) := by
    rcases Nat.lt_or_eq_of_le hplace with hlt | heq
    · have hpow : 2 ^ 55 ≤ 2 ^ (1076 - placeOfBits b) := Nat.pow_le_pow_right (by decide) (by omega)
      omega
    · rw [heq] at hsplit ⊢
      have hpow : 2 ^ (1076 - 1022) = 2 ^ 54 := rfl
      omega
  obtain ⟨d, p, hshortest, hbits, hword, hfirst⟩ := shortest_spec hdigits (by omega) hbelow
  rw [hsplit] at hbits
  refine ⟨d, p, ?_, hbits, hword, ?_⟩
  · exact numeral?_of_value hvalue hdigits.1 hshortest
  · intro d' k h
    exact hfirst d' k (within_of_nearestBits (ten_pow_pos k) hpos hfinite h)

theorem eq_ofBits {x : Float} {b : Nat} (hb : b ≤ infiniteBits) (h : x.toBits.toNat = b) :
    x = Float.ofBits (UInt64.ofNat b) := toBits_inj (by rw [h, toNat_ofBits hb])

theorem reread_ends {x : Float} (h : x.toBits.toNat = 1 ∨ x.toBits.toNat = oneBits) :
    reread x = some x := by
  have hends : ∀ b ∈ [1, oneBits], (reread (Float.ofBits (UInt64.ofNat b))).map
      (fun y => y.toBits.toNat) = some b := by decide +kernel
  obtain ⟨hb, hmem⟩ : x.toBits.toNat ≤ infiniteBits ∧ x.toBits.toNat ∈ [1, oneBits] := by
    rcases h with h | h
    all_goals
      rw [h]
      decide
  have hback := hends _ hmem
  rw [← eq_ofBits hb rfl] at hback
  obtain ⟨y, hy, hbits⟩ := Option.map_eq_some_iff.mp hback
  rw [hy, toBits_inj hbits]

/-- Strictly between the smallest double and one, what is read is a decimal divided. -/
theorem reread_between {x : Float} (hlow : 1 < x.toBits.toNat) (hhigh : x.toBits.toNat < oneBits) :
    ∃ d k : Nat, reread x = scale? 5 (nearest false d 1) (-k) ∧
      0 < d ∧ 0 < k ∧ d < 10 ^ k ∧ d ≤ 10 ^ 18 ∧
      nearestBits d (10 ^ k) = x.toBits.toNat ∧
      ∀ d' k' : Nat, nearestBits d' (10 ^ k') = x.toBits.toNat → k ≤ k' ∨ d ≤ 10 ∧ k ≤ k' + 1 := by
  obtain ⟨d, p, hnumeral, hbits, hword, hfirst⟩ := numeral?_rank (by omega) (Nat.le_of_lt hhigh)
  have hd : 0 < d := by
    apply Nat.pos_of_ne_zero
    rintro rfl
    rw [decimalBits_zero] at hbits
    omega
  have hone : decimalBits 1 0 = oneBits := nearest_one_bits
  have hp : p < 0 := by
    rcases decimal_le_one (p := p) hd (by omega) with hp | ⟨rfl, rfl⟩
    · exact hp
    · omega
  obtain ⟨k, rfl⟩ : ∃ k : Nat, p = -k := ⟨(-p).toNat, by omega⟩
  rw [decimalBits_neg] at hbits
  refine ⟨d, k, ?_, hd, by omega, ?_, hword, hbits, ?_⟩
  · unfold reread
    rw [hnumeral, Option.bind_some, double?_saved hd (by omega) hp]
  · by_contra hlarge
    have hge : nearestBits 1 1 ≤ nearestBits d (10 ^ k) :=
      nearestBits_mono Nat.one_pos (ten_pow_pos k) (by omega)
    rw [nearest_one_bits] at hge
    omega
  · intro d' k' h
    rcases hfirst d' k' h with hle | ⟨hsmall, hle⟩
    · exact .inl (by omega)
    · exact .inr ⟨hsmall, by omega⟩

/-- A rank that was written is read as a rank. -/
theorem reread_rank {x : Float} (h : 0 < x ∧ x ≤ 1) : ∃ y, reread x = some y ∧ 0 < y ∧ y ≤ 1 := by
  obtain ⟨hlow, hhigh⟩ := (rank_iff_bits x).mp h
  by_cases hends : x.toBits.toNat = 1 ∨ x.toBits.toNat = oneBits
  · exact ⟨x, reread_ends hends, h⟩
  obtain ⟨d, k, hread, hd, hk, hless, hword, hbits, -⟩ :=
    reread_between (x := x) (by omega) (by omega)
  have hsome : 5 * 10 ^ k < 4 * (d * grain) := by
    by_contra hnone
    have hle : nearestBits d (10 ^ k) ≤ nearestBits 5 (4 * grain) := by
      apply nearestBits_mono (ten_pow_pos k) (Nat.mul_pos (by decide) grain_pos)
      rw [Nat.mul_left_comm]
      exact Nat.le_of_not_lt hnone
    have hwithin : Within (5 * grain) (4 * grain) 1 0 := by
      have hgrain := grain_pos
      unfold Within gapBelow
      rw [if_neg (by decide), pow_zero]
      omega
    have hleast := hwithin.nearestBits_eq (Nat.mul_pos (by decide) grain_pos)
      ⟨Nat.one_pos, by decide, .inl rfl⟩
    omega
  obtain ⟨y, hy, hrank⟩ := scale?_rank hd hword hk (Nat.le_of_lt hless) hsome
  exact ⟨y, hread.trans hy, (rank_iff_bits y).mpr hrank⟩

/-- A rank that is nearest to a decimal of fifteen digits and not too many places comes back. -/
theorem reread_short {x : Float} (h : 0 < x ∧ x ≤ 1) {d k : Nat} (hd : d < 10 ^ 15) (hk : k ≤ 21)
    (hx : x = nearest false d (10 ^ k)) : reread x = some x := by
  obtain ⟨hlow, hhigh⟩ := (rank_iff_bits x).mp h
  have hbits : nearestBits d (10 ^ k) = x.toBits.toNat := by rw [hx, toNat_nearest]
  by_cases hends : x.toBits.toNat = 1 ∨ x.toBits.toNat = oneBits
  · exact reread_ends hends
  obtain ⟨v, j, hread, hv, hj, hless, -, hbits', hfirst⟩ :=
    reread_between (x := x) (by omega) (by omega)
  have hfinite : x.toBits.toNat < infiniteBits := lt_of_le_of_lt hhigh (by decide)
  have hsmall : v < 2 ^ 53 ∧ j < 23 := by
    rcases hfirst d k hbits with hle | ⟨hten, hle⟩
    · have hratio := (within_of_nearestBits (ten_pow_pos j) hlow hfinite hbits').ratio
        (digits_bits hlow).1 (within_of_nearestBits (ten_pow_pos k) hlow hfinite hbits)
      have hthree : v ≤ 3 * d := by
        apply Nat.le_of_mul_le_mul_right (c := grain * 10 ^ k) _
          (Nat.mul_pos grain_pos (ten_pow_pos k))
        calc v * (grain * 10 ^ k) = v * grain * 10 ^ k := (Nat.mul_assoc _ _ _).symm
          _ ≤ 3 * (d * grain * 10 ^ j) := hratio
          _ ≤ 3 * (d * grain * 10 ^ k) := Nat.mul_le_mul_left _
            (Nat.mul_le_mul_left _ (Nat.pow_le_pow_right (by decide) hle))
          _ = 3 * d * (grain * 10 ^ k) := by ring
      exact ⟨by omega, by omega⟩
    · exact ⟨by omega, by omega⟩
  rw [hread, scale?_near hj (by omega)]
  congr 1
  apply toBits_inj
  rw [toNat_div_exact hv hsmall.1 (Nat.le_of_lt hless) hsmall.2, hbits']

end Json

end Lookalike
