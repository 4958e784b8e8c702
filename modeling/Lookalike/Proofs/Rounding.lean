-- The laws of rounding to doubles. Every finite double is a whole number of the
-- smallest one, and the bits of positive doubles are in their order. So a
-- fraction is rounded by the place of its binary digits alone: rounding keeps
-- the order of fractions and leaves a double as it is.
import Mathlib.Tactic.Linarith
import Mathlib.Tactic.Ring
import Lookalike.Decimal.Binary

namespace Lookalike.Decimal

/-! ## Whole numbers -/

/-- Half a unit off at most, and a half only to an even number. -/
def Near (n d r : Nat) : Prop :=
  2 * n ≤ 2 * (r * d) + d ∧ 2 * (r * d) ≤ 2 * n + d ∧
    (2 * n = 2 * (r * d) + d → r % 2 = 0) ∧ (2 * (r * d) = 2 * n + d → r % 2 = 0)

theorem near_roundHalfEven {d : Nat} (hd : 0 < d) (n : Nat) : Near n d (roundHalfEven n d) := by
  have hsplit := Nat.div_add_mod n d
  have hlt := Nat.mod_lt n hd
  have hup : (n / d + 1) * d = d * (n / d) + d := by ring
  have hdown : n / d * d = d * (n / d) := by ring
  unfold roundHalfEven Near
  dsimp only
  split_ifs with h1 h2 h3
  · rw [hdown]
    omega
  · rw [hup]
    omega
  · rw [hdown]
    omega
  · rw [hup]
    omega

theorem Near.mono {n₁ d₁ r₁ n₂ d₂ r₂ : Nat} (hd₁ : 0 < d₁) (hd₂ : 0 < d₂) (h₁ : Near n₁ d₁ r₁)
    (h₂ : Near n₂ d₂ r₂) (hle : n₁ * d₂ ≤ n₂ * d₁) : r₁ ≤ r₂ := by
  obtain ⟨-, hlow, -, htie₁⟩ := h₁
  obtain ⟨hhigh, -, htie₂, -⟩ := h₂
  by_contra hlt
  have hstep : r₂ + 1 ≤ r₁ := by omega
  have hpos : 0 < d₁ * d₂ := Nat.mul_pos hd₁ hd₂
  have hgap : (r₂ + 1) * (d₁ * d₂) ≤ r₁ * (d₁ * d₂) := Nat.mul_le_mul_right _ hstep
  have hl := Nat.mul_le_mul_right d₂ hlow
  have hh := Nat.mul_le_mul_right d₁ hhigh
  have hone : r₁ = r₂ + 1 := by
    by_contra hne
    have hmore : (r₂ + 2) * (d₁ * d₂) ≤ r₁ * (d₁ * d₂) := Nat.mul_le_mul_right _ (by omega)
    nlinarith
  subst hone
  have heq₁ : 2 * ((r₂ + 1) * d₁) = 2 * n₁ + d₁ := by
    apply Nat.le_antisymm hlow
    have h : (2 * n₁ + d₁) * d₂ ≤ 2 * ((r₂ + 1) * d₁) * d₂ := by nlinarith
    exact Nat.le_of_mul_le_mul_right h hd₂
  have heq₂ : 2 * n₂ = 2 * (r₂ * d₂) + d₂ := by
    apply Nat.le_antisymm hhigh
    have h : (2 * (r₂ * d₂) + d₂) * d₁ ≤ 2 * n₂ * d₁ := by nlinarith
    exact Nat.le_of_mul_le_mul_right h hd₁
  have heven₁ := htie₁ heq₁
  have heven₂ := htie₂ heq₂
  omega

theorem Near.unique {n d r s : Nat} (hd : 0 < d) (hr : Near n d r) (hs : Near n d s) : r = s :=
  Nat.le_antisymm (hr.mono hd hd hs (Nat.le_refl _)) (hs.mono hd hd hr (Nat.le_refl _))

theorem near_exact {d : Nat} (hd : 0 < d) (r : Nat) : Near (r * d) d r := by
  unfold Near
  omega

theorem Near.round_eq {n d r : Nat} (hd : 0 < d) (h : Near n d r) : roundHalfEven n d = r :=
  (near_roundHalfEven hd n).unique hd h

/-- A double `m * 2 ^ e` is rounded to the whole number near to it. -/
theorem near_roundToNat {x : Float} {m : Nat} {e : Int}
    (h : Value.ofFloat x = .finite false m e) :
    Near (m * 2 ^ e.toNat) (2 ^ (-e).toNat) (roundToNat x) := by
  unfold roundToNat
  simp only [h]
  split_ifs with hsign
  · have hden : (-e).toNat = 0 := Int.toNat_eq_zero.mpr (by omega)
    rw [hden, pow_zero]
    simpa using near_exact Nat.one_pos (m * 2 ^ e.toNat)
  · have hnum : e.toNat = 0 := Int.toNat_eq_zero.mpr (by omega)
    rw [hnum, pow_zero, Nat.mul_one]
    exact near_roundHalfEven (Nat.two_pow_pos _) m

theorem roundHalfEven_exact {d : Nat} (hd : 0 < d) (r : Nat) : roundHalfEven (r * d) d = r :=
  (near_exact hd r).round_eq hd

theorem roundHalfEven_mono {n₁ d₁ n₂ d₂ : Nat} (hd₁ : 0 < d₁) (hd₂ : 0 < d₂)
    (hle : n₁ * d₂ ≤ n₂ * d₁) : roundHalfEven n₁ d₁ ≤ roundHalfEven n₂ d₂ :=
  (near_roundHalfEven hd₁ n₁).mono hd₁ hd₂ (near_roundHalfEven hd₂ n₂) hle

theorem roundHalfEven_congr {n₁ d₁ n₂ d₂ : Nat} (hd₁ : 0 < d₁) (hd₂ : 0 < d₂)
    (h : n₁ * d₂ = n₂ * d₁) : roundHalfEven n₁ d₁ = roundHalfEven n₂ d₂ :=
  Nat.le_antisymm (roundHalfEven_mono hd₁ hd₂ h.le) (roundHalfEven_mono hd₂ hd₁ h.ge)

theorem roundHalfEven_le {n d r : Nat} (hd : 0 < d) (h : n ≤ r * d) : roundHalfEven n d ≤ r := by
  rw [← roundHalfEven_exact hd r]
  exact roundHalfEven_mono hd hd (Nat.mul_le_mul_right d h)

theorem le_roundHalfEven {n d r : Nat} (hd : 0 < d) (h : r * d ≤ n) : r ≤ roundHalfEven n d := by
  rw [← roundHalfEven_exact hd r]
  exact roundHalfEven_mono hd hd (Nat.mul_le_mul_right d h)

/-! ## Places -/

/-- The place of the last binary digit that a double can hold of `n / d` units: there are 53 digits
in front of it, fewer only at the first place. -/
def AtPlace (n d e : Nat) : Prop := n < 2 ^ 53 * (d * 2 ^ e) ∧ (e = 0 ∨ 2 ^ 52 * (d * 2 ^ e) ≤ n)

theorem AtPlace.mono {n₁ d₁ e₁ n₂ d₂ e₂ : Nat} (hd₁ : 0 < d₁) (h₁ : AtPlace n₁ d₁ e₁)
    (h₂ : AtPlace n₂ d₂ e₂) (hle : n₁ * d₂ ≤ n₂ * d₁) : e₁ ≤ e₂ := by
  by_contra hlt
  have hlow : 2 ^ 52 * (d₁ * 2 ^ e₁) ≤ n₁ := by
    rcases h₁.2 with h | h
    · omega
    · exact h
  have hpow : 2 ^ (e₂ + 1) ≤ 2 ^ e₁ := Nat.pow_le_pow_right (by decide) (by omega)
  have hn₁ : 2 ^ 52 * (d₁ * 2 ^ (e₂ + 1)) * d₂ ≤ n₁ * d₂ :=
    Nat.mul_le_mul_right _ (le_trans (Nat.mul_le_mul_left _ (Nat.mul_le_mul_left _ hpow)) hlow)
  have hn₂ : n₂ * d₁ < 2 ^ 53 * (d₂ * 2 ^ e₂) * d₁ := Nat.mul_lt_mul_of_pos_right h₂.1 hd₁
  have hsame : 2 ^ 52 * (d₁ * 2 ^ (e₂ + 1)) * d₂ = 2 ^ 53 * (d₂ * 2 ^ e₂) * d₁ := by ring
  omega

theorem AtPlace.unique {n d e f : Nat} (hd : 0 < d) (he : AtPlace n d e) (hf : AtPlace n d f) :
    e = f :=
  Nat.le_antisymm (he.mono hd hf (Nat.le_refl _)) (hf.mono hd he (Nat.le_refl _))

/-- The bits of the double nearest to `n / d` units, of which the last digit is at `e`. -/
def bitsAt (n d e : Nat) : Nat := min (e * 2 ^ 52 + roundHalfEven n (d * 2 ^ e)) (2047 * 2 ^ 52)

theorem AtPlace.round_le {n d e : Nat} (hd : 0 < d) (h : AtPlace n d e) :
    roundHalfEven n (d * 2 ^ e) ≤ 2 ^ 53 :=
  roundHalfEven_le (Nat.mul_pos hd (Nat.two_pow_pos e)) (Nat.le_of_lt h.1)

theorem AtPlace.le_round {n d e : Nat} (hd : 0 < d) (h : AtPlace n d e) (he : e ≠ 0) :
    2 ^ 52 ≤ roundHalfEven n (d * 2 ^ e) :=
  le_roundHalfEven (Nat.mul_pos hd (Nat.two_pow_pos e)) (h.2.resolve_left he)

theorem AtPlace.bitsAt_mono {n₁ d₁ e₁ n₂ d₂ e₂ : Nat} (hd₁ : 0 < d₁) (hd₂ : 0 < d₂)
    (h₁ : AtPlace n₁ d₁ e₁) (h₂ : AtPlace n₂ d₂ e₂) (hle : n₁ * d₂ ≤ n₂ * d₁) :
    bitsAt n₁ d₁ e₁ ≤ bitsAt n₂ d₂ e₂ := by
  unfold bitsAt
  rcases Nat.lt_or_eq_of_le (h₁.mono hd₁ h₂ hle) with hlt | rfl
  · have hr₁ := h₁.round_le hd₁
    have hr₂ := h₂.le_round hd₂ (by omega)
    omega
  · have hpos (d : Nat) (hd : 0 < d) : 0 < d * 2 ^ e₁ := Nat.mul_pos hd (Nat.two_pow_pos e₁)
    have hr : roundHalfEven n₁ (d₁ * 2 ^ e₁) ≤ roundHalfEven n₂ (d₂ * 2 ^ e₁) := by
      apply roundHalfEven_mono (hpos d₁ hd₁) (hpos d₂ hd₂)
      rw [← Nat.mul_assoc, ← Nat.mul_assoc]
      exact Nat.mul_le_mul_right _ hle
    omega

/-! ## Finding the place -/

/-- How many of the smallest double make one. -/
def grain : Nat := 2 ^ 1074

theorem grain_eq {i j : Nat} (h : i + j = 1074) : grain = 2 ^ i * 2 ^ j := by
  rw [grain, ← pow_add, h]

theorem grain_pos : 0 < grain := by
  rw [grain]
  exact pow_pos Nat.two_pos _

theorem scaleDown_pos (num : Nat) {den : Nat} (hd : 0 < den) (e : Int) :
    0 < (scaleDown num den e).2 := by
  unfold scaleDown
  split_ifs
  · exact Nat.mul_pos hd (Nat.two_pow_pos _)
  · exact hd

/-- A scaled fraction, in whole numbers of the smallest double. -/
theorem scaleDown_eq (num den : Nat) {t : Nat} {e : Int} (ht : e + 1074 = t) :
    ∃ k, 0 < k ∧ (scaleDown num den e).1 * k = num * grain ∧
      (scaleDown num den e).2 * k = den * 2 ^ t := by
  unfold scaleDown
  by_cases he : 0 ≤ e
  · obtain ⟨i, rfl⟩ := Int.eq_ofNat_of_zero_le he
    have hi : t = i + 1074 := by omega
    rw [if_pos he, Int.toNat_natCast]
    refine ⟨grain, grain_pos, rfl, ?_⟩
    rw [hi, pow_add, Nat.mul_assoc]
    rfl
  · rw [if_neg he]
    refine ⟨2 ^ t, Nat.two_pow_pos t, ?_, rfl⟩
    rw [grain_eq (show (-e).toNat + t = 1074 by omega), Nat.mul_assoc]

/-- A comparison with a scaled fraction is one with the fraction. -/
theorem scaleDown_le_iff (num den : Nat) {t : Nat} {e : Int} (ht : e + 1074 = t) (k : Nat) :
    k * (scaleDown num den e).2 ≤ (scaleDown num den e).1 ↔
      k * (den * 2 ^ t) ≤ num * grain := by
  obtain ⟨s, hs, hnum, hden⟩ := scaleDown_eq num den ht
  rw [← hnum, ← hden, ← Nat.mul_assoc]
  exact (Nat.mul_le_mul_right_iff hs).symm

theorem mul_grain_lt {n a b : Nat} (h : n < 2 ^ a) (hb : a + 1074 ≤ b) : n * grain < 2 ^ b := by
  have hpow : 2 ^ a * grain = 2 ^ (a + 1074) := by rw [grain, ← pow_add]
  calc n * grain < 2 ^ a * grain := Nat.mul_lt_mul_of_pos_right h grain_pos
    _ = 2 ^ (a + 1074) := hpow
    _ ≤ 2 ^ b := Nat.pow_le_pow_right (by decide) hb

theorem le_mul_grain {n a b : Nat} (h : 2 ^ a ≤ n) (hb : b ≤ a + 1074) : 2 ^ b ≤ n * grain := by
  have hpow : 2 ^ a * grain = 2 ^ (a + 1074) := by rw [grain, ← pow_add]
  calc 2 ^ b ≤ 2 ^ (a + 1074) := Nat.pow_le_pow_right (by decide) hb
    _ = 2 ^ a * grain := hpow.symm
    _ ≤ n * grain := Nat.mul_le_mul_right _ h

/-- The place that rounding takes, counted from the smallest double. -/
def placeOf (num den : Nat) : Nat := (binaryPlace num den + 1074).toNat

theorem placeOf_eq (num den : Nat) : binaryPlace num den + 1074 = placeOf num den := by
  have h : -1074 ≤ binaryPlace num den := le_max_right _ _
  rw [placeOf, Int.toNat_of_nonneg (by omega)]

/-- Rounding takes the place of the last digit. -/
theorem atPlace_placeOf {num den : Nat} (hn : 0 < num) (hd : 0 < den) :
    AtPlace (num * grain) den (placeOf num den) := by
  have hplace := placeOf_eq num den
  have hnum : num < 2 ^ (num.log2 + 1) := Nat.lt_log2_self
  have hden : den < 2 ^ (den.log2 + 1) := Nat.lt_log2_self
  have hnum' : 2 ^ num.log2 ≤ num := Nat.log2_self_le (Nat.pos_iff_ne_zero.mp hn)
  have hden' : 2 ^ den.log2 ≤ den := Nat.log2_self_le (Nat.pos_iff_ne_zero.mp hd)
  unfold binaryPlace at hplace
  dsimp only at hplace
  generalize hguess : (num.log2 : Int) - den.log2 - 52 = guess at hplace
  generalize placeOf num den = e at hplace ⊢
  -- the logarithms alone bound the fraction from both sides, up to one binary digit
  have hbelow : guess + 1074 ≤ e → num * grain < 2 ^ 53 * (den * 2 ^ e) := by
    intro h
    have hlt : num * grain < 2 ^ (53 + den.log2 + e) := mul_grain_lt hnum (by omega)
    rw [pow_add, pow_add, Nat.mul_assoc] at hlt
    exact lt_of_lt_of_le hlt (Nat.mul_le_mul_left _ (Nat.mul_le_mul_right _ hden'))
  have habove : e + 1 ≤ guess + 1074 → 2 ^ 52 * (den * 2 ^ e) ≤ num * grain := by
    intro h
    have hle : 2 ^ (52 + (den.log2 + 1) + e) ≤ num * grain := le_mul_grain hnum' (by omega)
    rw [pow_add, pow_add, Nat.mul_assoc] at hle
    exact le_trans (Nat.mul_le_mul_left _ (Nat.mul_le_mul_right _ (Nat.le_of_lt hden))) hle
  have hpos := scaleDown_pos num hd guess
  split_ifs at hplace with hsmall
  · rw [Nat.div_lt_iff_lt_mul hpos] at hsmall
    refine ⟨?_, ?_⟩
    · by_cases h : guess + 1074 ≤ e
      · exact hbelow h
      · have hle := (scaleDown_le_iff num den (t := e + 1) (e := guess) (by omega)
          (2 ^ 52)).not.mp (by omega)
        have hsame : 2 ^ 52 * (den * 2 ^ (e + 1)) = 2 ^ 53 * (den * 2 ^ e) := by ring
        omega
    · by_cases h : e = 0
      · exact .inl h
      · exact .inr (habove (by omega))
  · rw [Nat.div_lt_iff_lt_mul hpos] at hsmall
    refine ⟨hbelow (by omega), ?_⟩
    by_cases h : e = 0
    · exact .inl h
    · exact .inr ((scaleDown_le_iff num den (t := e) (e := guess) (by omega)
        (2 ^ 52)).mp (by omega))

/-- The bits of the nearest double, by the place of its last digit. -/
theorem nearestBits_eq {num den e : Nat} (hn : 0 < num) (hd : 0 < den)
    (h : AtPlace (num * grain) den e) : nearestBits num den = bitsAt (num * grain) den e := by
  obtain rfl := (atPlace_placeOf hn hd).unique hd h
  obtain ⟨k, hk, hnum, hden⟩ := scaleDown_eq num den (placeOf_eq num den)
  have hpos := scaleDown_pos num hd (binaryPlace num den)
  have hround : roundHalfEven (num * grain) (den * 2 ^ placeOf num den) =
      roundHalfEven (scaleDown num den (binaryPlace num den)).1
        (scaleDown num den (binaryPlace num den)).2 := by
    rw [← hnum, ← hden]
    apply roundHalfEven_congr (Nat.mul_pos hpos hk) hpos
    ring
  unfold nearestBits bitsAt
  rw [if_neg (Nat.pos_iff_ne_zero.mp hn), hround]
  rfl

/-- The bits of nearest doubles keep the order of fractions. -/
theorem nearestBits_mono {n₁ d₁ n₂ d₂ : Nat} (hd₁ : 0 < d₁) (hd₂ : 0 < d₂)
    (hle : n₁ * d₂ ≤ n₂ * d₁) : nearestBits n₁ d₁ ≤ nearestBits n₂ d₂ := by
  rcases Nat.eq_zero_or_pos n₁ with rfl | hn₁
  · exact Nat.zero_le _
  · have hn₂ : 0 < n₂ := by
      by_contra h
      obtain rfl : n₂ = 0 := by omega
      have hpos := Nat.mul_pos hn₁ hd₂
      omega
    rw [nearestBits_eq hn₁ hd₁ (atPlace_placeOf hn₁ hd₁),
      nearestBits_eq hn₂ hd₂ (atPlace_placeOf hn₂ hd₂)]
    apply (atPlace_placeOf hn₁ hd₁).bitsAt_mono hd₁ hd₂ (atPlace_placeOf hn₂ hd₂)
    rw [Nat.mul_right_comm, Nat.mul_right_comm n₂]
    exact Nat.mul_le_mul_right _ hle

theorem nearestBits_congr {n₁ d₁ n₂ d₂ : Nat} (hd₁ : 0 < d₁) (hd₂ : 0 < d₂)
    (h : n₁ * d₂ = n₂ * d₁) : nearestBits n₁ d₁ = nearestBits n₂ d₂ :=
  Nat.le_antisymm (nearestBits_mono hd₁ hd₂ h.le) (nearestBits_mono hd₂ hd₁ h.ge)

/-! ## The fractions of one double -/

/-- The digits and the place of a double: all its digits are there, or the place is the first. -/
def Digits (m e : Nat) : Prop := 0 < m ∧ m < 2 ^ 53 ∧ (e = 0 ∨ 2 ^ 52 ≤ m)

/-- How far the double below is from `m` at place `e`, in quarters of the place. -/
def gapBelow (m e : Nat) : Nat := if m = 2 ^ 52 ∧ e ≠ 0 then 1 else 2

theorem gapBelow_pos (m e : Nat) : 0 < gapBelow m e := by
  unfold gapBelow
  split_ifs <;> simp

theorem gapBelow_le (m e : Nat) : gapBelow m e ≤ 2 := by
  unfold gapBelow
  split_ifs <;> simp

/-- The fractions between the middles to the next doubles; the middles too when `m` is even. -/
def Within (n d m e : Nat) : Prop :=
  (4 * m - gapBelow m e) * (d * 2 ^ e) ≤ 4 * n ∧ 4 * n ≤ (4 * m + 2) * (d * 2 ^ e) ∧
    (m % 2 = 0 ∨
      (4 * m - gapBelow m e) * (d * 2 ^ e) < 4 * n ∧ 4 * n < (4 * m + 2) * (d * 2 ^ e))

theorem Within.pos {n d m e : Nat} (hm : 0 < m) (hd : 0 < d) (h : Within n d m e) : 0 < n := by
  have hgap := gapBelow_le m e
  have hlow : 0 < (4 * m - gapBelow m e) * (d * 2 ^ e) :=
    Nat.mul_pos (by omega) (Nat.mul_pos hd (Nat.two_pow_pos e))
  have hle := h.1
  omega

/-- The fractions of one double are less than a factor of three apart. -/
theorem Within.ratio {n₁ d₁ n₂ d₂ m e : Nat} (hm : 0 < m) (h₁ : Within n₁ d₁ m e)
    (h₂ : Within n₂ d₂ m e) : n₁ * d₂ ≤ 3 * (n₂ * d₁) := by
  have hgap := gapBelow_le m e
  have hfour : 4 * (n₁ * d₂) ≤ 4 * (3 * (n₂ * d₁)) := by
    calc 4 * (n₁ * d₂) = 4 * n₁ * d₂ := by ring
      _ ≤ (4 * m + 2) * (d₁ * 2 ^ e) * d₂ := Nat.mul_le_mul_right _ h₁.2.1
      _ ≤ 3 * (4 * m - gapBelow m e) * (d₁ * 2 ^ e) * d₂ :=
        Nat.mul_le_mul_right _ (Nat.mul_le_mul_right _ (by omega))
      _ = 3 * d₁ * ((4 * m - gapBelow m e) * (d₂ * 2 ^ e)) := by ring
      _ ≤ 3 * d₁ * (4 * n₂) := Nat.mul_le_mul_left _ h₂.1
      _ = 4 * (3 * (n₂ * d₁)) := by ring
  exact Nat.le_of_mul_le_mul_left hfour (by decide)

theorem Within.scale {n d m e k : Nat} (h : Within n d m e) (hk : 0 < k) :
    Within (n * k) (d * k) m e := by
  obtain ⟨hlow, hhigh, htie⟩ := h
  have hunit (a : Nat) : a * (d * k * 2 ^ e) = a * (d * 2 ^ e) * k := by ring
  have hvalue : 4 * (n * k) = 4 * n * k := (Nat.mul_assoc _ _ _).symm
  unfold Within
  rw [hunit, hunit, hvalue, Nat.mul_le_mul_right_iff hk, Nat.mul_le_mul_right_iff hk,
    Nat.mul_lt_mul_right hk, Nat.mul_lt_mul_right hk]
  exact ⟨hlow, hhigh, htie⟩

/-- At its own place, a fraction of a double is rounded to its digits. -/
theorem Within.near {n d m e : Nat} (hdigits : Digits m e) (h : Within n d m e) :
    Near n (d * 2 ^ e) m := by
  obtain ⟨hm, -, -⟩ := hdigits
  obtain ⟨hlow, hhigh, htie⟩ := h
  unfold Near
  generalize d * 2 ^ e = unit at *
  have hmul : m * unit = unit * m := Nat.mul_comm m unit
  have hupper : (4 * m + 2) * unit = 4 * (m * unit) + 2 * unit := by ring
  have hgap : gapBelow m e = 1 ∨ gapBelow m e = 2 := by
    have hpos := gapBelow_pos m e
    have hle := gapBelow_le m e
    omega
  rcases hgap with hone | htwo
  · rw [hone] at hlow htie
    have hlower : (4 * m - 1) * unit + unit = 4 * (m * unit) := by
      rw [← Nat.succ_mul, Nat.succ_eq_add_one, Nat.sub_add_cancel (by omega), Nat.mul_assoc]
    omega
  · rw [htwo] at hlow htie
    have hlower : (4 * m - 2) * unit + 2 * unit = 4 * (m * unit) := by
      rw [← Nat.add_mul, Nat.sub_add_cancel (by omega), Nat.mul_assoc]
    omega

/-- A fraction of a double has the bits of the double. -/
theorem Within.bits {n d m e : Nat} (hd : 0 < d) (hdigits : Digits m e) (h : Within n d m e) :
    ∃ f, AtPlace n d f ∧ bitsAt n d f = min (e * 2 ^ 52 + m) (2047 * 2 ^ 52) := by
  have hnear := h.near hdigits
  obtain ⟨hm, hlt, hfull⟩ := hdigits
  have hpos : 0 < d * 2 ^ e := Nat.mul_pos hd (Nat.two_pow_pos e)
  obtain ⟨hlow, hhigh, -⟩ := h
  by_cases hplace : e = 0 ∨ 2 ^ 52 * (d * 2 ^ e) ≤ n
  · refine ⟨e, ⟨?_, hplace⟩, ?_⟩
    · have hle : (4 * m + 2) * (d * 2 ^ e) ≤ (4 * 2 ^ 53 - 2) * (d * 2 ^ e) :=
        Nat.mul_le_mul_right _ (by omega)
      omega
    · rw [bitsAt, hnear.round_eq hpos]
  · -- just below a power of two the place is one lower, and the digits round up to it
    rw [not_or] at hplace
    obtain ⟨hne, hless⟩ := hplace
    have hge := hfull.resolve_left hne
    have htop : m = 2 ^ 52 := by
      by_contra hmore
      have hle : (4 * 2 ^ 52 + 2) * (d * 2 ^ e) ≤ (4 * m - gapBelow m e) * (d * 2 ^ e) := by
        have hle := gapBelow_le m e
        exact Nat.mul_le_mul_right _ (by omega)
      omega
    have hgap : gapBelow m e = 1 := if_pos ⟨htop, hne⟩
    rw [hgap, htop] at hlow
    obtain ⟨f, rfl⟩ : ∃ f, e = f + 1 := ⟨e - 1, by omega⟩
    have hhalf : d * 2 ^ (f + 1) = 2 * (d * 2 ^ f) := by ring
    rw [hhalf] at hlow hless
    have hposf : 0 < d * 2 ^ f := Nat.mul_pos hd (Nat.two_pow_pos f)
    have hup : Near n (d * 2 ^ f) (2 ^ 53) :=
      ⟨by omega, by omega, fun _ => by norm_num, fun _ => by norm_num⟩
    refine ⟨f, ⟨by omega, .inr (by omega)⟩, ?_⟩
    have hcarry : f * 2 ^ 52 + 2 ^ 53 = (f + 1) * 2 ^ 52 + 2 ^ 52 := by ring
    rw [bitsAt, hup.round_eq hposf, htop, hcarry]

/-- Every fraction with the bits of a double is one of its fractions. -/
theorem Within.of_bits {n d m e f : Nat} (hd : 0 < d) (hdigits : Digits m e)
    (hplace : AtPlace n d f)
    (hbits : f * 2 ^ 52 + roundHalfEven n (d * 2 ^ f) = e * 2 ^ 52 + m) : Within n d m e := by
  have hmost := hplace.round_le hd
  have hleast : f = 0 ∨ 2 ^ 52 ≤ roundHalfEven n (d * 2 ^ f) := by
    by_cases hf : f = 0
    · exact .inl hf
    · exact .inr (hplace.le_round hd hf)
  have hnear := near_roundHalfEven (Nat.mul_pos hd (Nat.two_pow_pos f)) n
  have hpos : 0 < d * 2 ^ f := Nat.mul_pos hd (Nat.two_pow_pos f)
  obtain ⟨hm, hless, hfull⟩ := hdigits
  generalize roundHalfEven n (d * 2 ^ f) = r at *
  rcases Nat.lt_or_eq_of_le hmost with hr | hr
  · obtain ⟨rfl, rfl⟩ : f = e ∧ r = m := by omega
    obtain ⟨-, hlow⟩ := hplace
    obtain ⟨hhigh, hhigh', htie, htie'⟩ := hnear
    unfold Within
    generalize d * 2 ^ f = unit at *
    have hupper : (4 * r + 2) * unit = 4 * (r * unit) + 2 * unit := by ring
    by_cases hgap : r = 2 ^ 52 ∧ f ≠ 0
    · rw [show gapBelow r f = 1 from if_pos hgap]
      obtain ⟨rfl, hf⟩ := hgap
      exact ⟨by omega, by omega, .inl (by norm_num)⟩
    · have hlower : (4 * r - 2) * unit + 2 * unit = 4 * (r * unit) := by
        rw [← Nat.add_mul, Nat.sub_add_cancel (by omega), Nat.mul_assoc]
      rw [show gapBelow r f = 2 from if_neg hgap]
      omega
  · -- the digits carried over to the lowest ones of the next place
    obtain ⟨rfl, rfl⟩ : e = f + 1 ∧ m = 2 ^ 52 := by omega
    have hhalf : d * 2 ^ (f + 1) = 2 * (d * 2 ^ f) := by ring
    obtain ⟨hless, -⟩ := hplace
    obtain ⟨hhigh, hhigh', -, -⟩ := hnear
    unfold Within
    rw [hr] at hhigh hhigh'
    rw [show gapBelow (2 ^ 52) (f + 1) = 1 from if_pos ⟨rfl, Nat.succ_ne_zero f⟩, hhalf]
    generalize d * 2 ^ f = unit at *
    exact ⟨by omega, by omega, .inl (by norm_num)⟩

theorem within_self {m e d : Nat} (hd : 0 < d) (hdigits : Digits m e) :
    Within (m * 2 ^ e * d) d m e := by
  obtain ⟨hm, -, -⟩ := hdigits
  have hpos : 0 < d * 2 ^ e := Nat.mul_pos hd (Nat.two_pow_pos e)
  have hvalue : 4 * (m * 2 ^ e * d) = 4 * m * (d * 2 ^ e) := by ring
  have hgap := gapBelow_pos m e
  have hlow : (4 * m - gapBelow m e) * (d * 2 ^ e) < 4 * m * (d * 2 ^ e) :=
    Nat.mul_lt_mul_of_pos_right (by omega) hpos
  have hhigh : 4 * m * (d * 2 ^ e) < (4 * m + 2) * (d * 2 ^ e) :=
    Nat.mul_lt_mul_of_pos_right (by omega) hpos
  unfold Within
  omega

/-- The nearest double to a fraction of a double is the double. -/
theorem Within.nearestBits_eq {num den m e : Nat} (hd : 0 < den) (hdigits : Digits m e)
    (h : Within (num * grain) den m e) :
    nearestBits num den = min (e * 2 ^ 52 + m) (2047 * 2 ^ 52) := by
  have hn : 0 < num := Nat.pos_of_mul_pos_right (h.pos hdigits.1 hd)
  obtain ⟨f, hplace, hbits⟩ := h.bits hd hdigits
  rw [Lookalike.Decimal.nearestBits_eq hn hd hplace, hbits]

theorem nearestBits_two_pow {k : Nat} (hk : k ≤ 1023) :
    nearestBits (2 ^ k) 1 = (1023 + k) * 2 ^ 52 := by
  have hdigits : Digits (2 ^ 52) (1022 + k) := ⟨by decide, by decide, .inr (Nat.le_refl _)⟩
  have hvalue : 2 ^ k * grain = 2 ^ 52 * 2 ^ (1022 + k) * 1 := by
    rw [grain, Nat.mul_one, ← pow_add, ← pow_add, show k + 1074 = 52 + (1022 + k) by omega]
  have hwithin : Within (2 ^ k * grain) 1 (2 ^ 52) (1022 + k) := by
    rw [hvalue]
    exact within_self Nat.one_pos hdigits
  rw [hwithin.nearestBits_eq Nat.one_pos hdigits]
  omega

end Lookalike.Decimal
