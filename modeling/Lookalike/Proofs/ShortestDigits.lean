-- The laws of the fewest digits: the decimal that is written for a double lies
-- among the numbers that round to it, whatever its length, and no coarser grid
-- has one of them.
import Mathlib.Tactic.Linarith
import Mathlib.Tactic.Ring
import Lookalike.Decimal.Shortest
import Lookalike.Proofs.Quotients

namespace Lookalike.Decimal

/-! ## Decimals -/

/-- The bits of the double nearest to `d * 10 ^ p`. -/
def decimalBits (d : Nat) (p : Int) : Nat := nearestBits (d * 10 ^ p.toNat) (10 ^ (-p).toNat)

theorem ten_pow_pos (n : Nat) : 0 < 10 ^ n := Nat.pow_pos (by decide)

theorem decimalBits_zero (p : Int) : decimalBits 0 p = 0 := by
  unfold decimalBits nearestBits
  rw [Nat.zero_mul, if_pos rfl]

theorem decimalBits_neg (d k : Nat) : decimalBits d (-k) = nearestBits d (10 ^ k) := by
  have hnone : (-(k : Int)).toNat = 0 := by omega
  have hplaces : (-(-(k : Int))).toNat = k := by omega
  unfold decimalBits
  rw [hnone, hplaces, pow_zero, Nat.mul_one]

theorem decimalBits_zero_dropped (d : Nat) (p : Int) :
    decimalBits d (p + 1) = decimalBits (d * 10) p := by
  apply nearestBits_congr (ten_pow_pos _) (ten_pow_pos _)
  by_cases hp : 0 ≤ p
  · have hnext : (p + 1).toNat = p.toNat + 1 := by omega
    have hnone : (-(p + 1)).toNat = 0 := by omega
    have hnone' : (-p).toNat = 0 := by omega
    rw [hnext, hnone, hnone']
    ring
  · have hnext : (-p).toNat = (-(p + 1)).toNat + 1 := by omega
    have hnone : (p + 1).toNat = 0 := by omega
    have hnone' : p.toNat = 0 := by omega
    rw [hnext, hnone, hnone']
    ring

theorem dropZeros_spec (fuel d : Nat) (p : Int) (hd : 0 < d) :
    decimalBits (dropZeros fuel d p).1 (dropZeros fuel d p).2 = decimalBits d p ∧
      (dropZeros fuel d p).1 ≤ d ∧ p ≤ (dropZeros fuel d p).2 := by
  induction fuel generalizing d p with
  | zero => exact ⟨rfl, Nat.le_refl _, le_refl _⟩
  | succ fuel ih =>
    unfold dropZeros
    split_ifs with h
    · obtain ⟨hvalue, hle, hp⟩ := ih (d / 10) (p + 1) (by omega)
      refine ⟨?_, by omega, by omega⟩
      rw [hvalue, decimalBits_zero_dropped, Nat.div_mul_cancel (Nat.dvd_of_mod_eq_zero h.1)]
    · exact ⟨rfl, Nat.le_refl _, le_refl _⟩

theorem decimal_le_one {d : Nat} {p : Int} (hd : 0 < d) (h : decimalBits d p ≤ oneBits) :
    p < 0 ∨ d = 1 ∧ p = 0 := by
  by_contra hnot
  have htwo : nearestBits 2 1 = 1024 * 2 ^ 52 := nearestBits_two_pow (k := 1) (by decide)
  have hge : nearestBits 2 1 ≤ decimalBits d p := by
    apply nearestBits_mono Nat.one_pos (ten_pow_pos _)
    rw [show (-p).toNat = 0 by omega, pow_zero, Nat.mul_one, Nat.mul_one]
    by_cases hp : p = 0
    · rw [hp]
      show 2 ≤ d * 1
      omega
    · have hten : 10 ^ 1 ≤ 10 ^ p.toNat := Nat.pow_le_pow_right (by decide) (by omega)
      nlinarith
  rw [htwo] at hge
  unfold oneBits at h
  omega

/-! ## The interval of a double -/

theorem Span.of_place {m e : Nat} (he : e ≤ 1074) :
    Span.of m ((e : Int) - 1074) =
      ⟨4 * m, 4 * m - gapBelow m e, 4 * m + 2, 2 ^ (1076 - e), m % 2 = 0⟩ := by
  have hgap : (if m = 2 ^ 52 ∧ (e : Int) - 1074 ≠ -1074 then 1 else 2) = gapBelow m e := by
    unfold gapBelow
    exact if_congr (by omega) rfl rfl
  have hnone : ((e : Int) - 1074 - 2).toNat = 0 := by omega
  have hplaces : (2 - ((e : Int) - 1074)).toNat = 1076 - e := by omega
  unfold Span.of
  dsimp only
  rw [hgap, hnone, hplaces, pow_zero, Nat.mul_one, Nat.mul_one, Nat.mul_one]

theorem two_pow_place {e : Nat} (he : e ≤ 1074) : 2 ^ (1076 - e) * 2 ^ e = 4 * grain := by
  calc 2 ^ (1076 - e) * 2 ^ e = 2 ^ (2 + 1074) := by
        rw [← pow_add, show 1076 - e + e = 2 + 1074 by omega]
    _ = 2 ^ 2 * grain := by rw [pow_add, grain]
    _ = 4 * grain := by norm_num

/-- A decimal lies among the fractions of a double when it lies in the interval. -/
theorem Span.holds_iff {m e d : Nat} {p : Int} (he : e ≤ 1074) :
    ((Span.of m ((e : Int) - 1074)).inUnits p).holds d = true ↔
      Within (d * 10 ^ p.toNat * grain) (10 ^ (-p).toNat) m e := by
  have hscale := two_pow_place he
  have hpos : 0 < 2 ^ e := Nat.two_pow_pos e
  rw [Span.of_place he]
  unfold Span.inUnits Span.holds Within
  dsimp only
  generalize 4 * m - gapBelow m e = low
  generalize 10 ^ (-p).toNat = up
  have hvalue : d * (2 ^ (1076 - e) * 10 ^ p.toNat) * 2 ^ e = 4 * (d * 10 ^ p.toNat * grain) := by
    calc d * (2 ^ (1076 - e) * 10 ^ p.toNat) * 2 ^ e
        = d * 10 ^ p.toNat * (2 ^ (1076 - e) * 2 ^ e) := by ring
      _ = d * 10 ^ p.toNat * (4 * grain) := by rw [hscale]
      _ = 4 * (d * 10 ^ p.toNat * grain) := by ring
  generalize d * (2 ^ (1076 - e) * 10 ^ p.toNat) = point at *
  generalize 4 * (d * 10 ^ p.toNat * grain) = units at *
  have hle (k : Nat) : k * up ≤ point ↔ k * (up * 2 ^ e) ≤ units := by
    rw [← hvalue, ← Nat.mul_assoc]
    exact (Nat.mul_le_mul_right_iff hpos).symm
  have hge (k : Nat) : point ≤ k * up ↔ units ≤ k * (up * 2 ^ e) := by
    rw [← hvalue, ← Nat.mul_assoc]
    exact (Nat.mul_le_mul_right_iff hpos).symm
  have hlow := hle low
  have hlow' := hge low
  have hhigh := hge (4 * m + 2)
  have hhigh' := hle (4 * m + 2)
  by_cases heven : m % 2 = 0
  · rw [if_pos (decide_eq_true heven), Bool.and_eq_true, decide_eq_true_iff, decide_eq_true_iff]
    omega
  · rw [if_neg (by simp [heven]), Bool.and_eq_true, decide_eq_true_iff, decide_eq_true_iff]
    omega

theorem Span.bits_of_holds {m e d : Nat} {p : Int} (hdigits : Digits m e) (he : e ≤ 1074)
    (h : ((Span.of m ((e : Int) - 1074)).inUnits p).holds d = true) :
    decimalBits d p = e * 2 ^ 52 + m := by
  unfold decimalBits
  rw [((Span.holds_iff he).mp h).nearestBits_eq (ten_pow_pos _) hdigits]
  obtain ⟨-, hless, -⟩ := hdigits
  omega

/-! ## Grids -/

/-- The interval has its value inside. -/
def Span.Proper (s : Span) : Prop := 0 < s.den ∧ s.low < s.value ∧ s.value < s.high

theorem Span.proper_of_place {m e : Nat} (hm : 0 < m) (he : e ≤ 1074) (p : Int) :
    ((Span.of m ((e : Int) - 1074)).inUnits p).Proper := by
  have hgap := gapBelow_pos m e
  rw [Span.of_place he]
  refine ⟨Nat.mul_pos (Nat.two_pow_pos _) (ten_pow_pos _), ?_, ?_⟩
  · exact Nat.mul_lt_mul_of_pos_right (show 4 * m - gapBelow m e < 4 * m by omega) (ten_pow_pos _)
  · exact Nat.mul_lt_mul_of_pos_right (show 4 * m < 4 * m + 2 by omega) (ten_pow_pos _)

theorem Span.whole?_holds {s : Span} {d : Nat} (h : s.whole? = some d) :
    s.holds d = true ∧ d ≤ s.value / s.den + 1 := by
  unfold Span.whole? at h
  dsimp only at h
  split_ifs at h with hboth hnear hbelow habove
  all_goals obtain rfl := Option.some.inj h
  · exact ⟨(Bool.and_eq_true _ _ ▸ hboth).1, Nat.le_succ _⟩
  · exact ⟨(Bool.and_eq_true _ _ ▸ hboth).2, Nat.le_refl _⟩
  · exact ⟨hbelow, Nat.le_succ _⟩
  · exact ⟨habove, Nat.le_refl _⟩

/-- When any point of a grid lies in the interval, one next to the value does. -/
theorem Span.whole?_of_holds {s : Span} {d : Nat} (hs : s.Proper) (h : s.holds d = true) :
    ∃ d', s.whole? = some d' := by
  obtain ⟨hden, hlow, hhigh⟩ := hs
  have hsplit := Nat.div_add_mod' s.value s.den
  have hmod := Nat.mod_lt s.value hden
  have hnext : s.holds (s.value / s.den) = true ∨ s.holds (s.value / s.den + 1) = true := by
    have hstep : (s.value / s.den + 1) * s.den = s.value / s.den * s.den + s.den := Nat.succ_mul _ _
    unfold Span.holds at h ⊢
    rcases Nat.lt_or_ge (s.value / s.den) d with hless | hge
    · have hmul : (s.value / s.den + 1) * s.den ≤ d * s.den := Nat.mul_le_mul_right _ hless
      right
      split_ifs at h ⊢
      all_goals
        rw [Bool.and_eq_true, decide_eq_true_iff, decide_eq_true_iff] at h ⊢
        omega
    · have hmul : d * s.den ≤ s.value / s.den * s.den := Nat.mul_le_mul_right _ hge
      left
      split_ifs at h ⊢
      all_goals
        rw [Bool.and_eq_true, decide_eq_true_iff, decide_eq_true_iff] at h ⊢
        omega
  unfold Span.whole?
  dsimp only
  split_ifs with hboth hnear hbelow habove
  · exact ⟨_, rfl⟩
  · exact ⟨_, rfl⟩
  · exact ⟨_, rfl⟩
  · exact ⟨_, rfl⟩
  · exact absurd (hnext.resolve_left hbelow) habove

/-- The search ends at the first grid with a point inside, or rounds on the last one. -/
theorem searchGrids_spec (s : Span) (place : Int) (fuel n : Nat) :
    ∃ i, n ≤ i ∧ i ≤ n + fuel ∧ (searchGrids s place fuel n).2 = place - i ∧
      (∀ j, n ≤ j → j < i → (s.inUnits (place - j)).whole? = none) ∧
      ((s.inUnits (place - i)).whole? = some (searchGrids s place fuel n).1 ∨
        i = n + fuel ∧ (searchGrids s place fuel n).1 =
          roundHalfEven (s.inUnits (place - i)).value (s.inUnits (place - i)).den) := by
  induction fuel generalizing n with
  | zero => exact ⟨n, Nat.le_refl _, Nat.le_refl _, rfl, fun j hj hj' => by omega, .inr ⟨rfl, rfl⟩⟩
  | succ fuel ih =>
    unfold searchGrids
    dsimp only
    cases hwhole : (s.inUnits (place - n)).whole? with
    | some d =>
      exact ⟨n, Nat.le_refl _, by omega, rfl, fun j hj hj' => by omega, .inl hwhole⟩
    | none =>
      obtain ⟨i, hle, hlast, hp, hnone, hfound⟩ := ih (n + 1)
      refine ⟨i, by omega, by omega, hp, ?_, ?_⟩
      · intro j hj hj'
        rcases Nat.eq_or_lt_of_le hj with rfl | hlt
        · exact hwhole
        · exact hnone j hlt hj'
      · rwa [show n + (fuel + 1) = n + 1 + fuel by omega]

/-! ## The first digit -/

/-- Powers of two and of ten by the decimal logarithm of two, over the range of doubles. -/
theorem ten_pow_guess : ∀ i < 1075,
    2 ^ i ≤ 10 ^ (((i + 1) * 30103 + 99999) / 100000) ∧
      10 ^ (((i + 1) * 30103 + 99999) / 100000) ≤ 50 * 2 ^ i := by
  decide +kernel

/-- The place of the first digit of a fraction that is not above one. -/
theorem decimalPlace_spec {n k : Nat} (hfour : 4 ≤ n) (hk : k ≤ 1076) (hone : n ≤ 2 ^ k) :
    ∃ g : Nat, decimalPlace n (2 ^ k) = -g ∧ 2 ^ k ≤ n * 10 ^ g ∧ n * 10 ^ g < 10 * 2 ^ k := by
  have hne : n ≠ 0 := by omega
  have hlow : 2 ^ n.log2 ≤ n := Nat.log2_self_le hne
  have hhigh : n < 2 ^ (n.log2 + 1) := Nat.lt_log2_self
  have htwo : 2 ≤ n.log2 := (Nat.le_log2 hne).mpr hfour
  obtain ⟨i, rfl⟩ : ∃ i, k = i + n.log2 := by
    have hle : n.log2 ≤ k := by
      by_contra hlt
      have hpow : 2 ^ (k + 1) ≤ 2 ^ n.log2 := Nat.pow_le_pow_right (by decide) (by omega)
      have hpos := Nat.two_pow_pos k
      rw [pow_succ] at hpow
      omega
    exact ⟨k - n.log2, by omega⟩
  obtain ⟨hten, hten'⟩ := ten_pow_guess i (by omega)
  have hguess : ((n.log2 : Int) - (2 ^ (i + n.log2)).log2 - 1) * 30103 / 100000 =
      -(((i + 1) * 30103 + 99999) / 100000 : Nat) := by
    rw [Nat.log2_two_pow]
    omega
  obtain ⟨g, hg⟩ : ∃ g, ((i + 1) * 30103 + 99999) / 100000 = g + 1 :=
    ⟨((i + 1) * 30103 + 99999) / 100000 - 1, by omega⟩
  rw [hg] at hten hten' hguess
  have hsplit : 2 ^ (i + n.log2) = 2 ^ i * 2 ^ n.log2 := pow_add _ _ _
  have hreach : 2 ^ (i + n.log2) ≤ n * 10 ^ (g + 1) := by
    rw [hsplit, Nat.mul_comm n]
    exact Nat.mul_le_mul hten hlow
  have hbound : n * 10 ^ (g + 1) < 100 * 2 ^ (i + n.log2) := by
    calc n * 10 ^ (g + 1) < 2 ^ (n.log2 + 1) * 10 ^ (g + 1) :=
          Nat.mul_lt_mul_of_pos_right hhigh (ten_pow_pos _)
      _ ≤ 2 ^ (n.log2 + 1) * (50 * 2 ^ i) := Nat.mul_le_mul_left _ hten'
      _ = 100 * 2 ^ (i + n.log2) := by rw [hsplit]; ring
  have hnext : n * 10 ^ (g + 1) = 10 * (n * 10 ^ g) := by ring
  unfold decimalPlace
  dsimp only
  rw [hguess]
  have hnone : (-((g + 1 : Nat) : Int) + 1).toNat = 0 := by omega
  have hplaces : (-(-((g + 1 : Nat) : Int) + 1)).toNat = g := by omega
  split_ifs with hreaches
  all_goals rw [decide_eq_true_iff, hnone, hplaces, pow_zero, Nat.mul_one] at hreaches
  · exact ⟨g, by omega, hreaches, by omega⟩
  · exact ⟨g + 1, rfl, hreach, by omega⟩

/-! ## The shortest decimal -/

theorem roundHalfEven_le_succ (n d : Nat) : roundHalfEven n d ≤ n / d + 1 := by
  unfold roundHalfEven
  dsimp only
  split_ifs <;> omega

section

variable {m e g : Nat} (hdigits : Digits m e) (he : e ≤ 1074)
  (hlow : 2 ^ (1076 - e) ≤ 4 * m * 10 ^ g) (hhigh : 4 * m * 10 ^ g < 10 * 2 ^ (1076 - e))

include he in
theorem Span.inUnits_eq (i : Nat) :
    (Span.of m ((e : Int) - 1074)).inUnits (-(g : Int) - i) =
      ⟨4 * m * 10 ^ (g + i), (4 * m - gapBelow m e) * 10 ^ (g + i), (4 * m + 2) * 10 ^ (g + i),
        2 ^ (1076 - e), m % 2 = 0⟩ := by
  have hnone : (-(g : Int) - i).toNat = 0 := by omega
  have hplaces : (-(-(g : Int) - i)).toNat = g + i := by omega
  rw [Span.of_place he]
  unfold Span.inUnits
  dsimp only
  rw [hnone, hplaces, pow_zero, Nat.mul_one]

include hhigh in
theorem digits_of_grid (i : Nat) : 4 * m * 10 ^ (g + i) / 2 ^ (1076 - e) + 1 ≤ 10 ^ (i + 1) := by
  apply Nat.succ_le_of_lt
  rw [Nat.div_lt_iff_lt_mul (Nat.two_pow_pos _)]
  calc 4 * m * 10 ^ (g + i) = 4 * m * 10 ^ g * 10 ^ i := by rw [pow_add]; ring
    _ < 10 * 2 ^ (1076 - e) * 10 ^ i := Nat.mul_lt_mul_of_pos_right hhigh (ten_pow_pos i)
    _ = 10 ^ (i + 1) * 2 ^ (1076 - e) := by ring

include hdigits he hlow in
/-- With eighteen digits the nearest point lies in the interval. -/
theorem Span.holds_rounded :
    ((Span.of m ((e : Int) - 1074)).inUnits (-(g : Int) - (17 : Nat))).holds
      (roundHalfEven (4 * m * 10 ^ (g + 17)) (2 ^ (1076 - e))) = true := by
  obtain ⟨hm, hless, -⟩ := hdigits
  have hgap := gapBelow_pos m e
  obtain ⟨hnear, hnear', -, -⟩ :=
    near_roundHalfEven (Nat.two_pow_pos (1076 - e)) (4 * m * 10 ^ (g + 17))
  have hsmall : 2 ^ (1076 - e) < 2 * 10 ^ (g + 17) := by
    calc 2 ^ (1076 - e) ≤ 4 * m * 10 ^ g := hlow
      _ < 2 * 10 ^ 17 * 10 ^ g := Nat.mul_lt_mul_of_pos_right (by omega) (ten_pow_pos g)
      _ = 2 * 10 ^ (g + 17) := by rw [pow_add]; ring
  have hbelow : (4 * m - gapBelow m e) * 10 ^ (g + 17) + 10 ^ (g + 17) ≤ 4 * m * 10 ^ (g + 17) := by
    rw [← Nat.succ_mul]
    exact Nat.mul_le_mul_right _ (by omega)
  have habove : (4 * m + 2) * 10 ^ (g + 17) = 4 * m * 10 ^ (g + 17) + 2 * 10 ^ (g + 17) :=
    Nat.add_mul _ _ _
  rw [Span.inUnits_eq he]
  unfold Span.holds
  dsimp only
  split_ifs
  all_goals
    rw [Bool.and_eq_true, decide_eq_true_iff, decide_eq_true_iff]
    omega

include hdigits he hlow hhigh in
/-- The search finds a point of the interval, on the first grid that has one. -/
theorem searchGrids_found :
    ∃ (d i : Nat),
      searchGrids (Span.of m ((e : Int) - 1074)) (-(g : Int)) 17 0 = (d, -(g : Int) - i) ∧
      ((Span.of m ((e : Int) - 1074)).inUnits (-(g : Int) - i)).holds d = true ∧
      d ≤ 10 ^ (i + 1) ∧ i ≤ 17 ∧
      ∀ d' j : Nat,
        ((Span.of m ((e : Int) - 1074)).inUnits (-(g : Int) - j)).holds d' = true → i ≤ j := by
  obtain ⟨i, -, hlast, hp, hnone, hfound⟩ :=
    searchGrids_spec (Span.of m ((e : Int) - 1074)) (-(g : Int)) 17 0
  generalize searchGrids (Span.of m ((e : Int) - 1074)) (-(g : Int)) 17 0 = found at *
  refine ⟨found.1, i, Prod.ext rfl hp, ?_⟩
  have hfirst : ∀ d' j : Nat,
      ((Span.of m ((e : Int) - 1074)).inUnits (-(g : Int) - j)).holds d' = true → i ≤ j := by
    intro d' j hholds
    by_contra hlt
    obtain ⟨d, hd⟩ := Span.whole?_of_holds (Span.proper_of_place hdigits.1 he _) hholds
    rw [hnone j (Nat.zero_le j) (Nat.lt_of_not_le hlt)] at hd
    cases hd
  have hgrid := digits_of_grid hhigh i
  rcases hfound with hfound | ⟨hi, hd⟩
  · obtain ⟨hholds, hle⟩ := Span.whole?_holds hfound
    refine ⟨hholds, ?_, by omega, hfirst⟩
    rw [Span.inUnits_eq he] at hle
    exact le_trans hle hgrid
  · rw [Span.inUnits_eq he] at hd
    rw [hd]
    refine ⟨?_, le_trans (roundHalfEven_le_succ _ _) hgrid, by omega, hfirst⟩
    obtain rfl : i = 17 := by omega
    exact Span.holds_rounded hdigits he hlow

end

/-- The first digit of a double is at most one place below its decimals. -/
theorem Within.first_digit {m e g d k : Nat} (hm : 0 < m) (he : e ≤ 1074)
    (hhigh : 4 * m * 10 ^ g < 10 * 2 ^ (1076 - e)) (h : Within (d * grain) (10 ^ k) m e) :
    g ≤ k + 1 := by
  by_contra hlt
  have hd : 0 < d := Nat.pos_of_mul_pos_right (h.pos hm (ten_pow_pos k))
  have hpow : 10 ^ (k + 2) ≤ 10 ^ g := Nat.pow_le_pow_right (by decide) (by omega)
  have hgrain : 4 * grain ≤ 6 * m * 10 ^ k * 2 ^ e := by
    calc 4 * grain ≤ 4 * (d * grain) := Nat.mul_le_mul_left _ (Nat.le_mul_of_pos_left _ hd)
      _ ≤ (4 * m + 2) * (10 ^ k * 2 ^ e) := h.2.1
      _ ≤ 6 * m * (10 ^ k * 2 ^ e) := Nat.mul_le_mul_right _ (by omega)
      _ = 6 * m * 10 ^ k * 2 ^ e := (Nat.mul_assoc _ _ _).symm
  rw [← two_pow_place he] at hgrain
  have hvalue := Nat.le_of_mul_le_mul_right hgrain (Nat.two_pow_pos e)
  have hdigit : 4 * m * 10 ^ (k + 2) < 10 * 2 ^ (1076 - e) :=
    lt_of_le_of_lt (Nat.mul_le_mul_left _ hpow) hhigh
  have hten : 4 * m * 10 ^ (k + 2) = 400 * (m * 10 ^ k) := by ring
  have hsix : 6 * m * 10 ^ k = 6 * (m * 10 ^ k) := Nat.mul_assoc _ _ _
  have hpos : 0 < m * 10 ^ k := Nat.mul_pos hm (ten_pow_pos k)
  omega

/-- What is written for a double that is not above one rounds to it and has eighteen digits at most,
and no point of the interval has fewer places by more than one. -/
theorem shortest_spec {m e : Nat} (hdigits : Digits m e) (he : e ≤ 1074)
    (hone : 4 * m ≤ 2 ^ (1076 - e)) :
    ∃ d p, shortest m ((e : Int) - 1074) = (d, p) ∧ decimalBits d p = e * 2 ^ 52 + m ∧ d ≤ 10 ^ 18 ∧
      ∀ d' k : Nat, Within (d' * grain) (10 ^ k) m e →
        -(k : Int) ≤ p ∨ d ≤ 10 ∧ -(k : Int) - 1 ≤ p := by
  have hm := hdigits.1
  obtain ⟨g, hplace, hlow, hhigh⟩ :=
    decimalPlace_spec (n := 4 * m) (k := 1076 - e) (by omega) (by omega) hone
  obtain ⟨d, i, hsearch, hholds, hle, hi, hfirst⟩ := searchGrids_found hdigits he hlow hhigh
  have hbits := Span.bits_of_holds hdigits he hholds
  have hd : 0 < d := by
    apply Nat.pos_of_ne_zero
    rintro rfl
    rw [decimalBits_zero] at hbits
    omega
  obtain ⟨hsame, hless, hp⟩ := dropZeros_spec 18 d (-(g : Int) - i) hd
  refine ⟨_, _, ?_, hsame.trans hbits, ?_, ?_⟩
  · have hvalue : (Span.of m ((e : Int) - 1074)).value = 4 * m := by rw [Span.of_place he]
    have hden : (Span.of m ((e : Int) - 1074)).den = 2 ^ (1076 - e) := by rw [Span.of_place he]
    unfold shortest
    dsimp only
    rw [hvalue, hden, hplace, hsearch]
  · have hten : 10 ^ (i + 1) ≤ 10 ^ 18 := Nat.pow_le_pow_right (by decide) (by omega)
    omega
  · intro d' k hwithin
    rcases Nat.lt_or_ge k g with hcoarse | hfine
    · -- the point is on the grid of the first digit too, so the search ends there
      right
      have hgrid : ((Span.of m ((e : Int) - 1074)).inUnits (-(g : Int) - (0 : Nat))).holds
          (d' * 10 ^ (g - k)) = true := by
        have hscaled := hwithin.scale (ten_pow_pos (g - k))
        rw [← pow_add, show k + (g - k) = g by omega, Nat.mul_right_comm] at hscaled
        rw [Span.holds_iff he]
        simpa using hscaled
      have hi := hfirst _ 0 hgrid
      obtain rfl : i = 0 := by omega
      have hnext := hwithin.first_digit hm he hhigh
      exact ⟨by omega, by omega⟩
    · left
      have hgrid : ((Span.of m ((e : Int) - 1074)).inUnits (-(g : Int) - (k - g : Nat))).holds d' =
          true := by
        rw [show -(g : Int) - (k - g : Nat) = -k by omega, Span.holds_iff he]
        simpa using hwithin
      have hi := hfirst d' (k - g) hgrid
      omega

end Lookalike.Decimal
