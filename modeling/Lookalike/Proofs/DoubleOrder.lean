-- The order of doubles. Whatever is a number has its place in one line, by sign,
-- exponent and digits; what is not a number stands in no order with anything.
import Mathlib.Data.Prod.Lex
import Lookalike.Query
import Lookalike.Proofs.Doubles

open Float.Model Float.Model.UnpackedFloat

namespace Lookalike.Decimal

/-! ## Places in line -/

/-- The place of a number: the negative ones come back to front, and both zeros share one place. -/
def standing : UnpackedFloat → ℤ ×ₗ ℤ ×ₗ ℤ
  | .infinity .negative => toLex (-2, toLex (0, 0))
  | .finite .negative m e _ => toLex (-1, toLex (-e, -m))
  | .zero _ => toLex (0, toLex (0, 0))
  | .finite .positive m e _ => toLex (1, toLex (e, m))
  | .infinity .positive => toLex (2, toLex (0, 0))
  | .notANumber => toLex (0, toLex (0, 0))

theorem compare_signs :
    compare Sign.negative Sign.positive = .lt ∧ compare Sign.positive Sign.negative = .gt ∧
      ∀ s : Sign, compare s s = .eq :=
  ⟨rfl, rfl, fun s => by cases s <;> rfl⟩

/-- Digits are compared behind the exponent. -/
theorem digits_lt_iff {m n : Nat} {e f : Int} :
    (compare e f).then (compare m n) = .lt ↔ e < f ∨ e = f ∧ m < n := by
  rw [Ordering.then_eq_lt, Int.compare_eq_lt, Int.compare_eq_eq, Nat.compare_eq_lt]

theorem digits_gt_iff {m n : Nat} {e f : Int} :
    (compare e f).then (compare m n) = .gt ↔ f < e ∨ e = f ∧ n < m := by
  rw [Ordering.then_eq_gt, Int.compare_eq_gt, Int.compare_eq_eq, Nat.compare_eq_gt]

/-- Of two numbers the lower one stands first. -/
theorem compare_lt_iff {u v : UnpackedFloat} (hu : u ≠ .notANumber) (hv : v ≠ .notANumber) :
    u.compare v = some .lt ↔ standing u < standing v := by
  rcases u with (_ | _) | _ | _ | ⟨(_ | _), m, e, hm⟩ <;>
    rcases v with (_ | _) | _ | _ | ⟨(_ | _), n, f, hn⟩ <;>
      try contradiction
  all_goals
    dsimp only [UnpackedFloat.compare, standing]
    simp [Prod.Lex.toLex_lt_toLex, compare_signs, digits_lt_iff, digits_gt_iff]

/-- Numbers are always compared, either way with the opposite outcome. -/
theorem compare_swap {u v : UnpackedFloat} (hu : u ≠ .notANumber) (hv : v ≠ .notANumber) :
    ∃ o, u.compare v = some o ∧ v.compare u = some o.swap := by
  rcases u with (_ | _) | _ | _ | ⟨(_ | _), m, e, hm⟩ <;>
    rcases v with (_ | _) | _ | _ | ⟨(_ | _), n, f, hn⟩ <;>
      try contradiction
  all_goals
    dsimp only [UnpackedFloat.compare]
    simp [compare_signs, Ordering.swap_then, ← Std.OrientedOrd.eq_swap]

/-! ## Numbers in order -/

/-- A double that is a number. -/
def IsNumber (x : Float) : Prop := x.toModel.unpack ≠ .notANumber

/-- The place of a double in line. -/
def place (x : Float) : ℤ ×ₗ ℤ ×ₗ ℤ := standing x.toModel.unpack

section

variable {x y z : Float}

theorem lt_iff_place (hx : IsNumber x) (hy : IsNumber y) : x < y ↔ place x < place y := by
  rw [lt_iff_compare, compare_lt_iff hx hy, place, place]

theorem le_iff_place (hx : IsNumber x) (hy : IsNumber y) : x ≤ y ↔ place x ≤ place y := by
  obtain ⟨o, hxy, hyx⟩ := compare_swap hx hy
  have hlt : o.swap = .lt ↔ place y < place x := by
    rw [place, place, ← compare_lt_iff hy hx, hyx, Option.some.injEq]
  rw [le_iff_compare, hxy, ← not_lt, ← hlt]
  cases o <;> simp

theorem isNumber_of_le (h : x ≤ y) : IsNumber x ∧ IsNumber y := by
  obtain ⟨o, ho, -⟩ := (le_iff_compare x y).mp h
  constructor
  · intro hx
    rw [hx] at ho
    cases ho
  · intro hy
    rw [hy] at ho
    cases hu : x.toModel.unpack <;> rw [hu] at ho <;> cases ho

theorem le_refl_of_isNumber (h : IsNumber x) : x ≤ x := (le_iff_place h h).mpr le_rfl

theorem le_trans_of_le (hxy : x ≤ y) (hyz : y ≤ z) : x ≤ z := by
  obtain ⟨hx, hy⟩ := isNumber_of_le hxy
  obtain ⟨-, hz⟩ := isNumber_of_le hyz
  exact (le_iff_place hx hz).mpr
    (((le_iff_place hx hy).mp hxy).trans ((le_iff_place hy hz).mp hyz))

/-- The larger of two numbers is one of them and not below either. -/
theorem larger_spec (hx : IsNumber x) (hy : IsNumber y) :
    x ≤ larger x y ∧ y ≤ larger x y ∧ (larger x y = x ∨ larger x y = y) := by
  unfold larger
  split_ifs with hlt
  · have hplace := (lt_iff_place hx hy).mp hlt
    exact ⟨(le_iff_place hx hy).mpr hplace.le, le_refl_of_isNumber hy, .inr rfl⟩
  · have hplace := not_lt.mp (mt (lt_iff_place hx hy).mpr hlt)
    exact ⟨le_refl_of_isNumber hx, (le_iff_place hy hx).mpr hplace, .inl rfl⟩

end

/-! ## The order of the bits -/

theorem orderKey_eq_iff {x y : Float} : orderKey x = orderKey y ↔ x.toBits = y.toBits := by
  refine ⟨fun h => UInt64.toNat_inj.mp ?_, fun h => by rw [orderKey, h, orderKey]⟩
  have hx := x.toBits.toNat_lt
  have hy := y.toBits.toNat_lt
  unfold orderKey at h
  dsimp only at h
  split_ifs at h <;> omega

end Lookalike.Decimal
