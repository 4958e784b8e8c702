-- The laws of written numbers: the digits of a number are digits, without a
-- needless zero in front, and stand for the number.
import Lookalike.Json.Number
import Lookalike.Proofs.JsonText

namespace Lookalike.Decimal

open Json (AllDigits Plain)

/-! ## Digits -/

theorem allDigits_digits (n : Nat) : AllDigits (digits n) := by
  intro c hc
  have h : c.isDigit = true := Nat.isDigit_of_mem_toDigits (by decide) (by decide) hc
  rw [Char.isDigit, Bool.and_eq_true, decide_eq_true_iff, decide_eq_true_iff] at h
  exact Json.isDigit_iff.mpr h

theorem digits_ne_nil (n : Nat) : digits n ≠ [] := Nat.toDigits_ne_nil

theorem ofDigits_digits (n : Nat) : ofDigits (digits n) = n := by
  have h := Nat.ofDigitChars_ten_toDigits (n := n)
  rw [Nat.ofDigitChars_eq_foldl] at h
  have hstep : (fun (n : Nat) (c : Char) => n * 10 + (c.toNat - 48)) =
      fun sofar c => 10 * sofar + (c.toNat - '0'.toNat) := by
    funext n c
    rw [Nat.mul_comm]
    rfl
  rw [ofDigits, digits, hstep]
  exact h

theorem toString_inj {a b : Nat} : toString a = toString b ↔ a = b := by
  refine ⟨fun h => ?_, fun h => by rw [h]⟩
  have hdigits : digits a = digits b := String.ofList_injective h
  rw [← ofDigits_digits a, hdigits, ofDigits_digits]

theorem head_digits {n : Nat} (h : n ≠ 0) : (digits n).head? ≠ some '0' := by
  induction n using Nat.strongRecOn with
  | _ n ih =>
    by_cases hsmall : n < 10
    · have hall : ∀ n < 10, n ≠ 0 → (digits n).head? ≠ some '0' := by decide
      exact hall n hsmall h
    · have hsplit : digits n = digits (n / 10) ++ [Nat.digitChar (n % 10)] :=
        Nat.toDigits_of_base_le (by decide) (by omega)
      obtain ⟨d, ds, hd⟩ := List.exists_cons_of_ne_nil (digits_ne_nil (n / 10))
      have hhead := ih (n / 10) (by omega) (by omega)
      rw [hd] at hhead
      rw [hsplit, hd]
      exact hhead

theorem plain_ofNat (n : Nat) : Plain (Numeral.ofNat n) := by
  refine ⟨digits_ne_nil n, allDigits_digits n, ?_, fun _ h => absurd h List.not_mem_nil,
    fun _ h => absurd h (by simp [Numeral.ofNat])⟩
  by_cases h : n = 0
  · exact .inl (by rw [h]; rfl)
  · exact .inr (head_digits h)

theorem wholeNumber?_ofNat {limit n : Nat} (h : n ≤ limit) :
    Json.wholeNumber? limit (Numeral.ofNat n) = some n := by
  simp [Json.wholeNumber?, Numeral.ofNat, ofDigits_digits, h]

/-! ## Numerals of doubles -/

theorem allDigits_append {as bs : List Char} (ha : AllDigits as) (hb : AllDigits bs) :
    AllDigits (as ++ bs) := by
  intro c hc
  rcases List.mem_append.mp hc with hc | hc
  · exact ha c hc
  · exact hb c hc

theorem allDigits_replicate_zero (n : Nat) : AllDigits (List.replicate n '0') := by
  intro c hc
  rw [List.eq_of_mem_replicate hc]
  rfl

theorem allDigits_zero : AllDigits ['0'] := allDigits_replicate_zero 1

/-- Digits in front of a number that is not zero make a whole part without a needless zero. -/
theorem lead_take {n k : Nat} (h : n ≠ 0) (hk : 0 < k) :
    (digits n).take k ≠ [] ∧ ((digits n).take k).head? ≠ some '0' := by
  obtain ⟨c, cs, hc⟩ := List.exists_cons_of_ne_nil (digits_ne_nil n)
  obtain ⟨k, rfl⟩ := Nat.exists_eq_succ_of_ne_zero (Nat.pos_iff_ne_zero.mp hk)
  have hhead := head_digits h
  rw [hc] at hhead ⊢
  exact ⟨List.cons_ne_nil _ _, hhead⟩

theorem allDigits_take (n k : Nat) : AllDigits ((digits n).take k) :=
  fun c hc => allDigits_digits n c (List.mem_of_mem_take hc)

theorem allDigits_drop (n k : Nat) : AllDigits ((digits n).drop k) :=
  fun c hc => allDigits_digits n c (List.mem_of_mem_drop hc)

theorem plain_saved (negative : Bool) (d : Nat) (p : Int) :
    Plain (Layout.saved.numeral negative d p) := by
  unfold Layout.numeral
  simp only [show Layout.saved.keepsPoint = true from rfl, if_true]
  split_ifs with hzero hpositional hwhole hfirst
  · exact ⟨by simp, allDigits_zero, .inl rfl, allDigits_zero, by simp⟩
  · obtain ⟨hne, hlead⟩ := lead_take hzero (List.length_pos_of_ne_nil (digits_ne_nil d))
    rw [List.take_length] at hne hlead
    refine ⟨by simp [hne], allDigits_append (allDigits_digits d) (allDigits_replicate_zero _),
      .inr ?_, allDigits_zero, by simp⟩
    rwa [List.head?_append_of_ne_nil _ hne]
  · obtain ⟨hne, hlead⟩ := lead_take (k := (p + (digits d).length - 1 + 1).toNat) hzero (by omega)
    exact ⟨hne, allDigits_take d _, .inr hlead, allDigits_drop d _, by simp⟩
  · exact ⟨by simp, allDigits_zero, .inl rfl,
      allDigits_append (allDigits_replicate_zero _) (allDigits_digits d), by simp⟩
  · obtain ⟨hne, hlead⟩ := lead_take (k := 1) hzero (by omega)
    refine ⟨hne, allDigits_take d 1, .inr hlead, allDigits_drop d 1, ?_⟩
    intro e he
    obtain rfl := Option.some.inj he
    exact ⟨digits_ne_nil _, allDigits_digits _⟩

theorem plain_numeral? {x : Float} {n : Numeral} (h : Layout.saved.numeral? x = some n) :
    Plain n := by
  unfold Layout.numeral? at h
  split at h
  · obtain rfl := Option.some.inj h
    exact plain_saved _ _ _
  · cases h

end Lookalike.Decimal
