-- The laws of JSON texts on one line: they have no control characters, so no
-- line feed, they are read back, and an object that was cut short is not read.
import Lookalike.Proofs.JsonText

namespace Lookalike.Json

open Decimal (Numeral Exponent isDigit spanDigits)

/-! ## Reading back -/

theorem blank_nil : Blank [] := fun _ h => absurd h List.not_mem_nil

mutual

theorem writes_compact : ∀ j : Json, AllPlain j → Writes j (compact j)
  | .null, _ => .null
  | .bool true, _ => .yes
  | .bool false, _ => .no
  | .num _, h => .num h
  | .str t, _ => .str t
  | .arr [], _ => .noItems
  | .arr (j :: items), h => by
    have hitems := writes_compactItems (j :: items) h (List.cons_ne_nil j items)
    simpa [compact] using Writes.arr hitems
  | .obj [], _ => .noMembers
  | .obj (m :: members), h => by
    have hmembers := writes_compactMembers (m :: members) h (List.cons_ne_nil m members)
    simpa [compact] using Writes.obj hmembers

theorem writes_compactItems : ∀ items : List Json, AllPlainItems items → items ≠ [] →
    WritesItems items (compactItems items)
  | [], _, hne => absurd rfl hne
  | [j], h, _ => by
    simpa [compactItems] using WritesItems.last blank_nil (writes_compact j h.1) blank_nil
  | j :: i :: items, h, _ => by
    have hitems := writes_compactItems (i :: items) h.2 (List.cons_ne_nil i items)
    simpa [compactItems] using WritesItems.more blank_nil (writes_compact j h.1) hitems

theorem writes_compactMembers : ∀ members : List (Option String × Json),
    AllPlainMembers members → members ≠ [] → WritesMembers members (compactMembers members)
  | [], _, hne => absurd rfl hne
  | [(k, j)], h, _ => by
    simpa [compactMembers] using
      WritesMembers.last (k := k) blank_nil blank_nil (writes_compact j h.1) blank_nil
  | (k, j) :: m :: members, h, _ => by
    have hmembers := writes_compactMembers (m :: members) h.2 (List.cons_ne_nil m members)
    simpa [compactMembers] using
      WritesMembers.more (k := k) blank_nil blank_nil (writes_compact j h.1) hmembers

end

/-- A value with plain numbers is read back from its text on one line. -/
theorem read?_compact {j : Json} (h : AllPlain j) : read? j.compact = some j :=
  read?_of_writes (writes_compact j h)

/-! ## No control characters -/

/-- No character of a text is a control. -/
def Printed (cs : List Char) : Prop := ∀ c ∈ cs, 0x20 ≤ c.toNat

instance (cs : List Char) : Decidable (Printed cs) := List.decidableBAll _ cs

theorem printed_append {as bs : List Char} : Printed (as ++ bs) ↔ Printed as ∧ Printed bs := by
  unfold Printed
  simp only [List.mem_append, or_imp, forall_and]

theorem printed_cons {c : Char} {cs : List Char} :
    Printed (c :: cs) ↔ 0x20 ≤ c.toNat ∧ Printed cs := by
  unfold Printed
  simp only [List.mem_cons, forall_eq_or_imp]

theorem printed_nil : Printed [] := fun _ h => absurd h List.not_mem_nil

theorem printed_escapeDigit {n : Nat} (h : n < 16) : 0x20 ≤ (escapeDigit n).toNat := by
  have hall : ∀ n < 16, 0x20 ≤ (escapeDigit n).toNat := by decide
  exact hall n h

theorem printed_writeChar (c : Char) : Printed (writeChar c) := by
  unfold writeChar
  split_ifs with h1 h2 h3 h4 h5 h6 h7 h8
  all_goals try decide
  · have hhigh := printed_escapeDigit (n := c.toNat / 16) (by omega)
    have hlow := printed_escapeDigit (n := c.toNat % 16) (by omega)
    simp only [printed_cons, hhigh, hlow, printed_nil, and_true]
    decide
  · exact printed_cons.mpr ⟨Nat.not_lt.mp h8, printed_nil⟩

theorem printed_writeText (t : Option String) : Printed (writeText t) := by
  cases t with
  | none => decide
  | some s =>
    intro c hc
    unfold writeText writeString at hc
    simp only [List.mem_append, List.mem_singleton, List.mem_flatMap] at hc
    rcases hc with (rfl | ⟨d, -, hc⟩) | rfl
    · decide
    · exact printed_writeChar d c hc
    · decide

theorem printed_digits {ds : List Char} (h : AllDigits ds) : Printed ds := by
  intro c hc
  have hd := (isDigit_iff.mp (h c hc)).1
  omega

theorem printed_toChars {n : Numeral} (h : Plain n) : Printed n.toChars := by
  rw [toChars_eq]
  simp only [printed_append]
  refine ⟨⟨⟨?_, printed_digits h.whole_digits⟩, ?_⟩, ?_⟩
  · cases n.negative <;> decide
  · unfold fractionChars
    split_ifs
    · exact printed_nil
    · exact printed_cons.mpr ⟨by decide, printed_digits h.fraction_digits⟩
  · cases he : n.exponent with
    | none => exact printed_nil
    | some e =>
      have hdigits := printed_digits (h.power_digits e he).2
      simp only [powerChars, List.cons_append, printed_cons, printed_append]
      refine ⟨by decide, ?_, hdigits⟩
      cases e.negative <;> decide

mutual

theorem printed_compact : ∀ j : Json, AllPlain j → Printed (compact j)
  | .null, _ => by decide
  | .bool true, _ => by decide
  | .bool false, _ => by decide
  | .num _, h => printed_toChars h
  | .str t, _ => printed_writeText t
  | .arr items, h => by
    simp only [compact, printed_append, printed_cons, printed_nil, and_true]
    exact ⟨⟨by decide, printed_compactItems items h⟩, by decide⟩
  | .obj members, h => by
    simp only [compact, printed_append, printed_cons, printed_nil, and_true]
    exact ⟨⟨by decide, printed_compactMembers members h⟩, by decide⟩

theorem printed_compactItems : ∀ items : List Json, AllPlainItems items →
    Printed (compactItems items)
  | [], _ => printed_nil
  | [j], h => printed_compact j h.1
  | j :: i :: items, h => by
    simp only [compactItems, printed_append, printed_cons, printed_nil, and_true]
    exact ⟨⟨printed_compact j h.1, by decide⟩, printed_compactItems (i :: items) h.2⟩

theorem printed_compactMembers : ∀ members : List (Option String × Json),
    AllPlainMembers members → Printed (compactMembers members)
  | [], _ => printed_nil
  | [(k, j)], h => by
    simp only [compactMembers, printed_append, printed_cons, printed_nil, and_true]
    exact ⟨⟨printed_writeText k, by decide⟩, printed_compact j h.1⟩
  | (k, j) :: m :: members, h => by
    simp only [compactMembers, printed_append, printed_cons, printed_nil, and_true]
    exact ⟨⟨⟨⟨printed_writeText k, by decide⟩, printed_compact j h.1⟩, by decide⟩,
      printed_compactMembers (m :: members) h.2⟩

end

end Lookalike.Json
