-- The laws of texts as bytes: the order of texts is the order of their bytes,
-- different texts have different bytes, only U+0000 is written with a zero
-- byte, and reading the bytes of a text gives the text.
import Mathlib.Data.String.Basic
import Mathlib.Tactic.IntervalCases
import Lookalike.Text.Utf8

namespace Lookalike.Text

/-! ## The bytes of a character -/

theorem toNat_lt (c : Char) : c.toNat < 0x110000 := by
  have hv : c.val.toNat < 0xd800 ∨ 0xdfff < c.val.toNat ∧ c.val.toNat < 0x110000 := c.valid
  change c.val.toNat < 0x110000
  omega

/-- One to four bytes, by the size of the character. -/
theorem encodeChar_bytes (c : Char) :
    (String.utf8EncodeChar c).map UInt8.toNat =
      if c.toNat < 0x80 then [c.toNat]
      else if c.toNat < 0x800 then [c.toNat / 64 + 0xC0, c.toNat % 64 + 0x80]
      else if c.toNat < 0x10000 then
        [c.toNat / 4096 + 0xE0, c.toNat / 64 % 64 + 0x80, c.toNat % 64 + 0x80]
      else
        [c.toNat / 262144 + 0xF0, c.toNat / 4096 % 64 + 0x80, c.toNat / 64 % 64 + 0x80,
          c.toNat % 64 + 0x80] := by
  have hc := toNat_lt c
  have hbyte {n : Nat} (h : n < 256) : (UInt8.ofNat n).toNat = n := UInt8.toNat_ofNat_of_lt' h
  unfold String.utf8EncodeChar
  change List.map _ (if c.toNat ≤ 0x7f then _ else if c.toNat ≤ 0x7ff then _
    else if c.toNat ≤ 0xffff then _ else _) = _
  change c.val.toNat < 0x110000 at hc
  simp only [Char.toNat]
  by_cases h1 : c.val.toNat < 0x80
  · rw [if_pos (by omega), if_pos h1]
    simp only [List.map_cons, List.map_nil, hbyte (show c.val.toNat < 256 by omega)]
  · rw [if_neg (by omega), if_neg h1]
    by_cases h2 : c.val.toNat < 0x800
    · rw [if_pos (by omega), if_pos h2]
      simp only [List.map_cons, List.map_nil]
      rw [hbyte (by omega), hbyte (by omega), Nat.mod_eq_of_lt (by omega)]
    · rw [if_neg (by omega), if_neg h2]
      by_cases h3 : c.val.toNat < 0x10000
      · rw [if_pos (by omega), if_pos h3]
        simp only [List.map_cons, List.map_nil]
        rw [hbyte (by omega), hbyte (by omega), hbyte (by omega),
          Nat.mod_eq_of_lt (a := _ / 4096) (by omega)]
      · rw [if_neg (by omega), if_neg h3]
        simp only [List.map_cons, List.map_nil]
        rw [hbyte (by omega), hbyte (by omega), hbyte (by omega), hbyte (by omega),
          Nat.mod_eq_of_lt (a := _ / 262144) (by omega)]

theorem encodeChar_eq {c : Char} {ns : List Nat}
    (h : (String.utf8EncodeChar c).map UInt8.toNat = ns) :
    String.utf8EncodeChar c = ns.map UInt8.ofNat := by
  rw [← h, List.map_map]
  exact (List.map_id'' (fun b => UInt8.ofNat_toNat) _).symm

/-! ## Order -/

theorem map_toNat_lt_iff {as bs : Bytes} :
    as.map UInt8.toNat < bs.map UInt8.toNat ↔ as < bs := by
  induction as generalizing bs with
  | nil => cases bs <;> simp
  | cons a as ih =>
    cases bs with
    | nil => simp
    | cons b bs =>
      rw [List.map_cons, List.map_cons, List.cons_lt_cons_iff, List.cons_lt_cons_iff, ih,
        UInt8.lt_iff_toNat_lt, UInt8.toNat_inj]

/-- A smaller character has smaller bytes, whatever follows. -/
theorem encodeChar_append_lt {c d : Char} (h : c < d) (xs ys : Bytes) :
    String.utf8EncodeChar c ++ xs < String.utf8EncodeChar d ++ ys := by
  have hcd : c.toNat < d.toNat := h
  have hd := toNat_lt d
  rw [← map_toNat_lt_iff, List.map_append, List.map_append, encodeChar_bytes, encodeChar_bytes]
  split_ifs <;> simp only [List.cons_append, List.cons_lt_cons_iff] <;> omega

theorem flatMap_encodeChar_lt {as bs : List Char} (h : as < bs) :
    as.flatMap String.utf8EncodeChar < bs.flatMap String.utf8EncodeChar := by
  induction as generalizing bs with
  | nil =>
    cases bs with
    | nil => exact absurd h (List.lt_irrefl [])
    | cons b bs =>
      obtain ⟨x, xs, hx⟩ := List.exists_cons_of_ne_nil (String.utf8EncodeChar_ne_nil (c := b))
      rw [List.flatMap_nil, List.flatMap_cons, hx]
      exact List.nil_lt_cons _ _
  | cons a as ih =>
    cases bs with
    | nil => exact absurd h (List.not_lt_nil _)
    | cons b bs =>
      rw [List.flatMap_cons, List.flatMap_cons]
      rcases List.cons_lt_cons_iff.mp h with hab | ⟨rfl, hrest⟩
      · exact encodeChar_append_lt hab _ _
      · exact List.append_left_lt (ih hrest)

/-- Texts and their bytes are ordered alike. -/
theorem encode_lt {a b : String} (h : a < b) : encode a < encode b :=
  flatMap_encodeChar_lt (String.lt_iff.mp h)

theorem encode_inj {a b : String} : encode a = encode b ↔ a = b := by
  refine ⟨fun h => ?_, fun h => by rw [h]⟩
  rcases lt_trichotomy a b with hlt | heq | hgt
  · exact absurd (h ▸ encode_lt hlt) (List.lt_irrefl _)
  · exact heq
  · exact absurd (h ▸ encode_lt hgt) (List.lt_irrefl _)

/-! ## Bytes below 0x80 -/

/-- A byte below 0x80 is the whole of its character. -/
theorem toNat_of_mem_encodeChar {c : Char} {b : UInt8} (hb : b < 0x80)
    (h : b ∈ String.utf8EncodeChar c) : c.toNat = b.toNat := by
  have hlt : b.toNat < 0x80 := UInt8.lt_iff_toNat_lt.mp hb
  have hmem : b.toNat ∈ (String.utf8EncodeChar c).map UInt8.toNat := List.mem_map_of_mem h
  rw [encodeChar_bytes] at hmem
  split_ifs at hmem <;> simp only [List.mem_cons, List.not_mem_nil, or_false] at hmem <;> omega

theorem zero_mem_encodeChar {c : Char} (h : 0 ∈ String.utf8EncodeChar c) : c = '\x00' :=
  Char.ext (UInt32.toNat_inj.mp (toNat_of_mem_encodeChar (by decide) h))

theorem zero_not_mem_encode {s : String} (h : '\x00' ∉ s.toList) : 0 ∉ encode s := by
  intro hz
  obtain ⟨c, hc, hb⟩ := List.mem_flatMap.mp hz
  exact h (zero_mem_encodeChar hb ▸ hc)

/-! ## Reading back -/

theorem ofNat_lt_iff {n : Nat} {b : UInt8} (h : n < 256) : UInt8.ofNat n < b ↔ n < b.toNat := by
  rw [UInt8.lt_iff_toNat_lt, UInt8.toNat_ofNat_of_lt' h]

theorem le_ofNat_iff {n : Nat} {b : UInt8} (h : n < 256) : b ≤ UInt8.ofNat n ↔ b.toNat ≤ n := by
  rw [UInt8.le_iff_toNat_le, UInt8.toNat_ofNat_of_lt' h]

theorem ofNat_le_iff {n : Nat} {b : UInt8} (h : n < 256) : UInt8.ofNat n ≤ b ↔ n ≤ b.toNat := by
  rw [UInt8.le_iff_toNat_le, UInt8.toNat_ofNat_of_lt' h]

theorem step_within {left value n : Nat} {lo hi : UInt8} {back : List (Option Char)}
    (h : n < 256) (hlo : lo.toNat ≤ n) (hhi : n ≤ hi.toNat) :
    Decoder.step ⟨.within (left + 2) value lo hi, back⟩ (UInt8.ofNat n) =
      ⟨.within (left + 1) (value * 64 + (n - 0x80)) 0x80 0xBF, back⟩ := by
  simp only [Decoder.step, UInt8.toNat_ofNat_of_lt' h]
  rw [if_pos]
  rw [Bool.and_eq_true, decide_eq_true_iff, decide_eq_true_iff, le_ofNat_iff h, ofNat_le_iff h]
  exact ⟨hlo, hhi⟩

theorem step_last {value n : Nat} {lo hi : UInt8} {back : List (Option Char)}
    (h : n < 256) (hlo : lo.toNat ≤ n) (hhi : n ≤ hi.toNat) :
    Decoder.step ⟨.within 1 value lo hi, back⟩ (UInt8.ofNat n) =
      ⟨.start, some (Char.ofNat (value * 64 + (n - 0x80))) :: back⟩ := by
  simp only [Decoder.step, UInt8.toNat_ofNat_of_lt' h]
  rw [if_pos]
  rw [Bool.and_eq_true, decide_eq_true_iff, decide_eq_true_iff, le_ofNat_iff h, ofNat_le_iff h]
  exact ⟨hlo, hhi⟩

theorem step_one {n : Nat} {back : List (Option Char)} (h : n < 0x80) :
    Decoder.step ⟨.start, back⟩ (UInt8.ofNat n) = ⟨.start, some (Char.ofNat n) :: back⟩ := by
  have hn : n < 256 := by omega
  simp only [Decoder.step, Decoder.lead, UInt8.toNat_ofNat_of_lt' hn]
  rw [if_pos (by rw [ofNat_lt_iff hn]; exact h)]

theorem step_two {n : Nat} {back : List (Option Char)} (h : 2 ≤ n) (h' : n < 32) :
    Decoder.step ⟨.start, back⟩ (UInt8.ofNat (n + 0xC0)) =
      ⟨.within 1 n 0x80 0xBF, back⟩ := by
  have hn : n + 0xC0 < 256 := by omega
  simp only [Decoder.step, Decoder.lead, UInt8.toNat_ofNat_of_lt' hn, ofNat_lt_iff hn]
  rw [if_neg (by simp), if_neg (by simp; omega), if_pos (by simp; omega), Nat.add_sub_cancel]

theorem step_three {n : Nat} {back : List (Option Char)} (h : n < 16) :
    Decoder.step ⟨.start, back⟩ (UInt8.ofNat (n + 0xE0)) =
      ⟨.within 2 n (if n = 0 then 0xA0 else 0x80) (if n = 13 then 0x9F else 0xBF), back⟩ := by
  interval_cases n <;> rfl

theorem step_four {n : Nat} {back : List (Option Char)} (h : n < 5) :
    Decoder.step ⟨.start, back⟩ (UInt8.ofNat (n + 0xF0)) =
      ⟨.within 3 n (if n = 0 then 0x90 else 0x80) (if n = 4 then 0x8F else 0xBF), back⟩ := by
  interval_cases n <;> rfl

/-- The bytes of a character are read as that character. -/
theorem foldl_step_encodeChar (c : Char) (back : List (Option Char)) :
    (String.utf8EncodeChar c).foldl Decoder.step ⟨.start, back⟩ = ⟨.start, some c :: back⟩ := by
  have hc := toNat_lt c
  have hv : c.toNat < 0xd800 ∨ 0xdfff < c.toNat ∧ c.toNat < 0x110000 := c.valid
  rw [encodeChar_eq (encodeChar_bytes c)]
  split_ifs with h1 h2 h3
  · simp only [List.map_cons, List.map_nil, List.foldl_cons, List.foldl_nil]
    rw [step_one h1, Char.ofNat_toNat]
  · simp only [List.map_cons, List.map_nil, List.foldl_cons, List.foldl_nil]
    rw [step_two (by omega) (by omega), step_last (by omega) (by simp) (by simp; omega)]
    have hval : c.toNat / 64 * 64 + (c.toNat % 64 + 0x80 - 0x80) = c.toNat := by omega
    rw [hval, Char.ofNat_toNat]
  · simp only [List.map_cons, List.map_nil, List.foldl_cons, List.foldl_nil]
    rw [step_three (by omega), step_within (by omega) (by split_ifs <;> simp; omega)
      (by split_ifs <;> simp <;> omega), step_last (by omega) (by simp) (by simp; omega)]
    have hval : (c.toNat / 4096 * 64 + (c.toNat / 64 % 64 + 0x80 - 0x80)) * 64 +
        (c.toNat % 64 + 0x80 - 0x80) = c.toNat := by omega
    rw [hval, Char.ofNat_toNat]
  · simp only [List.map_cons, List.map_nil, List.foldl_cons, List.foldl_nil]
    rw [step_four (by omega), step_within (by omega) (by split_ifs <;> simp; omega)
      (by split_ifs <;> simp <;> omega), step_within (by omega) (by simp) (by simp; omega),
      step_last (by omega) (by simp) (by simp; omega)]
    have hval : ((c.toNat / 262144 * 64 + (c.toNat / 4096 % 64 + 0x80 - 0x80)) * 64 +
        (c.toNat / 64 % 64 + 0x80 - 0x80)) * 64 + (c.toNat % 64 + 0x80 - 0x80) = c.toNat := by
      omega
    rw [hval, Char.ofNat_toNat]

theorem foldl_step_encode (cs : List Char) (back : List (Option Char)) :
    (cs.flatMap String.utf8EncodeChar).foldl Decoder.step ⟨.start, back⟩ =
      ⟨.start, (cs.map some).reverse ++ back⟩ := by
  induction cs generalizing back with
  | nil => rfl
  | cons c cs ih =>
    rw [List.flatMap_cons, List.foldl_append, foldl_step_encodeChar, ih, List.map_cons,
      List.reverse_cons, List.append_assoc, List.singleton_append]

theorem scan_encode (s : String) : scan (encode s) = s.toList.map some := by
  rw [scan, encode, foldl_step_encode]
  simp [Decoder.finish]

/-- The bytes of a text are read as that text. -/
theorem decode?_encode (s : String) : decode? (encode s) = some s.toList := by
  rw [decode?, scan_encode]
  induction s.toList with
  | nil => rfl
  | cons c cs ih => simp [ih]

theorem decodeKindly_encode (s : String) : decodeKindly (encode s) = s.toList := by
  rw [decodeKindly, scan_encode, List.map_map]
  exact List.map_id _

end Lookalike.Text
