-- The laws of full vectors as numbers and as texts: words without zeros at the
-- high end are told apart by their number, the digits of a vector stand for
-- its number, and the vector of a text has the number of its digits.
import Mathlib.Data.List.DropRight
import Mathlib.Tactic.Ring
import Lookalike.Fingerprint.Vector
import Lookalike.Proofs.Packing

namespace Lookalike.FullVector

/-! ## Words and their number -/

/-- No zero word at the high end. -/
def Trimmed (limbs : List UInt64) : Prop := limbs.getLast? ≠ some 0

theorem trimmed_trim (limbs : List UInt64) : Trimmed (trim limbs) := by
  intro h
  have hne : trim limbs ≠ [] := by
    intro hnil
    rw [hnil] at h
    cases h
  have hlast := List.rdropWhile_last_not (· == 0) limbs hne
  rw [List.getLast?_eq_some_getLast hne] at h
  exact hlast (beq_iff_eq.mpr (Option.some.inj h))

theorem Trimmed.tail {l : UInt64} {limbs : List UInt64} (h : Trimmed (l :: limbs)) :
    Trimmed limbs := by
  unfold Trimmed at h ⊢
  rw [List.getLast?_cons] at h
  intro hlast
  rw [hlast] at h
  exact h rfl

theorem Trimmed.eq_nil {limbs : List UInt64} (h : Trimmed limbs) (hzero : denote limbs = 0) :
    limbs = [] := by
  induction limbs with
  | nil => rfl
  | cons l limbs ih =>
    rw [denote] at hzero
    have hl : l.toNat = 0 := by omega
    obtain rfl := ih h.tail (by omega)
    exact absurd (congrArg some (UInt64.toNat_inj.mp hl)) h

theorem Trimmed.inj {as bs : List UInt64} (ha : Trimmed as) (hb : Trimmed bs)
    (h : denote as = denote bs) : as = bs := by
  induction as generalizing bs with
  | nil => exact (hb.eq_nil h.symm).symm
  | cons a as ih =>
    cases bs with
    | nil => exact ha.eq_nil h
    | cons b bs =>
      have hlow := a.toNat_lt
      have hlow' := b.toNat_lt
      rw [denote, denote] at h
      rw [UInt64.toNat_inj.mp (show a.toNat = b.toNat by omega), ih ha.tail hb.tail (by omega)]

theorem denote_append_zeros (limbs : List UInt64) (k : Nat) :
    denote (limbs ++ List.replicate k 0) = denote limbs := by
  induction limbs with
  | nil =>
    induction k with
    | zero => rfl
    | succ k ih =>
      rw [List.nil_append] at ih ⊢
      simp [List.replicate_succ, denote, ih]
  | cons l limbs ih => rw [List.cons_append, denote, ih, denote]

theorem denote_trim (limbs : List UInt64) : denote (trim limbs) = denote limbs := by
  obtain ⟨k, hk⟩ := BitVector.trim_append_zeros limbs
  conv_rhs => rw [hk, denote_append_zeros]

/-! ## Bits and their number -/

open BitVector (value)

theorem denote_limbs {fuel : Nat} {bits : List Bool} (hfuel : bits.length ≤ fuel) :
    denote (BitVector.limbs fuel bits) = value bits := by
  induction fuel generalizing bits with
  | zero =>
    obtain rfl := List.length_eq_zero_iff.mp (Nat.le_zero.mp hfuel)
    rfl
  | succ fuel ih =>
    rw [BitVector.limbs]
    split_ifs with hempty
    · rw [List.isEmpty_iff.mp hempty]
      rfl
    · have hdrop : (bits.drop 64).length ≤ fuel := by
        have hpos := List.length_pos_iff.mpr (mt List.isEmpty_iff.mpr hempty)
        rw [List.length_drop]
        omega
      rw [denote, BitVector.toNat_limb (List.length_take_le 64 bits), ih hdrop]
      conv_rhs => rw [← List.take_append_drop 64 bits, BitVector.value_append]
      -- a word that is not full is the last one
      by_cases hfull : 64 ≤ bits.length
      · rw [List.length_take, Nat.min_eq_left hfull]
      · rw [List.drop_of_length_le (by omega)]
        rfl

/-- The number of a full vector is that of its bits, the first one highest. -/
theorem toNat_full (bits : BitVector) : bits.full.toNat = value bits.reverse := by
  unfold BitVector.full toNat ofLimbs
  rw [denote_trim, denote_limbs (by simp)]

theorem toNat_full_lt (bits : BitVector) : bits.full.toNat < 2 ^ bits.length := by
  have h := BitVector.value_lt bits.reverse
  rw [List.length_reverse] at h
  rwa [toNat_full]

/-- The bucket number is what is left of the full vector once its low bits are cut off. -/
theorem toNat_bucket_eq_div {width : Nat} (hw : width ≤ 64) (bits : BitVector) :
    (bits.bucket width).toNat = bits.full.toNat / 2 ^ (bits.length - width) := by
  have hlow : value (bits.drop width).reverse < 2 ^ (bits.length - width) := by
    have h := BitVector.value_lt (bits.drop width).reverse
    rwa [List.length_reverse, List.length_drop] at h
  have hsplit : value bits.reverse = value (bits.drop width).reverse +
      2 ^ (bits.length - width) * value (bits.take width).reverse := by
    conv_lhs => rw [← List.take_append_drop width bits, List.reverse_append,
      BitVector.value_append, List.length_reverse, List.length_drop]
  rw [BitVector.toNat_bucket hw, toNat_full, hsplit,
    Nat.add_mul_div_left _ _ (Nat.two_pow_pos _), Nat.div_eq_of_lt hlow, Nat.zero_add]

/-! ## Digits and their number -/

/-- The value of a digit, zero for other characters. -/
def digitValue (c : Char) : Nat := (digitValue? c).getD 0

/-- The number of digits in base 16, the highest first. -/
def number (cs : List Char) : Nat := cs.foldl (fun n c => 16 * n + digitValue c) 0

theorem digitValue?_of_isHexDigit {c : Char} (h : isHexDigit c = true) :
    digitValue? c = some (digitValue c) := by
  obtain ⟨d, hd⟩ := Option.isSome_iff_exists.mp h
  rw [digitValue, hd]
  rfl

theorem digitValue_lt (c : Char) : digitValue c < 16 := by
  unfold digitValue digitValue?
  split_ifs with hten hlower hupper
  · have hhigh : c.toNat ≤ 57 := hten.2
    simp only [Option.getD_some]
    omega
  · have hhigh : c.toNat ≤ 102 := hlower.2
    simp only [Option.getD_some]
    omega
  · have hhigh : c.toNat ≤ 70 := hupper.2
    simp only [Option.getD_some]
    omega
  · decide

theorem number_concat (cs : List Char) (c : Char) :
    number (cs ++ [c]) = 16 * number cs + digitValue c := by
  rw [number, List.foldl_append]
  rfl

theorem number_append (as bs : List Char) :
    number (as ++ bs) = 16 ^ bs.length * number as + number bs := by
  induction bs using List.reverseRecOn with
  | nil => simp [number]
  | append_singleton bs b ih =>
    rw [← List.append_assoc, number_concat, number_concat, ih, List.length_append,
      List.length_singleton, Nat.pow_succ]
    ring

theorem number_lt (cs : List Char) : number cs < 16 ^ cs.length := by
  induction cs using List.reverseRecOn with
  | nil => simp [number]
  | append_singleton cs c ih =>
    have hc := digitValue_lt c
    rw [number_concat, List.length_append, List.length_singleton, Nat.pow_succ]
    omega

/-! ## Words and their digits -/

/-- All characters are digits in base 16. -/
def AllHex (cs : List Char) : Prop := ∀ c ∈ cs, isHexDigit c = true

theorem AllHex.append {as bs : List Char} (ha : AllHex as) (hb : AllHex bs) :
    AllHex (as ++ bs) :=
  fun c hc => (List.mem_append.mp hc).elim (ha c) (hb c)

/-- Digits are added to a number one after the other, as long as all of it fits a word. -/
theorem foldlM_pushDigit {cs : List Char} (h : AllHex cs) {n : Nat}
    (fits : 16 ^ cs.length * n + number cs < 2 ^ 64) :
    cs.foldlM pushDigit n = .ok (16 ^ cs.length * n + number cs) := by
  induction cs generalizing n with
  | nil => simp [number, pure, Except.pure]
  | cons c cs ih =>
    obtain ⟨hc, hcs⟩ := List.forall_mem_cons.mp h
    have hsplit : number (c :: cs) = 16 ^ cs.length * digitValue c + number cs := by
      have happend := number_append [c] cs
      rwa [show number [c] = digitValue c by simp [number]] at happend
    have hmore : 16 ^ (c :: cs).length * n + number (c :: cs) =
        16 ^ cs.length * (16 * n + digitValue c) + number cs := by
      rw [hsplit, List.length_cons, Nat.pow_succ]
      ring
    rw [hmore] at fits ⊢
    have hsmall : 16 * n + digitValue c < 2 ^ 64 :=
      calc 16 * n + digitValue c ≤ 16 ^ cs.length * (16 * n + digitValue c) :=
            Nat.le_mul_of_pos_left _ (Nat.pow_pos (by decide))
        _ < 2 ^ 64 := by omega
    have hpush : pushDigit n c = .ok (16 * n + digitValue c) := by
      rw [pushDigit, digitValue?_of_isHexDigit hc]
      exact if_pos hsmall
    rw [List.foldlM_cons, hpush]
    exact ih hcs fits

/-- A slice of at most sixteen digits is always read, as the word of its number. -/
theorem readWord_digits (cs : List Char) (hne : cs ≠ []) (h : AllHex cs) (hlen : cs.length ≤ 16) :
    ∃ w, readWord cs = .ok w ∧ w.toNat = number cs := by
  have hword : number cs < 2 ^ 64 :=
    calc number cs < 16 ^ cs.length := number_lt cs
      _ ≤ 16 ^ 16 := Nat.pow_le_pow_right (by decide) hlen
      _ = 2 ^ 64 := by decide
  have hfold : cs.foldlM pushDigit 0 = .ok (number cs) := by
    have hall := foldlM_pushDigit h (n := 0) (by simpa using hword)
    rwa [Nat.mul_zero, Nat.zero_add] at hall
  refine ⟨UInt64.ofNat (number cs), ?_, UInt64.toNat_ofNat_of_lt' hword⟩
  unfold readWord
  split
  · exact absurd rfl hne
  · -- a sign is no digit
    exact absurd (h '+' List.mem_cons_self) (by decide)
  · rw [hfold]
    rfl

/-- Digits are always cut into words, which stand for their number. -/
theorem readWords_digits (fuel : Nat) (back : List Char) (h : AllHex back)
    (hfuel : back.length ≤ fuel) :
    ∃ words, readWords fuel back = .ok words ∧ denote words = number back.reverse := by
  induction fuel generalizing back with
  | zero =>
    obtain rfl := List.length_eq_zero_iff.mp (Nat.le_zero.mp hfuel)
    exact ⟨[], rfl, rfl⟩
  | succ fuel ih =>
    rw [readWords]
    split_ifs with hempty
    · rw [List.isEmpty_iff.mp hempty]
      exact ⟨[], rfl, rfl⟩
    · have hpos : 0 < back.length := List.length_pos_iff.mpr (mt List.isEmpty_iff.mpr hempty)
      obtain ⟨w, hw, hlow⟩ := readWord_digits (back.take 16).reverse
        (by simp [List.length_pos_iff.mp hpos])
        (fun c hc => h c (List.mem_of_mem_take (List.mem_reverse.mp hc)))
        (by simp [List.length_take])
      obtain ⟨words, hwords, hhigh⟩ := ih (back.drop 16)
        (fun c hc => h c (List.mem_of_mem_drop hc)) (by rw [List.length_drop]; omega)
      refine ⟨w :: words, by rw [hw, hwords]; rfl, ?_⟩
      rw [denote, hlow, hhigh]
      conv_rhs => rw [← List.take_append_drop 16 back, List.reverse_append, number_append,
        List.length_reverse, List.length_take]
      -- a word that is not full is the last one
      by_cases hfull : 16 ≤ back.length
      · rw [Nat.min_eq_left hfull, Nat.add_comm]
        rfl
      · rw [List.drop_of_length_le (by omega)]
        simp [number]

/-! ## Texts and their number -/

/-- The characters are digits in base 16 and stand for a number. -/
def Spells (cs : List Char) (n : Nat) : Prop := AllHex cs ∧ number cs = n

theorem spells_append {as bs : List Char} {m n : Nat} (ha : Spells as m) (hb : Spells bs n) :
    Spells (as ++ bs) (n + 16 ^ bs.length * m) := by
  obtain ⟨ha, rfl⟩ := ha
  obtain ⟨hb, rfl⟩ := hb
  exact ⟨ha.append hb, (number_append as bs).trans (Nat.add_comm _ _)⟩

theorem spells_digit {d : Nat} (h : d < 16) : Spells [Nat.digitChar d] d := by
  have hall : ∀ d < 16, isHexDigit (Nat.digitChar d) = true ∧ number [Nat.digitChar d] = d := by
    decide
  exact ⟨by simpa [AllHex] using (hall d h).1, (hall d h).2⟩

theorem spells_zeros (k : Nat) : Spells (List.replicate k '0') 0 := by
  induction k with
  | zero => exact ⟨by simp [AllHex], rfl⟩
  | succ k ih =>
    have h := spells_append (spells_digit (d := 0) (by decide)) ih
    rwa [Nat.mul_zero, Nat.add_zero] at h

theorem spells_toDigits (n : Nat) : Spells (Nat.toDigits 16 n) n := by
  induction n using Nat.strongRecOn with
  | _ n ih =>
    by_cases hsmall : n < 16
    · rw [Nat.toDigits_of_lt_base hsmall]
      exact spells_digit hsmall
    · have h := spells_append (ih (n / 16) (by omega))
        (spells_digit (d := n % 16) (Nat.mod_lt n (by decide)))
      rw [List.length_singleton, Nat.pow_one, Nat.mod_add_div] at h
      rwa [Nat.toDigits_of_base_le (by decide) (by omega)]

theorem length_limbDigits (w : UInt64) : (limbDigits w).length = 16 := by
  have hle : (Nat.toDigits 16 w.toNat).length ≤ 16 :=
    (Nat.length_toDigits_le_iff (by decide) (by decide)).mpr w.toNat_lt
  rw [limbDigits, List.length_append, List.length_replicate]
  omega

theorem spells_limbDigits (w : UInt64) : Spells (limbDigits w) w.toNat := by
  have h := spells_append (spells_zeros (16 - (Nat.toDigits 16 w.toNat).length))
    (spells_toDigits w.toNat)
  rwa [Nat.mul_zero, Nat.add_zero] at h

/-- The digits of the highest word and of those below it. -/
theorem spells_limbs (top : UInt64) (below : List UInt64) :
    Spells (Nat.toDigits 16 top.toNat ++ below.reverse.flatMap limbDigits)
      (denote (below ++ [top])) := by
  induction below with
  | nil =>
    have h := spells_toDigits top.toNat
    simpa [denote] using h
  | cons l below ih =>
    have h := spells_append ih (spells_limbDigits l)
    rw [length_limbDigits, List.append_assoc, show 16 ^ 16 = 2 ^ 64 by decide] at h
    rw [List.reverse_cons, List.flatMap_append, List.cons_append, denote]
    simpa only [List.flatMap_cons, List.flatMap_nil, List.append_nil] using h

theorem spells_vector (v : FullVector) : v.toDigits ≠ [] ∧ Spells v.toDigits v.toNat := by
  unfold toDigits toNat
  split
  · rename_i hnil
    rw [List.reverse_eq_nil_iff.mp hnil]
    exact ⟨List.cons_ne_nil _ _, spells_digit (d := 0) (by decide)⟩
  · rename_i top rest hlimbs
    have hsplit : v.limbs = rest.reverse ++ [top] := by
      rw [← List.reverse_reverse v.limbs, hlimbs, List.reverse_cons]
    have h := spells_limbs top rest.reverse
    rw [List.reverse_reverse] at h
    rw [hsplit]
    exact ⟨by simp [Nat.toDigits_ne_nil], h⟩

/-! ## Reading -/

/-- A marker and digits are read as the vector of their number. -/
theorem read_spelled {s : String} {cs : List Char} {n : Nat} (hs : s.toList = '0' :: 'x' :: cs)
    (hne : cs ≠ []) (h : Spells cs n) :
    ∃ v, read s = .ok v ∧ Trimmed v.limbs ∧ v.toNat = n := by
  obtain ⟨hall, rfl⟩ := h
  obtain ⟨words, hwords, hnumber⟩ := readWords_digits cs.length cs.reverse
    (fun c hc => hall c (List.mem_reverse.mp hc)) (by simp)
  rw [List.reverse_reverse] at hnumber
  refine ⟨ofLimbs words, ?_, trimmed_trim _, ?_⟩
  · have hdigits : ¬ (cs.isEmpty || !cs.all isHexDigit) = true := by
      simp only [Bool.or_eq_true, List.isEmpty_iff, Bool.not_eq_true', List.all_eq_false]
      rintro (hnil | ⟨c, hc, hnot⟩)
      · exact hne hnil
      · exact hnot (hall c hc)
    simp only [read, hs, if_neg hdigits, hwords]
  · unfold toNat ofLimbs
    rw [denote_trim, hnumber]

/-- A vector without zero words at the high end is read back from its text. -/
theorem read_text {v : FullVector} (h : Trimmed v.limbs) : read v.text = .ok v := by
  obtain ⟨hne, hspells⟩ := spells_vector v
  obtain ⟨w, hread, hw, hn⟩ := read_spelled (s := v.text) (by simp [text]) hne hspells
  rw [hread]
  have hlimbs : w.limbs = v.limbs := hw.inj h hn
  cases v
  cases w
  exact congrArg _ (congrArg _ hlimbs)

/-- What is read has no zero words at the high end. -/
theorem trimmed_of_read {s : String} {v : FullVector} (h : read s = .ok v) : Trimmed v.limbs := by
  unfold read at h
  split at h
  · split_ifs at h
    split at h
    · cases h
      exact trimmed_trim _
    · cases h
  · cases h

/-! ## The vectors that come about -/

/-- A vector is made of words, of bits or of a text. -/
inductive Made : FullVector → Prop where
  | ofLimbs (limbs : List UInt64) : Made (.ofLimbs limbs)
  | full (bits : BitVector) : Made bits.full
  | read {s : String} {v : FullVector} (ok : read s = .ok v) : Made v

theorem Made.trimmed {v : FullVector} (h : v.Made) : Trimmed v.limbs := by
  cases h with
  | ofLimbs limbs => exact trimmed_trim limbs
  | full bits => exact trimmed_trim _
  | read ok => exact trimmed_of_read ok

theorem Made.eq_of_toNat {v w : FullVector} (hv : v.Made) (hw : w.Made) (h : v.toNat = w.toNat) :
    v = w := by
  have hlimbs : v.limbs = w.limbs := hv.trimmed.inj hw.trimmed h
  cases v
  cases w
  exact congrArg _ hlimbs

end Lookalike.FullVector
