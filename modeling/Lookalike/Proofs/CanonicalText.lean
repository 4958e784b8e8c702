-- The texts of full vectors. Every text of a marker and digits is read, as the
-- vector of the number that the digits denote, and a vector is written in one
-- way only: in lower case and without a needless zero in front.
import Lookalike.Proofs.Hexadecimal

namespace Lookalike.FullVector

/-! ## Digits by their place -/

/-- The digits in base 16, each at the place of its value. -/
def sixteen : List Char := "0123456789abcdef".toList

/-- A digit of either case. -/
def IsDigit (c : Char) : Prop := c.toLower ∈ sixteen

instance : DecidablePred IsDigit := fun c => inferInstanceAs (Decidable (c.toLower ∈ sixteen))

/-- The number that digits denote. -/
def denoted (cs : List Char) : Nat := cs.foldl (fun n c => 16 * n + sixteen.idxOf c.toLower) 0

theorem lt_of_isHexDigit {c : Char} (h : isHexDigit c = true) : c.toNat < 128 := by
  unfold isHexDigit digitValue? at h
  split_ifs at h with hten hlower hupper
  · exact Nat.lt_of_le_of_lt (show c.toNat ≤ 57 from hten.2) (by decide)
  · exact Nat.lt_of_le_of_lt (show c.toNat ≤ 102 from hlower.2) (by decide)
  · exact Nat.lt_of_le_of_lt (show c.toNat ≤ 70 from hupper.2) (by decide)
  · cases h

theorem lt_of_isDigit {c : Char} (h : IsDigit c) : c.toNat < 128 := by
  have hall : (sixteen.all fun d => d.toNat < 128) = true := by decide
  by_cases hupper : 65 ≤ c.toNat ∧ c.toNat ≤ 90
  · omega
  · have hsame : c.toLower = c := dif_neg hupper
    rw [IsDigit, hsame] at h
    exact of_decide_eq_true (List.all_eq_true.mp hall c h)

theorem isHexDigit_iff {c : Char} : isHexDigit c = true ↔ IsDigit c := by
  have hall : ∀ n < 128, isHexDigit (Char.ofNat n) = true ↔ IsDigit (Char.ofNat n) := by
    decide +kernel
  constructor
  · intro h
    have hc := hall c.toNat (lt_of_isHexDigit h)
    rw [Char.ofNat_toNat] at hc
    exact hc.mp h
  · intro h
    have hc := hall c.toNat (lt_of_isDigit h)
    rw [Char.ofNat_toNat] at hc
    exact hc.mpr h

/-- The value of a digit is its place, and its digit at that place is the one in lower case. -/
theorem digitValue_eq {c : Char} (h : IsDigit c) :
    digitValue c = sixteen.idxOf c.toLower ∧ Nat.digitChar (digitValue c) = c.toLower := by
  have hall : ∀ n < 128, IsDigit (Char.ofNat n) →
      digitValue (Char.ofNat n) = sixteen.idxOf (Char.ofNat n).toLower ∧
        Nat.digitChar (digitValue (Char.ofNat n)) = (Char.ofNat n).toLower := by decide +kernel
  have hc := hall c.toNat (lt_of_isDigit h)
  rw [Char.ofNat_toNat] at hc
  exact hc h

theorem allHex_iff {cs : List Char} : AllHex cs ↔ ∀ c ∈ cs, IsDigit c :=
  forall₂_congr fun _ _ => isHexDigit_iff

theorem number_eq_denoted {cs : List Char} (h : AllHex cs) : number cs = denoted cs := by
  apply List.foldl_ext
  intro n c hc
  rw [(digitValue_eq (isHexDigit_iff.mp (h c hc))).1]

/-! ## One text for each number -/

/-- The digits in lower case behind the zeros in front. -/
def significant (cs : List Char) : List Char := (cs.map Char.toLower).dropWhile (· == '0')

/-- The digits in lower case without needless zeros in front. -/
def canonical (cs : List Char) : List Char :=
  if significant cs = [] then ['0'] else significant cs

theorem significant_eq {cs : List Char} (h : AllHex cs) :
    significant cs = if number cs = 0 then [] else Nat.toDigits 16 (number cs) := by
  induction cs using List.reverseRecOn with
  | nil => rfl
  | append_singleton cs c ih =>
    have hcs : AllHex cs := fun d hd => h d (List.mem_append_left _ hd)
    have hc : IsDigit c := isHexDigit_iff.mp (h c (by simp))
    have hlt := digitValue_lt c
    have hchar := (digitValue_eq hc).2
    have hstep : significant (cs ++ [c]) =
        if (significant cs).isEmpty then significant [c] else significant cs ++ [c.toLower] := by
      unfold significant
      rw [List.map_append, List.dropWhile_append]
      rfl
    rw [hstep, ih hcs, number_concat]
    by_cases hzero : number cs = 0
    · have hdigit : Nat.toDigits 16 (digitValue c) = [c.toLower] := by
        rw [Nat.toDigits_of_lt_base hlt, hchar]
      have hnone : c.toLower = '0' ↔ digitValue c = 0 := by
        constructor
        · intro h0
          rw [(digitValue_eq hc).1, h0]
          rfl
        · intro h0
          rw [← hchar, h0]
          rfl
      rw [hzero, Nat.mul_zero, Nat.zero_add, hdigit]
      simp [significant, hnone, List.dropWhile_cons]
    · have hdigits : Nat.toDigits 16 (number cs) ++ [c.toLower] =
          Nat.toDigits 16 (16 * number cs + digitValue c) := by
        rw [← hchar, ← Nat.toDigits_of_lt_base hlt]
        exact Nat.toDigits_append_toDigits (by decide) (Nat.pos_of_ne_zero hzero) hlt
      rw [if_neg hzero, if_neg (by simp [Nat.toDigits_ne_nil]), if_neg (by omega), hdigits]

theorem canonical_eq {cs : List Char} (h : AllHex cs) :
    canonical cs = Nat.toDigits 16 (number cs) := by
  unfold canonical
  rw [significant_eq h]
  by_cases hzero : number cs = 0
  · rw [if_pos hzero, if_pos rfl, hzero]
    rfl
  · rw [if_neg hzero, if_neg Nat.toDigits_ne_nil]

/-! ## How vectors are written -/

/-- All letters are in lower case. -/
def Lower (cs : List Char) : Prop := cs.map Char.toLower = cs

theorem Lower.append {as bs : List Char} (ha : Lower as) (hb : Lower bs) : Lower (as ++ bs) := by
  unfold Lower at *
  rw [List.map_append, ha, hb]

theorem lower_toDigits (n : Nat) : Lower (Nat.toDigits 16 n) := by
  have hdigit : ∀ d < 16, Lower [Nat.digitChar d] := by
    unfold Lower
    decide
  induction n using Nat.strongRecOn with
  | _ n ih =>
    by_cases hsmall : n < 16
    · rw [Nat.toDigits_of_lt_base hsmall]
      exact hdigit n hsmall
    · rw [Nat.toDigits_of_base_le (by decide) (by omega)]
      exact (ih (n / 16) (by omega)).append (hdigit (n % 16) (Nat.mod_lt n (by decide)))

theorem lower_limbDigits (w : UInt64) : Lower (limbDigits w) := by
  apply Lower.append _ (lower_toDigits w.toNat)
  rw [Lower, List.map_replicate]
  rfl

theorem lower_flatMap_limbDigits (words : List UInt64) : Lower (words.flatMap limbDigits) := by
  induction words with
  | nil => rfl
  | cons w words ih => exact (lower_limbDigits w).append ih

/-- Digits in lower case that begin with a number above zero have no needless zero in front. -/
theorem canonical_toDigits_append {n : Nat} (hn : n ≠ 0) {cs : List Char} (h : Lower cs) :
    canonical (Nat.toDigits 16 n ++ cs) = Nat.toDigits 16 n ++ cs := by
  have hspells := spells_toDigits n
  have hfront : (Nat.toDigits 16 n).dropWhile (· == '0') = Nat.toDigits 16 n := by
    have hsame := significant_eq hspells.1
    rwa [hspells.2, if_neg hn, significant, lower_toDigits n] at hsame
  have hwhole : significant (Nat.toDigits 16 n ++ cs) = Nat.toDigits 16 n ++ cs := by
    rw [significant, (lower_toDigits n).append h, List.dropWhile_append, hfront,
      if_neg (by simp [Nat.toDigits_ne_nil])]
  rw [canonical, hwhole, if_neg (by simp [Nat.toDigits_ne_nil])]

/-- A vector without zero words at the high end is written like its number. -/
theorem toDigits_eq {v : FullVector} (h : Trimmed v.limbs) :
    v.toDigits = Nat.toDigits 16 v.toNat := by
  obtain ⟨-, hall, hnumber⟩ := spells_vector v
  have hcanonical : canonical v.toDigits = v.toDigits := by
    unfold toDigits
    split
    · decide
    · rename_i top rest hlimbs
      have hlast : v.limbs.getLast? = some top := by rw [← List.head?_reverse, hlimbs]; rfl
      have htop : top.toNat ≠ 0 := by
        intro hzero
        apply h
        rw [hlast, UInt64.toNat_inj.mp (show top.toNat = (0 : UInt64).toNat from hzero)]
      exact canonical_toDigits_append htop (lower_flatMap_limbDigits rest)
  rw [← hcanonical, canonical_eq hall, hnumber]

/-! ## Reading and writing -/

/-- A text is the marker and, behind it, one or more digits of either case. -/
def Marked (s : String) (cs : List Char) : Prop :=
  s.toList = '0' :: 'x' :: cs ∧ cs ≠ [] ∧ ∀ c ∈ cs, IsDigit c

theorem read_marked {s : String} {cs : List Char} (h : Marked s cs) :
    ∃ v, read s = .ok v ∧ v.toNat = denoted cs := by
  obtain ⟨hs, hne, hdigits⟩ := h
  have hall := allHex_iff.mpr hdigits
  obtain ⟨v, hv, -, hnumber⟩ := read_spelled hs hne ⟨hall, rfl⟩
  exact ⟨v, hv, hnumber.trans (number_eq_denoted hall)⟩

/-- Reading ends well on a marked text only, and fails for no other reason than the marker or the
digits: no slice of digits is refused as a word. -/
theorem read_cases (s : String) :
    (∃ cs v, Marked s cs ∧ read s = .ok v) ∨ read s = .error (.of (.malformed (.noMarker s))) ∨
      read s = .error (.of (.malformed (.notHexadecimal s))) := by
  unfold read
  split
  · rename_i ds hs
    split_ifs with hbad
    · exact .inr (.inr rfl)
    · simp only [Bool.or_eq_true, not_or, Bool.not_eq_true', Bool.not_eq_false, List.isEmpty_iff,
        List.all_eq_true] at hbad
      obtain ⟨words, hwords, -⟩ := readWords_digits ds.length ds.reverse
        (fun c hc => hbad.2 c (List.mem_reverse.mp hc)) (by simp)
      refine .inl ⟨ds, ofLimbs words, ⟨hs, hbad.1, fun c hc => isHexDigit_iff.mp (hbad.2 c hc)⟩, ?_⟩
      rw [hwords]
  · exact .inr (.inl rfl)

/-- Exactly the texts of a marker and digits are read, each as the one vector of the number that the
digits denote, and the text of that vector is the canonical one; a text that is not read lacks the
marker or the digits. Whatever vector there is, its own text is read as that vector. -/
theorem a_text_is_read_as_the_number_of_its_digits :
    (∀ s : String, (∃ v, read s = .ok v) ↔ ∃ cs, Marked s cs) ∧
      (∀ s cs v, Marked s cs → read s = .ok v →
        v.toNat = denoted cs ∧ (∀ w : FullVector, w.Made → w.toNat = denoted cs → w = v) ∧
          v.text = String.ofList ('0' :: 'x' :: canonical cs)) ∧
      (∀ s f, read s = .error f →
        f = .of (.malformed (.noMarker s)) ∨ f = .of (.malformed (.notHexadecimal s))) ∧
      ∀ v : FullVector, v.Made → read v.text = .ok v := by
  refine ⟨fun s => ⟨?_, ?_⟩, ?_, ?_, fun v hv => read_text hv.trimmed⟩
  · rintro ⟨v, hv⟩
    rcases read_cases s with ⟨cs, -, hcs, -⟩ | hnone | hnot
    · exact ⟨cs, hcs⟩
    · rw [hnone] at hv
      cases hv
    · rw [hnot] at hv
      cases hv
  · rintro ⟨cs, hcs⟩
    obtain ⟨v, hv, -⟩ := read_marked hcs
    exact ⟨v, hv⟩
  · intro s cs v hcs hv
    obtain ⟨w, hw, hnumber⟩ := read_marked hcs
    obtain rfl : w = v := Except.ok.inj (hw.symm.trans hv)
    have hmade : w.Made := .read hv
    have hall := allHex_iff.mpr hcs.2.2
    refine ⟨hnumber, fun u hu hsame => hu.eq_of_toNat hmade (hsame.trans hnumber.symm), ?_⟩
    rw [text, toDigits_eq hmade.trimmed, hnumber, ← number_eq_denoted hall, ← canonical_eq hall]
    rfl
  · intro s f hf
    rcases read_cases s with ⟨cs, v, -, hv⟩ | hnone | hnot
    · rw [hv] at hf
      cases hf
    · exact .inl (Except.error.inj (hf.symm.trans hnone))
    · exact .inr (Except.error.inj (hf.symm.trans hnot))

/-- Zeros in front make a word of their own, both cases are read, and a sign is refused. -/
theorem a_text_of_nineteen_digits_is_read :
    let s := "0x00000000000000001aB"
    let cs := "00000000000000001aB".toList
    let v : FullVector := ⟨[0x1ab]⟩
    Marked s cs ∧ read s = .ok v ∧ v.toNat = denoted cs ∧ v.text = "0x1ab" ∧ v.Made ∧
      read v.text = .ok v ∧ ¬ (∃ w, read "0x+5" = .ok w) ∧
      ∃ f, read "0x+5" = .error f ∧ (f = .of (.malformed (.noMarker "0x+5")) ∨
        f = .of (.malformed (.notHexadecimal "0x+5"))) := by
  intro s cs v
  obtain ⟨hread, hnumber, hfail, hback⟩ := a_text_is_read_as_the_number_of_its_digits
  have hdigits : (cs.all fun c => IsDigit c) = true := by decide
  have hmarked : Marked s cs :=
    ⟨by decide, by decide, fun c hc => of_decide_eq_true (List.all_eq_true.mp hdigits c hc)⟩
  have hv : read "0x00000000000000001aB" = .ok ⟨[0x1ab]⟩ := by cbv
  have hmade : v.Made := .read hv
  obtain ⟨hdenoted, -, htext⟩ := hnumber s cs v hmarked hv
  have hplus : read "0x+5" = .error (.of (.malformed (.notHexadecimal "0x+5"))) := rfl
  refine ⟨hmarked, hv, hdenoted, htext.trans (by decide), hmade, hback v hmade, ?_, _, hplus,
    hfail _ _ hplus⟩
  rintro ⟨w, hw⟩
  rw [hplus] at hw
  cases hw

end Lookalike.FullVector
