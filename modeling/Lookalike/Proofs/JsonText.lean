-- The laws of JSON texts: whatever the writers write, with blanks or without,
-- the reader reads back as the same value and leaves what follows alone. So
-- numerals, texts and the order of members all survive a file.
import Mathlib.Data.List.Basic
import Lookalike.Json.Reader
import Lookalike.Json.Writer

namespace Lookalike.Json

open Decimal (Numeral Exponent digits isDigit spanDigits)

/-! ## Blanks -/

/-- Characters that may stand between the parts of a text. -/
def Blank (bs : List Char) : Prop := ∀ c ∈ bs, isSpace c = true

theorem skipSpace_blank {bs : List Char} (h : Blank bs) (cs : List Char) :
    skipSpace (bs ++ cs) = skipSpace cs :=
  List.dropWhile_append_of_pos h

theorem skipSpace_of_head {c : Char} {cs : List Char} (h : isSpace c = false) :
    skipSpace (c :: cs) = c :: cs :=
  List.dropWhile_cons_of_neg (by simp [h])

theorem skipSpace_skipSpace (cs : List Char) : skipSpace (skipSpace cs) = skipSpace cs := by
  induction cs with
  | nil => rfl
  | cons c cs ih =>
    unfold skipSpace at ih ⊢
    by_cases h : isSpace c = true
    · rwa [List.dropWhile_cons_of_pos h]
    · rw [List.dropWhile_cons_of_neg h, List.dropWhile_cons_of_neg h]

theorem readValue?_skipSpace (fuel : Nat) (cs : List Char) :
    readValue? fuel (skipSpace cs) = readValue? fuel cs := by
  cases fuel with
  | zero => rfl
  | succ fuel => rw [readValue?, readValue?, skipSpace_skipSpace]

theorem readValue?_blank {bs : List Char} (h : Blank bs) (fuel : Nat) (cs : List Char) :
    readValue? fuel (bs ++ cs) = readValue? fuel cs := by
  rw [← readValue?_skipSpace, skipSpace_blank h, readValue?_skipSpace]

theorem readItems?_skipSpace (fuel : Nat) (cs : List Char) :
    readItems? fuel (skipSpace cs) = readItems? fuel cs := by
  cases fuel with
  | zero => rfl
  | succ fuel => rw [readItems?, readItems?, readValue?_skipSpace]

theorem readMembers?_skipSpace (fuel : Nat) (cs : List Char) :
    readMembers? fuel (skipSpace cs) = readMembers? fuel cs := by
  cases fuel with
  | zero => rfl
  | succ fuel => rw [readMembers?, readMembers?, skipSpace_skipSpace]

/-! ## Strings -/

theorem hexValue?_escapeDigit {n : Nat} (h : n < 16) : hexValue? (escapeDigit n) = some n := by
  have hall : ∀ n < 16, hexValue? (escapeDigit n) = some n := by decide
  exact hall n h

theorem readString?_plain {c : Char} (hquote : c ≠ '\x22') (hslash : c ≠ '\\')
    (hcontrol : ¬ c.toNat < 0x20) (u : Units) (rest : List Char) :
    readString? u (c :: rest) = readString? (u.char c) rest := by
  have hend : ¬ ((c == '\\' || c.toNat < 0x20) = true) := by simp [hslash, hcontrol]
  rw [readString?, if_neg (by simpa using hquote), if_neg hend]
  · exact fun _ _ _ _ _ h _ => hslash h
  · exact fun _ _ h _ => hslash h

theorem readString?_writeChar (c : Char) (u : Units) (rest : List Char) :
    readString? u (writeChar c ++ rest) = readString? (u.char c) rest := by
  unfold writeChar
  split_ifs with h1 h2 h3 h4 h5 h6 h7 h8
  all_goals try (rw [beq_iff_eq] at *; subst_vars; rfl)
  · have hhigh := hexValue?_escapeDigit (n := c.toNat / 16) (by omega)
    have hlow := hexValue?_escapeDigit (n := c.toNat % 16) (by omega)
    have hcode : u.code (((0 * 16 + 0) * 16 + c.toNat / 16) * 16 + c.toNat % 16) = u.char c := by
      have hnum : ((0 * 16 + 0) * 16 + c.toNat / 16) * 16 + c.toNat % 16 = c.toNat := by omega
      rw [hnum, Units.code, if_neg (by omega), if_neg (by omega), Char.ofNat_toNat]
    simp only [List.cons_append, List.nil_append, readString?, hhigh, hlow, ← hcode]
    rfl
  · simp only [beq_iff_eq] at *
    exact readString?_plain h1 h2 h8 u rest

theorem readString?_flatMap (s : List Char) (back : List Char) (rest : List Char) :
    readString? ⟨back, none, false⟩ (s.flatMap writeChar ++ '\x22' :: rest) =
      some (some (String.ofList (back.reverse ++ s)), rest) := by
  induction s generalizing back with
  | nil =>
    rw [List.flatMap_nil, List.nil_append, readString?]
    · simp [Units.text]
    · simp
    · simp
  | cons c s ih =>
    rw [List.flatMap_cons, List.append_assoc, readString?_writeChar]
    exact (ih (c :: back)).trans (by simp)

/-- What is written for a text is read as that text. -/
theorem readString?_writeText (t : Option String) (rest : List Char) :
    ∃ cs, writeText t ++ rest = '\x22' :: cs ∧
      readString? ⟨[], none, false⟩ cs = some (t, rest) := by
  cases t with
  | none => exact ⟨_, rfl, rfl⟩
  | some s =>
    refine ⟨s.toList.flatMap writeChar ++ '\x22' :: rest, ?_, ?_⟩
    · simp [writeText, writeString]
    · rw [readString?_flatMap]
      simp

/-! ## Numbers -/

/-- Digits alone. -/
def AllDigits (ds : List Char) : Prop := ∀ c ∈ ds, isDigit c = true

/-- A numeral that a JSON text can hold: digits in every part that is there, and no needless zero
in front. -/
structure Plain (n : Numeral) : Prop where
  whole_ne_nil : n.whole ≠ []
  whole_digits : AllDigits n.whole
  lead : n.whole = ['0'] ∨ n.whole.head? ≠ some '0'
  fraction_digits : AllDigits n.fraction
  power_digits : ∀ e ∈ n.exponent, e.digits ≠ [] ∧ AllDigits e.digits

/-- A rest in front of which a number ends. -/
def Ends (rest : List Char) : Prop :=
  ∀ c ∈ rest.head?, isDigit c = false ∧ c ≠ '.' ∧ c ≠ 'e' ∧ c ≠ 'E'

theorem spanDigits_append {ds rest : List Char} (h : AllDigits ds)
    (hrest : ∀ c ∈ rest.head?, isDigit c = false) : spanDigits (ds ++ rest) = (ds, rest) := by
  have htake : rest.takeWhile isDigit = [] ∧ rest.dropWhile isDigit = rest := by
    cases rest with
    | nil => exact ⟨rfl, rfl⟩
    | cons c cs =>
      have hc := hrest c rfl
      exact ⟨List.takeWhile_cons_of_neg (by simp [hc]), List.dropWhile_cons_of_neg (by simp [hc])⟩
  unfold spanDigits
  rw [List.takeWhile_append_of_pos h, List.dropWhile_append_of_pos h, htake.1, htake.2,
    List.append_nil]

/-- The text of a power of ten. -/
def powerChars : Option Exponent → List Char
  | none => []
  | some e => 'e' :: (if e.negative then ['-'] else []) ++ e.digits

/-- The text of the digits behind a point. -/
def fractionChars (ds : List Char) : List Char := if ds.isEmpty then [] else '.' :: ds

theorem toChars_eq (n : Numeral) :
    n.toChars = (if n.negative then ['-'] else []) ++ n.whole ++ fractionChars n.fraction ++
      powerChars n.exponent := by
  unfold Numeral.toChars fractionChars powerChars
  cases n.exponent <;> rfl

theorem isDigit_ne {c d : Char} (h : isDigit c = true) (hd : isDigit d = false) : c ≠ d := by
  rintro rfl
  rw [h] at hd
  cases hd

theorem readPower?_powerChars {e : Option Exponent}
    (h : ∀ x ∈ e, x.digits ≠ [] ∧ AllDigits x.digits) {rest : List Char} (ends : Ends rest) :
    readPower? (powerChars e ++ rest) = some (e, rest) := by
  have hdigit : ∀ c ∈ rest.head?, isDigit c = false := fun c hc => (ends c hc).1
  cases e with
  | none =>
    cases rest with
    | nil => rfl
    | cons c cs =>
      obtain ⟨-, -, he, hE⟩ := ends c rfl
      simp [powerChars, readPower?, he, hE]
  | some x =>
    obtain ⟨hne, hds⟩ := h x rfl
    obtain ⟨negative, ds⟩ := x
    have hspan := spanDigits_append hds hdigit
    cases ds with
    | nil => exact absurd rfl hne
    | cons d ds =>
      have hd := hds d List.mem_cons_self
      have hminus : d ≠ '-' := isDigit_ne hd (by decide)
      have hplus : d ≠ '+' := isDigit_ne hd (by decide)
      cases negative with
      | true =>
        simp only [powerChars, if_true, List.cons_append, List.nil_append, readPower?]
        rw [if_pos (by decide)]
        simp only [List.cons_append] at hspan
        rw [hspan]
      | false =>
        simp only [List.cons_append] at hspan
        simp [powerChars, readPower?, hminus, hplus, hspan]

theorem readFraction?_fractionChars {ds : List Char} (h : AllDigits ds) {rest : List Char}
    (hdigit : ∀ c ∈ rest.head?, isDigit c = false) (hpoint : ∀ c ∈ rest.head?, c ≠ '.') :
    readFraction? (fractionChars ds ++ rest) = some (ds, rest) := by
  cases ds with
  | nil =>
    rw [fractionChars, List.isEmpty_nil, if_pos rfl, List.nil_append, readFraction?]
    rintro cs rfl
    exact hpoint '.' rfl rfl
  | cons d ds =>
    have hspan := spanDigits_append h hdigit
    simp only [fractionChars, List.isEmpty_cons, Bool.false_eq_true, if_false, List.cons_append,
      readFraction?] at hspan ⊢
    rw [hspan]

theorem powerChars_head (power : Option Exponent) {rest : List Char} (ends : Ends rest) :
    ∀ c ∈ (powerChars power ++ rest).head?, isDigit c = false ∧ c ≠ '.' := by
  intro c hc
  cases power with
  | none => exact ⟨(ends c hc).1, (ends c hc).2.1⟩
  | some e =>
    obtain rfl : 'e' = c := by simpa [powerChars] using hc
    decide

theorem fractionChars_head (fraction : List Char) {rest : List Char}
    (hrest : ∀ c ∈ rest.head?, isDigit c = false) :
    ∀ c ∈ (fractionChars fraction ++ rest).head?, isDigit c = false := by
  intro c hc
  cases fraction with
  | nil => exact hrest c hc
  | cons d ds =>
    obtain rfl : '.' = c := by simpa [fractionChars] using hc
    decide

/-- A plain numeral is read from its text, up to a rest in front of which a number ends. -/
theorem readNumber?_toChars {n : Numeral} (h : Plain n) {rest : List Char} (ends : Ends rest) :
    readNumber? (n.toChars ++ rest) = some (n, rest) := by
  have hpower := readPower?_powerChars h.power_digits ends
  have htail := powerChars_head n.exponent ends
  have hfraction := readFraction?_fractionChars h.fraction_digits
    (fun c hc => (htail c hc).1) (fun c hc => (htail c hc).2)
  have hmiddle := fractionChars_head n.fraction fun c hc => (htail c hc).1
  have hspan := spanDigits_append h.whole_digits hmiddle
  rw [toChars_eq]
  simp only [List.append_assoc]
  obtain ⟨negative, whole, fraction, exponent⟩ := n
  simp only at hpower hfraction hspan ⊢
  cases whole with
  | nil => exact absurd rfl h.whole_ne_nil
  | cons w ws =>
    have hw := h.whole_digits w List.mem_cons_self
    have hminus : w ≠ '-' := isDigit_ne hw (by decide)
    have hlead : ∀ x xs, w :: ws = '0' :: x :: xs → False := by
      intro x xs heq
      rcases h.lead with hone | hhead
      · rw [show w :: ws = ['0'] from hone] at heq
        cases heq
      · rw [show w :: ws = '0' :: x :: xs from heq] at hhead
        exact hhead rfl
    rw [List.cons_append] at hspan
    cases negative with
    | true => simp [readNumber?, hspan, hfraction, hpower]
    | false => simp [readNumber?, hminus, hspan, hfraction, hpower]

/-! ## Texts of values -/

mutual

/-- The texts of a value, with any blanks between its parts. -/
inductive Writes : Json → List Char → Prop
  | null : Writes .null ['n', 'u', 'l', 'l']
  | yes : Writes (.bool true) ['t', 'r', 'u', 'e']
  | no : Writes (.bool false) ['f', 'a', 'l', 's', 'e']
  | num {n : Numeral} (h : Plain n) : Writes (.num n) n.toChars
  | str (t : Option String) : Writes (.str t) (writeText t)
  | noItems : Writes (.arr []) ['[', ']']
  | arr {items : List Json} {cs : List Char} (h : WritesItems items cs) :
      Writes (.arr items) ('[' :: (cs ++ [']']))
  | noMembers : Writes (.obj []) ['\x7b', '\x7d']
  | obj {members : List (Option String × Json)} {cs : List Char} (h : WritesMembers members cs) :
      Writes (.obj members) ('\x7b' :: (cs ++ ['\x7d']))

/-- The texts of one or more items. -/
inductive WritesItems : List Json → List Char → Prop
  | last {j : Json} {before cs after : List Char} (hbefore : Blank before) (h : Writes j cs)
      (hafter : Blank after) : WritesItems [j] (before ++ (cs ++ after))
  | more {j : Json} {items : List Json} {before cs ds : List Char} (hbefore : Blank before)
      (h : Writes j cs) (hmore : WritesItems items ds) :
      WritesItems (j :: items) (before ++ (cs ++ ',' :: ds))

/-- The texts of one or more members. -/
inductive WritesMembers : List (Option String × Json) → List Char → Prop
  | last {k : Option String} {j : Json} {before between cs after : List Char}
      (hbefore : Blank before) (hbetween : Blank between) (h : Writes j cs)
      (hafter : Blank after) :
      WritesMembers [(k, j)] (before ++ (writeText k ++ ':' :: (between ++ (cs ++ after))))
  | more {k : Option String} {j : Json} {members : List (Option String × Json)}
      {before between cs ds : List Char} (hbefore : Blank before) (hbetween : Blank between)
      (h : Writes j cs) (hmore : WritesMembers members ds) :
      WritesMembers ((k, j) :: members)
        (before ++ (writeText k ++ ':' :: (between ++ (cs ++ ',' :: ds))))

end

theorem toChars_head {n : Numeral} (h : Plain n) :
    ∃ c cs, n.toChars = c :: cs ∧ (c = '-' ∨ isDigit c = true) := by
  rw [toChars_eq]
  cases n.negative with
  | true => exact ⟨'-', _, rfl, .inl rfl⟩
  | false =>
    obtain ⟨w, ws, hw⟩ := List.exists_cons_of_ne_nil h.whole_ne_nil
    have hdigit := h.whole_digits w (by simp [hw])
    exact ⟨w, _, by simp only [hw]; rfl, .inr hdigit⟩

theorem isDigit_iff {c : Char} : isDigit c = true ↔ 48 ≤ c.toNat ∧ c.toNat ≤ 57 := by
  unfold isDigit
  rw [Bool.and_eq_true, decide_eq_true_iff, decide_eq_true_iff]
  exact Iff.rfl

/-- A letter that opens a number opens nothing else. -/
theorem number_head_ne {c d : Char} (h : c = '-' ∨ isDigit c = true) (hminus : d ≠ '-')
    (hdigit : isDigit d = false) : c ≠ d := by
  rcases h with rfl | h
  · exact hminus.symm
  · exact isDigit_ne h hdigit

theorem number_head_not_space {c : Char} (h : c = '-' ∨ isDigit c = true) :
    isSpace c = false := by
  have hne (d : Char) (hminus : d ≠ '-') (hdigit : isDigit d = false) : (c == d) = false :=
    beq_false_of_ne (number_head_ne h hminus hdigit)
  unfold isSpace
  rw [hne ' ' (by decide) (by decide), hne '\t' (by decide) (by decide),
    hne '\n' (by decide) (by decide), hne '\r' (by decide) (by decide)]
  rfl

theorem writeText_head (t : Option String) : ∃ cs, writeText t = '\x22' :: cs := by
  cases t with
  | none => exact ⟨_, rfl⟩
  | some s => exact ⟨_, rfl⟩

/-- The first letter of a value is no blank and closes nothing. -/
theorem Writes.head {j : Json} {cs : List Char} (h : Writes j cs) :
    ∃ c ds, cs = c :: ds ∧ isSpace c = false ∧ c ≠ ']' := by
  cases h with
  | num hn =>
    obtain ⟨c, ds, hcs, hc⟩ := toChars_head hn
    exact ⟨c, ds, hcs, number_head_not_space hc, number_head_ne hc (by decide) (by decide)⟩
  | str t =>
    obtain ⟨ds, hds⟩ := writeText_head t
    exact ⟨_, ds, hds, by decide, by decide⟩
  | null | yes | no | noItems | noMembers | arr | obj => exact ⟨_, _, rfl, by decide, by decide⟩

theorem WritesItems.head {items : List Json} {cs : List Char} (h : WritesItems items cs)
    (rest : List Char) : ∃ c ds, skipSpace (cs ++ rest) = c :: ds ∧ c ≠ ']' := by
  cases h with
  | last hbefore h hafter | more hbefore h hmore =>
    obtain ⟨c, ds, rfl, hc, hne⟩ := h.head
    rw [List.append_assoc, skipSpace_blank hbefore, List.append_assoc, List.cons_append,
      skipSpace_of_head hc]
    exact ⟨c, _, rfl, hne⟩

theorem WritesMembers.head {members : List (Option String × Json)} {cs : List Char}
    (h : WritesMembers members cs) (rest : List Char) :
    ∃ ds, skipSpace (cs ++ rest) = '\x22' :: ds := by
  have hquote (k : Option String) (before tail : List Char) (hbefore : Blank before) :
      ∃ ds, skipSpace ((before ++ (writeText k ++ tail)) ++ rest) = '\x22' :: ds := by
    obtain ⟨ds, hds⟩ := writeText_head k
    rw [List.append_assoc, skipSpace_blank hbefore, hds, List.cons_append, List.cons_append,
      skipSpace_of_head (by decide)]
    exact ⟨_, rfl⟩
  cases h with
  | last hbefore => exact hquote _ _ _ hbefore
  | more hbefore => exact hquote _ _ _ hbefore

/-! ## Reading values -/

theorem ends_cons {c : Char} (h : isDigit c = false ∧ c ≠ '.' ∧ c ≠ 'e' ∧ c ≠ 'E')
    (cs : List Char) : Ends (c :: cs) := by
  rintro d hd
  cases hd
  exact h

theorem ends_blank {after rest : List Char} (hafter : Blank after) (ends : Ends rest) :
    Ends (after ++ rest) := by
  cases after with
  | nil => exact ends
  | cons c cs =>
    rintro d hd
    obtain rfl : c = d := by simpa using hd
    have hspace := hafter c List.mem_cons_self
    have hne (d : Char) (hd : isSpace d = false) : c ≠ d := by
      rintro rfl
      rw [hspace] at hd
      cases hd
    have hdigit : isDigit c = false := by
      unfold isSpace at hspace
      simp only [Bool.or_eq_true, beq_iff_eq] at hspace
      rcases hspace with ((rfl | rfl) | rfl) | rfl <;> decide
    exact ⟨hdigit, hne '.' (by decide), hne 'e' (by decide), hne 'E' (by decide)⟩

theorem readValue?_number {n : Numeral} (h : Plain n) {rest : List Char} (ends : Ends rest)
    (fuel : Nat) : readValue? (fuel + 1) (n.toChars ++ rest) = some (.num n, rest) := by
  have hread := readNumber?_toChars h ends
  obtain ⟨c, cs, hcs, hc⟩ := toChars_head h
  have hne (d : Char) (hminus : d ≠ '-') (hdigit : isDigit d = false) : ¬ (c == d) = true := by
    simpa using number_head_ne hc hminus hdigit
  rw [hcs, List.cons_append] at hread ⊢
  rw [readValue?, skipSpace_of_head (number_head_not_space hc)]
  dsimp only
  rw [if_neg (hne _ (by decide) (by decide)), if_neg (hne _ (by decide) (by decide)),
    if_neg (hne _ (by decide) (by decide)), if_neg (hne _ (by decide) (by decide)),
    if_neg (hne _ (by decide) (by decide)), if_neg (hne _ (by decide) (by decide)), hread]
  rfl

theorem readValue?_string (t : Option String) (rest : List Char) (fuel : Nat) :
    readValue? (fuel + 1) (writeText t ++ rest) = some (.str t, rest) := by
  obtain ⟨cs, hcs, hread⟩ := readString?_writeText t rest
  rw [hcs, readValue?, skipSpace_of_head (by decide)]
  simp [hread]

/-- Fuel with which values are read: two for each letter. -/
def ReadsValues (fuel : Nat) : Prop :=
  ∀ rest {j cs}, Writes j cs → Ends rest → 2 * cs.length ≤ fuel →
    readValue? fuel (cs ++ rest) = some (j, rest)

def ReadsItems (fuel : Nat) : Prop :=
  ∀ rest {items cs}, WritesItems items cs → 2 * cs.length + 1 ≤ fuel →
    readItems? fuel (cs ++ ']' :: rest) = some (items, rest)

def ReadsMembers (fuel : Nat) : Prop :=
  ∀ rest {members cs}, WritesMembers members cs → 2 * cs.length + 1 ≤ fuel →
    readMembers? fuel (cs ++ '\x7d' :: rest) = some (members, rest)

theorem readsValues_succ {fuel : Nat} (hitems : ReadsItems fuel) (hmembers : ReadsMembers fuel) :
    ReadsValues (fuel + 1) := by
  intro rest j cs h ends hf
  cases h with
  | null | yes | no => simp [readValue?, skipSpace, isSpace, readWord?]
  | num hn => exact readValue?_number hn ends fuel
  | str t => exact readValue?_string t rest fuel
  | noItems => simp [readValue?, skipSpace, isSpace]
  | noMembers => simp [readValue?, skipSpace, isSpace]
  | @arr items cs hwrites =>
    have hread := hitems rest hwrites (by simp at hf; omega)
    obtain ⟨c, ds, hskip, hc⟩ := hwrites.head (']' :: rest)
    rw [← readItems?_skipSpace, hskip] at hread
    simp only [List.cons_append, List.append_assoc, List.nil_append]
    rw [readValue?, skipSpace_of_head (by decide)]
    simp [hskip, hread, hc]
  | @obj members cs hwrites =>
    have hread := hmembers rest hwrites (by simp at hf; omega)
    obtain ⟨ds, hskip⟩ := hwrites.head ('\x7d' :: rest)
    rw [← readMembers?_skipSpace, hskip] at hread
    simp only [List.cons_append, List.append_assoc, List.nil_append]
    rw [readValue?, skipSpace_of_head (by decide)]
    simp [hskip, hread]

theorem readsItems_succ {fuel : Nat} (hvalues : ReadsValues fuel) (hitems : ReadsItems fuel) :
    ReadsItems (fuel + 1) := by
  intro rest items cs h hf
  cases h with
  | @last j before cs after hbefore h hafter =>
    have hends : Ends (after ++ ']' :: rest) := ends_blank hafter (ends_cons (by decide) rest)
    have hread := hvalues _ h hends (by simp at hf; omega)
    simp only [List.append_assoc]
    rw [readItems?, readValue?_blank hbefore, hread]
    dsimp only
    rw [skipSpace_blank hafter, skipSpace_of_head (by decide)]
    rfl
  | @more j items before cs ds hbefore h hmore =>
    have hread := hvalues _ h (ends_cons (c := ',') (by decide) (ds ++ ']' :: rest))
      (by simp at hf; omega)
    have hrest := hitems rest hmore (by simp at hf; omega)
    simp only [List.append_assoc, List.cons_append]
    rw [readItems?, readValue?_blank hbefore, hread]
    dsimp only
    rw [skipSpace_of_head (by decide)]
    simp [hrest]

theorem readsMembers_succ {fuel : Nat} (hvalues : ReadsValues fuel)
    (hmembers : ReadsMembers fuel) : ReadsMembers (fuel + 1) := by
  intro rest members cs h hf
  cases h with
  | @last k j before between cs after hbefore hbetween h hafter =>
    obtain ⟨text, htext, hkey⟩ :=
      readString?_writeText k (':' :: (between ++ (cs ++ (after ++ '\x7d' :: rest))))
    have hends : Ends (after ++ '\x7d' :: rest) :=
      ends_blank hafter (ends_cons (by decide) rest)
    have hread := hvalues _ h hends (by simp at hf; omega)
    simp only [List.append_assoc, List.cons_append]
    rw [readMembers?, skipSpace_blank hbefore, htext, skipSpace_of_head (by decide)]
    simp only [hkey, skipSpace_of_head (show isSpace ':' = false from rfl),
      readValue?_blank hbetween, hread, skipSpace_blank hafter,
      skipSpace_of_head (show isSpace '\x7d' = false from rfl)]
  | @more k j members before between cs ds hbefore hbetween h hmore =>
    obtain ⟨text, htext, hkey⟩ :=
      readString?_writeText k (':' :: (between ++ (cs ++ ',' :: (ds ++ '\x7d' :: rest))))
    have hread := hvalues _ h (ends_cons (c := ',') (by decide) (ds ++ '\x7d' :: rest))
      (by simp at hf; omega)
    have hrest := hmembers rest hmore (by simp at hf; omega)
    simp only [List.append_assoc, List.cons_append]
    rw [readMembers?, skipSpace_blank hbefore, htext, skipSpace_of_head (by decide)]
    simp only [hkey, skipSpace_of_head (show isSpace ':' = false from rfl),
      readValue?_blank hbetween, hread, skipSpace_of_head (show isSpace ',' = false from rfl),
      hrest, Option.map_some]

/-- The readers of a value, of items and of members on any of their texts. -/
theorem reads_written (fuel : Nat) :
    ReadsValues fuel ∧ ReadsItems fuel ∧ ReadsMembers fuel := by
  -- every step down and every step along takes one of the fuel
  induction fuel with
  | zero =>
    refine ⟨?_, ?_, ?_⟩
    · intro rest j cs h ends hf
      obtain ⟨c, ds, rfl, -⟩ := h.head
      simp at hf
    · intro rest items cs h hf
      exact absurd hf (by omega)
    · intro rest members cs h hf
      exact absurd hf (by omega)
  | succ fuel ih =>
    obtain ⟨hvalues, hitems, hmembers⟩ := ih
    exact ⟨readsValues_succ hitems hmembers, readsItems_succ hvalues hitems,
      readsMembers_succ hvalues hmembers⟩

/-- A text of a value is read as the value. -/
theorem read?_of_writes {j : Json} {cs : List Char} (h : Writes j cs) : read? cs = some j := by
  have hread := (reads_written (2 * cs.length + 2)).1 [] h (by simp [Ends]) (by omega)
  rw [List.append_nil] at hread
  unfold read?
  rw [hread]
  rfl

/-! ## Writing values -/

mutual

/-- Every number of a value is plain. -/
def AllPlain : Json → Prop
  | .num n => Plain n
  | .arr items => AllPlainItems items
  | .obj members => AllPlainMembers members
  | .null => True
  | .bool _ => True
  | .str _ => True

def AllPlainItems : List Json → Prop
  | [] => True
  | j :: rest => AllPlain j ∧ AllPlainItems rest

def AllPlainMembers : List (Option String × Json) → Prop
  | [] => True
  | (_, j) :: rest => AllPlain j ∧ AllPlainMembers rest

end

theorem blank_breakLine (level : Nat) : Blank (breakLine level) := by
  intro c hc
  rcases List.mem_cons.mp hc with rfl | hc
  · rfl
  · rw [List.eq_of_mem_replicate hc]
    rfl

mutual

theorem writes_prettyAt : ∀ (j : Json) (level : Nat), AllPlain j → Writes j (prettyAt level j)
  | .null, _, _ => .null
  | .bool true, _, _ => .yes
  | .bool false, _, _ => .no
  | .num _, _, h => .num h
  | .str t, _, _ => .str t
  | .arr [], _, _ => .noItems
  | .arr (j :: items), level, h => by
    have hitems := writes_prettyItems (j :: items) (level + 1) h (List.cons_ne_nil j items)
      (blank_breakLine level)
    simpa [prettyAt] using Writes.arr hitems
  | .obj [], _, _ => .noMembers
  | .obj (m :: members), level, h => by
    have hmembers := writes_prettyMembers (m :: members) (level + 1) h (List.cons_ne_nil m members)
      (blank_breakLine level)
    simpa [prettyAt] using Writes.obj hmembers

theorem writes_prettyItems : ∀ (items : List Json) (level : Nat) {after : List Char},
    AllPlainItems items → items ≠ [] → Blank after →
    WritesItems items (prettyItems level items ++ after)
  | [], _, _, _, hne, _ => absurd rfl hne
  | [j], level, after, h, _, hafter => by
    have hj := writes_prettyAt j level h.1
    simpa [prettyItems] using WritesItems.last (blank_breakLine level) hj hafter
  | j :: i :: items, level, after, h, _, hafter => by
    have hj := writes_prettyAt j level h.1
    have hitems := writes_prettyItems (i :: items) level h.2 (List.cons_ne_nil i items) hafter
    simpa [prettyItems] using WritesItems.more (blank_breakLine level) hj hitems

theorem writes_prettyMembers : ∀ (members : List (Option String × Json)) (level : Nat)
    {after : List Char}, AllPlainMembers members → members ≠ [] → Blank after →
    WritesMembers members (prettyMembers level members ++ after)
  | [], _, _, _, hne, _ => absurd rfl hne
  | [(k, j)], level, after, h, _, hafter => by
    have hj := writes_prettyAt j level h.1
    have hspace : Blank [' '] := by simp [Blank, isSpace]
    simpa [prettyMembers] using
      WritesMembers.last (k := k) (blank_breakLine level) hspace hj hafter
  | (k, j) :: m :: members, level, after, h, _, hafter => by
    have hj := writes_prettyAt j level h.1
    have hspace : Blank [' '] := by simp [Blank, isSpace]
    have hmembers := writes_prettyMembers (m :: members) level h.2 (List.cons_ne_nil m members)
      hafter
    simpa [prettyMembers] using
      WritesMembers.more (k := k) (blank_breakLine level) hspace hj hmembers

end

/-- A value with plain numbers is read back from its text over several lines. -/
theorem read?_pretty {j : Json} (h : AllPlain j) : read? j.pretty = some j :=
  read?_of_writes (writes_prettyAt j 0 h)

end Lookalike.Json
