-- What a longer text changes: a value that was read stays what it was read as
-- when more text follows, so an object whose end is missing is not read at
-- all. Only a number can go on, since nothing marks its end.
import Mathlib.Data.List.TakeWhile
import Lookalike.Proofs.JsonText

namespace Lookalike.Json

open Decimal (Numeral Exponent isDigit spanDigits)

/-! ## Parts with more behind -/

theorem readString?_append {u : Units} {cs rest : List Char} {t : Option String}
    (h : readString? u cs = some (t, rest)) (more : List Char) :
    readString? u (cs ++ more) = some (t, rest ++ more) := by
  fun_induction readString? u cs with
  | case1 | case3 | case5 | case7 => cases h
  | case2 u a b c d rest' na nb nc nd hd hc hb ha ih =>
    simp only [List.cons_append, readString?, ha, hb, hc, hd]
    exact ih h
  | case4 u c rest' hcode e he ih =>
    have hne : c ≠ 'u' := by
      rintro rfl
      cases he
    rw [List.cons_append, List.cons_append, readString?]
    · simp only [he]
      exact ih h
    · exact fun _ _ _ _ _ hu _ => hne hu
  | case6 u c rest' hcode hescape hquote =>
    cases h
    obtain rfl := beq_iff_eq.mp hquote
    rw [List.cons_append, readString?]
    · rfl
    · simp
    · simp
  | case8 u c rest' hcode hescape hquote hbad ih =>
    simp only [Bool.or_eq_true, not_or, beq_iff_eq, decide_eq_true_iff] at hquote hbad
    rw [List.cons_append, readString?_plain hquote hbad.1 hbad.2]
    exact ih h

theorem spanDigits_eq {cs ds rest : List Char} (h : spanDigits cs = (ds, rest)) :
    cs = ds ++ rest ∧ AllDigits ds ∧ ∀ c ∈ rest.head?, isDigit c = false := by
  unfold spanDigits at h
  rw [Prod.mk.injEq] at h
  obtain ⟨rfl, rfl⟩ := h
  refine ⟨List.takeWhile_append_dropWhile.symm, fun c hc => List.mem_takeWhile_imp hc, ?_⟩
  intro c hc
  have hnot := List.head?_dropWhile_not isDigit cs
  rw [Option.mem_def.mp hc] at hnot
  simpa using hnot

/-- Digits that ended before the end of a text end at the same place in a longer one. -/
theorem spanDigits_more {cs ds rest : List Char} (h : spanDigits cs = (ds, rest)) (hne : rest ≠ [])
    (more : List Char) : spanDigits (cs ++ more) = (ds, rest ++ more) := by
  obtain ⟨rfl, hds, hhead⟩ := spanDigits_eq h
  rw [List.append_assoc]
  apply spanDigits_append hds
  rwa [List.head?_append_of_ne_nil _ hne]

theorem readFraction?_append {cs ds rest : List Char} (h : readFraction? cs = some (ds, rest))
    (hne : rest ≠ []) (more : List Char) :
    readFraction? (cs ++ more) = some (ds, rest ++ more) := by
  fun_cases readFraction? cs with
  | case1 cs' rest' hspan => simp [readFraction?, hspan] at h
  | case2 cs' ds' rest' hnil hspan =>
    simp only [readFraction?, hspan, Option.some.injEq, Prod.mk.injEq] at h
    obtain ⟨rfl, rfl⟩ := h
    rw [List.cons_append, readFraction?, spanDigits_more hspan hne]
    split
    · rename_i heq
      cases heq
      exact absurd rfl hnil
    · rename_i heq
      cases heq
      rfl
  | case3 cs' hpoint =>
    rw [readFraction?] at h
    · cases h
      obtain ⟨c, cs, rfl⟩ := List.exists_cons_of_ne_nil hne
      rw [List.cons_append, readFraction?]
      · rintro ds heq
        cases heq
        exact hpoint cs rfl
    · exact hpoint

/-- The sign of a power of ten, and what follows it. -/
def powerSign : List Char → Bool × List Char
  | '-' :: r => (true, r)
  | '+' :: r => (false, r)
  | r => (false, r)

theorem readPower?_cons (c : Char) (cs : List Char) :
    readPower? (c :: cs) =
      if c == 'e' || c == 'E' then
        match spanDigits (powerSign cs).2 with
        | ([], _) => none
        | (ds, rest) => some (some ⟨(powerSign cs).1, ds⟩, rest)
      else some (none, c :: cs) := rfl

theorem powerSign_append {cs : List Char} (hne : cs ≠ []) (more : List Char) :
    powerSign (cs ++ more) = ((powerSign cs).1, (powerSign cs).2 ++ more) := by
  cases cs with
  | nil => exact absurd rfl hne
  | cons c cs =>
    by_cases hminus : c = '-'
    · subst hminus
      rfl
    · by_cases hplus : c = '+'
      · subst hplus
        rfl
      · simp [powerSign, hminus, hplus]

theorem readPower?_append {cs rest : List Char} {e : Option Exponent}
    (h : readPower? cs = some (e, rest)) (hne : rest ≠ []) (more : List Char) :
    readPower? (cs ++ more) = some (e, rest ++ more) := by
  cases cs with
  | nil =>
    cases h
    exact absurd rfl hne
  | cons c cs =>
    rw [List.cons_append, readPower?_cons]
    rw [readPower?_cons] at h
    split_ifs at h ⊢ with hletter
    · have hcs : cs ≠ [] := by
        rintro rfl
        cases h
      rcases hspan : spanDigits (powerSign cs).2 with ⟨ds, after⟩
      rw [hspan] at h
      cases ds with
      | nil => cases h
      | cons d ds =>
        cases h
        rw [powerSign_append hcs, spanDigits_more hspan hne]
    · cases h
      rfl

/-- The sign of a number, and what follows it. -/
def numberSign : List Char → Bool × List Char
  | '-' :: r => (true, r)
  | r => (false, r)

theorem numberSign_append {cs : List Char} (hne : cs ≠ []) (more : List Char) :
    numberSign (cs ++ more) = ((numberSign cs).1, (numberSign cs).2 ++ more) := by
  cases cs with
  | nil => exact absurd rfl hne
  | cons c cs =>
    by_cases hminus : c = '-'
    · subst hminus
      rfl
    · simp [numberSign, hminus]

theorem readNumber?_eq (cs : List Char) :
    readNumber? cs =
      match spanDigits (numberSign cs).2 with
      | ([], _) => none
      | ('0' :: _ :: _, _) => none
      | (whole, after) => (readFraction? after).bind fun f => (readPower? f.2).bind fun p =>
        some (⟨(numberSign cs).1, whole, f.1, p.1⟩, p.2) := rfl

/-- What a fraction and a power of ten are read from is not at its end where the rest is not. -/
theorem readFraction?_ne_nil {cs ds back rest : List Char} {e : Option Exponent}
    (hfraction : readFraction? cs = some (ds, back)) (hpower : readPower? back = some (e, rest))
    (hne : rest ≠ []) : back ≠ [] ∧ cs ≠ [] := by
  have hback : back ≠ [] := by
    rintro rfl
    cases hpower
    exact hne rfl
  refine ⟨hback, ?_⟩
  rintro rfl
  cases hfraction
  exact hback rfl

theorem readNumber?_append {cs rest : List Char} {n : Numeral}
    (h : readNumber? cs = some (n, rest)) (hne : rest ≠ []) (more : List Char) :
    readNumber? (cs ++ more) = some (n, rest ++ more) := by
  have hcs : cs ≠ [] := by
    rintro rfl
    cases h
  rw [readNumber?_eq] at h ⊢
  rcases hspan : spanDigits (numberSign cs).2 with ⟨whole, after⟩
  rw [hspan] at h
  split at h
  · cases h
  · cases h
  · rename_i w a hnil hzero heq
    cases heq
    obtain ⟨⟨ds, back⟩, hfraction, h⟩ := Option.bind_eq_some_iff.mp h
    obtain ⟨⟨e, end_⟩, hpower, h⟩ := Option.bind_eq_some_iff.mp h
    cases h
    obtain ⟨hback, hafter⟩ := readFraction?_ne_nil hfraction hpower hne
    rw [numberSign_append hcs, spanDigits_more hspan hafter]
    split
    · rename_i heq
      cases heq
      exact absurd rfl hnil
    · rename_i heq
      cases heq
      exact absurd rfl (hzero _ _)
    · rename_i heq
      cases heq
      rw [readFraction?_append hfraction hback, Option.bind_some, readPower?_append hpower hne]
      rfl

/-! ## Values with more behind -/

theorem readWord?_append {word cs rest : List Char} {j i : Json}
    (h : readWord? word j cs = some (i, rest)) (more : List Char) :
    readWord? word j (cs ++ more) = some (i, rest ++ more) := by
  unfold readWord? at h ⊢
  split_ifs at h with hword
  cases h
  obtain ⟨rest, rfl⟩ := List.isPrefixOf_iff_prefix.mp hword
  rw [List.append_assoc, if_pos (List.isPrefixOf_iff_prefix.mpr (List.prefix_append _ _)),
    List.drop_left, List.drop_left]

theorem skipSpace_append {c : Char} {cs ds : List Char} (h : skipSpace cs = c :: ds)
    (more : List Char) : skipSpace (cs ++ more) = c :: (ds ++ more) := by
  unfold skipSpace at h ⊢
  rw [List.dropWhile_append, h]
  rfl

/-- A reading does not change when more fuel is there or more text follows, unless it is a number at
the end. -/
def SteadyValues (fuel : Nat) : Prop :=
  ∀ {enough cs j rest} (more : List Char), fuel ≤ enough → readValue? fuel cs = some (j, rest) →
    (rest ≠ [] ∨ ∀ n, j ≠ .num n) → readValue? enough (cs ++ more) = some (j, rest ++ more)

def SteadyItems (fuel : Nat) : Prop :=
  ∀ {enough cs items rest} (more : List Char), fuel ≤ enough →
    readItems? fuel cs = some (items, rest) →
    readItems? enough (cs ++ more) = some (items, rest ++ more)

def SteadyMembers (fuel : Nat) : Prop :=
  ∀ {enough cs members rest} (more : List Char), fuel ≤ enough →
    readMembers? fuel cs = some (members, rest) →
    readMembers? enough (cs ++ more) = some (members, rest ++ more)

theorem steadyItems_succ {fuel : Nat} (hvalues : SteadyValues fuel) (hitems : SteadyItems fuel) :
    SteadyItems (fuel + 1) := by
  intro enough cs items rest more hle h
  obtain ⟨enough, rfl⟩ := Nat.exists_eq_succ_of_ne_zero (show enough ≠ 0 by omega)
  rw [readItems?] at h ⊢
  cases hj : readValue? fuel cs with
  | none => simp [hj] at h
  | some p =>
    obtain ⟨j, after⟩ := p
    rw [hj] at h
    dsimp only at h
    have hafter : after ≠ [] := by
      rintro rfl
      cases h
    rw [hvalues more (by omega) hj (.inl hafter)]
    dsimp only
    split at h
    · rename_i tail hskip
      rw [skipSpace_append hskip]
      obtain ⟨p, hp, hpair⟩ := Option.map_eq_some_iff.mp h
      cases hpair
      simp only [hitems more (Nat.le_of_succ_le_succ hle) hp, Option.map_some]
    · rename_i tail hskip
      cases h
      rw [skipSpace_append hskip]
      rfl
    · cases h

theorem steadyMembers_succ {fuel : Nat} (hvalues : SteadyValues fuel)
    (hmembers : SteadyMembers fuel) : SteadyMembers (fuel + 1) := by
  intro enough cs members rest more hle h
  obtain ⟨enough, rfl⟩ := Nat.exists_eq_succ_of_ne_zero (show enough ≠ 0 by omega)
  rw [readMembers?] at h ⊢
  split at h
  · rename_i inside hskip
    rw [skipSpace_append hskip]
    cases hkey : readString? ⟨[], none, false⟩ inside with
    | none => simp [hkey] at h
    | some p =>
      obtain ⟨key, behind⟩ := p
      rw [hkey] at h
      dsimp only at h
      simp only [readString?_append hkey]
      split at h
      · rename_i value hcolon
        simp only [skipSpace_append hcolon]
        cases hj : readValue? fuel value with
        | none => simp [hj] at h
        | some p =>
          obtain ⟨j, after⟩ := p
          rw [hj] at h
          dsimp only at h
          have hafter : after ≠ [] := by
            rintro rfl
            cases h
          rw [hvalues more (Nat.le_of_succ_le_succ hle) hj (.inl hafter)]
          dsimp only
          split at h
          · rename_i tail hcomma
            rw [skipSpace_append hcomma]
            obtain ⟨p, hp, hpair⟩ := Option.map_eq_some_iff.mp h
            cases hpair
            simp only [hmembers more (Nat.le_of_succ_le_succ hle) hp, Option.map_some]
          · rename_i tail hbrace
            cases h
            rw [skipSpace_append hbrace]
            rfl
          · cases h
      · cases h
  · cases h

theorem readMembers?_nil (fuel : Nat) : readMembers? fuel [] = none := by
  cases fuel <;> rfl

theorem readItems?_nil (fuel : Nat) : readItems? fuel [] = none := by
  cases fuel with
  | zero => rfl
  | succ fuel => cases fuel <;> rfl

/-- What is read behind an opening mark begins with something else than its closing mark, and does
so with more text behind it. -/
theorem read_inside_append {α : Type} {read wide : List Char → Option (α × List Char)}
    (empty : read [] = none) (spaces : ∀ cs, read (skipSpace cs) = read cs)
    (wideSpaces : ∀ cs, wide (skipSpace cs) = wide cs) {cs more : List Char} {p : α × List Char}
    (steady : read cs = some p → wide (cs ++ more) = some (p.1, p.2 ++ more))
    (hread : read (skipSpace cs) = some p) {close : Char}
    (hopen : ∀ ds, skipSpace cs = close :: ds → False) :
    ∃ d ds, skipSpace (cs ++ more) = d :: ds ∧ d ≠ close ∧
      wide (d :: ds) = some (p.1, p.2 ++ more) := by
  cases hfirst : skipSpace cs with
  | nil =>
    rw [hfirst, empty] at hread
    cases hread
  | cons d ds =>
    have hfirst' := skipSpace_append hfirst more
    refine ⟨d, ds ++ more, hfirst', ?_, ?_⟩
    · rintro rfl
      exact hopen ds hfirst
    · rw [spaces] at hread
      rw [← hfirst', wideSpaces]
      exact steady hread

theorem steadyValues_succ {fuel : Nat} (hitems : SteadyItems fuel)
    (hmembers : SteadyMembers fuel) : SteadyValues (fuel + 1) := by
  intro enough cs j rest more hle h hend
  obtain ⟨enough, rfl⟩ := Nat.exists_eq_succ_of_ne_zero (show enough ≠ 0 by omega)
  have hle := Nat.le_of_succ_le_succ hle
  rw [readValue?] at h ⊢
  split at h
  · cases h
  · rename_i c tail hskip
    rw [skipSpace_append hskip]
    dsimp only
    split_ifs at h ⊢ with hbrace hbracket hquote ht hf hn
    · split at h
      · rename_i tail' hclose
        cases h
        rw [skipSpace_append hclose]
        rfl
      · rename_i hopen
        obtain ⟨p, hp, hpair⟩ := Option.map_eq_some_iff.mp h
        cases hpair
        obtain ⟨d, ds, hfirst, hne, hinside⟩ := read_inside_append (readMembers?_nil fuel)
          (readMembers?_skipSpace fuel) (readMembers?_skipSpace enough) (hmembers more hle) hp hopen
        rw [hfirst]
        simp [hne, hinside]
    · split at h
      · rename_i tail' hclose
        cases h
        rw [skipSpace_append hclose]
        rfl
      · rename_i hopen
        obtain ⟨p, hp, hpair⟩ := Option.map_eq_some_iff.mp h
        cases hpair
        obtain ⟨d, ds, hfirst, hne, hinside⟩ := read_inside_append (readItems?_nil fuel)
          (readItems?_skipSpace fuel) (readItems?_skipSpace enough) (hitems more hle) hp hopen
        rw [hfirst]
        simp [hne, hinside]
    · obtain ⟨p, hp, hpair⟩ := Option.map_eq_some_iff.mp h
      cases hpair
      rw [readString?_append hp]
      rfl
    · exact readWord?_append h more
    · exact readWord?_append h more
    · exact readWord?_append h more
    · obtain ⟨p, hp, hpair⟩ := Option.map_eq_some_iff.mp h
      cases hpair
      have hne : p.2 ≠ [] := hend.resolve_right fun hnum => hnum p.1 rfl
      have hmore := readNumber?_append hp hne more
      rw [List.cons_append] at hmore
      rw [hmore]
      rfl

theorem reads_steady (fuel : Nat) : SteadyValues fuel ∧ SteadyItems fuel ∧ SteadyMembers fuel := by
  -- the readers of one value, of items and of members take one of the fuel for each step
  induction fuel with
  | zero =>
    refine ⟨?_, ?_, ?_⟩
    · intro enough cs j rest more hle h
      cases h
    · intro enough cs items rest more hle h
      cases h
    · intro enough cs members rest more hle h
      cases h
  | succ fuel ih =>
    obtain ⟨hvalues, hitems, hmembers⟩ := ih
    exact ⟨steadyValues_succ hitems hmembers, steadyItems_succ hvalues hitems,
      steadyMembers_succ hvalues hmembers⟩

theorem readValue?_brace {fuel : Nat} {cs rest : List Char} {j : Json}
    (h : readValue? fuel ('\x7b' :: cs) = some (j, rest)) : ∃ members, j = .obj members := by
  cases fuel with
  | zero => cases h
  | succ fuel =>
    rw [readValue?, skipSpace_of_head (by decide)] at h
    dsimp only at h
    rw [if_pos (by decide)] at h
    split at h
    · cases h
      exact ⟨_, rfl⟩
    · obtain ⟨p, -, hpair⟩ := Option.map_eq_some_iff.mp h
      cases hpair
      exact ⟨_, rfl⟩

theorem writes_brace {members : List (Option String × Json)} {cs : List Char}
    (h : Writes (.obj members) cs) : ∃ tail, cs = '\x7b' :: tail := by
  cases h <;> exact ⟨_, rfl⟩

/-- The text of an object that was cut short is no text of a value. -/
theorem read?_cut {members : List (Option String × Json)} {cs more : List Char}
    (h : Writes (.obj members) (cs ++ more)) (hmore : more ≠ []) : read? cs = none := by
  unfold read?
  cases hread : readValue? (2 * cs.length + 2) cs with
  | none => rfl
  | some p =>
    obtain ⟨j, rest⟩ := p
    -- read with the missing text behind, the same value would leave that text over
    exfalso
    have hfull := (reads_written (2 * (cs ++ more).length + 2)).1 [] h (by simp [Ends]) (by omega)
    rw [List.append_nil] at hfull
    have hobj : ∀ n, j ≠ .num n := by
      cases cs with
      | nil => cases hread
      | cons c cs =>
        obtain ⟨tail, htail⟩ := writes_brace h
        obtain rfl := (List.cons.inj htail).1
        obtain ⟨ms, rfl⟩ := readValue?_brace hread
        intro n hn
        cases hn
    have henough : 2 * cs.length + 2 ≤ 2 * (cs ++ more).length + 2 := by
      rw [List.length_append]
      omega
    have hlonger := (reads_steady (2 * cs.length + 2)).1 more henough hread (.inr hobj)
    rw [hfull, Option.some.injEq, Prod.mk.injEq] at hlonger
    exact hmore (List.append_eq_nil_iff.mp hlonger.2.symm).2

end Lookalike.Json
